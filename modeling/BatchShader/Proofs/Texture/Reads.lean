import BatchShader.Proofs.Texture.Sampling

/-
  What a sample reads.

  A sample reads one texel or four, at wrapped coordinates (`Image.reads`). It is `Contained` if it
  reads only places of the image and the words on the way hold the integers that they stand for. Its
  colour depends on nothing but the texels that it reads (`Full.only`), and the nearest filter gives
  one of them (`Full.nearest`). Whatever the settings and the bits of the coordinates are, samples
  of an accepted texture whose sides fit are contained; one whose sides do not fit is accepted as
  well, but has places without a texel (`Texture.samples_contained`).
-/

namespace BatchShader

namespace Image

/-! ## Accepted images -/

section Accepted

variable {width height : UInt64} {sampler : Sampler} {f : UInt64 → UInt64 → Rgba} {i : Image}

theorem length_rows {α : Type} {row : Nat → List α} {n : Nat} (hrow : ∀ y, (row y).length = n)
    (m : Nat) : ((List.range m).flatMap row).length = m * n := by
  induction m with
  | zero => exact (Nat.zero_mul n).symm
  | succ m ih =>
    rw [List.range_succ, List.flatMap_append, List.length_append, ih, List.flatMap_singleton, hrow,
      Nat.succ_mul]

/-- Where a texel is made for each place, the product of the sides is a word. -/
theorem sidesFit_of_ofFunction (h : ofFunction width height sampler f = .ok i) : i.SidesFit := by
  unfold ofFunction at h
  obtain ⟨-, hsize, rfl⟩ := new_eq_ok.1 h
  rw [List.size_toArray, length_rows (fun y => by rw [List.length_map, List.length_range])] at hsize
  rw [SidesFit, Nat.mul_comm, hsize]
  exact UInt64.toNat_lt _

theorem accepted_of_ofFunction (h : ofFunction width height sampler f = .ok i)
    (hmemory : 16 * i.texels.size < 2 ^ 63) : i.Accepted :=
  ⟨⟨_, _, _, _, h⟩, hmemory⟩

end Accepted

/-! ## Places read -/

/-- The coordinates of the texels that a sample reads. -/
def coordinates (i : Image) (filter : Filter) (s t : Binary32) : List (Int64 × Int64) :=
  match filter with
  | .nearest => [((s * Binary32.ofUInt64 i.width).floor.toInt64,
      (t * Binary32.ofUInt64 i.height).floor.toInt64)]
  | .linear => (i.footprint s t).map Prod.snd

/-- The places that a sample reads. -/
def reads (i : Image) (sampler : Sampler) (s t : Binary32) : List (UInt64 × UInt64) :=
  (i.coordinates sampler.filter s t).map fun c => i.place sampler c.1 c.2

/-- A sample that stays inside the image. -/
structure Contained (i : Image) (sampler : Sampler) (s t : Binary32) : Prop where
  inside : ∀ p ∈ i.reads sampler s t, p.1 < i.width ∧ p.2 < i.height
  /-- Each step from coordinates to the number of a texel fits its word. -/
  address : ∀ c ∈ i.coordinates sampler.filter s t, i.address? sampler c.1 c.2 =
    some (i.position (i.place sampler c.1 c.2).1 (i.place sampler c.1 c.2).2).toNat
  /-- The four coordinates around a point are those of one corner and the next ones, if there
  are any. -/
  corners : sampler.filter = .linear → ∃ x y x' y',
    i.coordinates sampler.filter s t = [(x, y), (x', y), (x, y'), (x', y')] ∧
      x'.toInt = min (x.toInt + 1) (2 ^ 63 - 1) ∧ y'.toInt = min (y.toInt + 1) (2 ^ 63 - 1)
  /-- The colour depends on no other texels. -/
  only : ∀ j : Image, j.width = i.width → j.height = i.height →
    (∀ p ∈ i.reads sampler s t, j.texel? p.1 p.2 = i.texel? p.1 p.2) →
      j.sampleWith sampler s t = i.sampleWith sampler s t
  sampled : ∃ c, i.sampleWith sampler s t = .ok c
  nearest : sampler.filter = .nearest → ∃ p, i.reads sampler s t = [p] ∧
    ∃ c ∈ i.texels, i.texel? p.1 p.2 = some c ∧ i.sampleWith sampler s t = .ok c

section Samples

variable {i j : Image} {sampler : Sampler} {s t : Binary32}

theorem toInt_nextCoordinate (x : Int64) :
    (nextCoordinate x).toInt = min (x.toInt + 1) (2 ^ 63 - 1) := by
  have hmax : Int64.maxValue.toInt = 2 ^ 63 - 1 := by decide
  have hone : (1 : Int64).toInt = 1 := by decide
  have hlt := x.toInt_lt
  have hle := x.le_toInt
  unfold nextCoordinate
  split
  · next h =>
    rw [h, hmax]
    decide
  · next h =>
    have hne : x.toInt ≠ 2 ^ 63 - 1 := fun heq => h (Int64.toInt_inj.1 (heq.trans hmax.symm))
    rw [toInt_add_of_fits (by omega) (by omega), hone]
    omega

theorem coordinates_nearest :
    i.coordinates .nearest s t = [((s * Binary32.ofUInt64 i.width).floor.toInt64,
      (t * Binary32.ofUInt64 i.height).floor.toInt64)] := rfl

/-- A fetch reads the texel at the place that its coordinates denote. -/
theorem fetch_eq_texel? {x y : Int64}
    (h : sampler.wrapS.index? x i.width = some (i.place sampler x y).1 ∧
      sampler.wrapT.index? y i.height = some (i.place sampler x y).2)
    (hlt : (i.place sampler x y).1 < i.width) :
    i.fetch sampler x y =
      Outcome.require (i.texel? (i.place sampler x y).1 (i.place sampler x y).2) := by
  rw [fetch_eq h.1 h.2, texel?, if_neg (UInt64.not_le.2 hlt)]

theorem place_congr (hwidth : j.width = i.width) (hheight : j.height = i.height) (x y : Int64) :
    j.place sampler x y = i.place sampler x y := by
  rw [place, place, hwidth, hheight]

theorem footprint_congr (hwidth : j.width = i.width) (hheight : j.height = i.height) :
    j.footprint s t = i.footprint s t := by
  simp only [footprint, hwidth, hheight]

theorem sampleWith_congr (hwidth : j.width = i.width) (hheight : j.height = i.height)
    (hfetch : ∀ c ∈ i.coordinates sampler.filter s t,
      j.fetch sampler c.1 c.2 = i.fetch sampler c.1 c.2) :
    j.sampleWith sampler s t = i.sampleWith sampler s t := by
  unfold sampleWith
  cases hfilter : sampler.filter with
  | nearest =>
    rw [hfilter, coordinates_nearest, List.forall_mem_singleton] at hfetch
    dsimp only
    rw [hwidth, hheight]
    exact hfetch
  | linear =>
    rw [hfilter] at hfetch
    dsimp only
    rw [footprint_congr hwidth hheight]
    refine Outcome.foldlM_congr (fun c hc acc => ?_) _
    rw [hfetch c.2 (List.mem_map_of_mem hc)]

theorem Full.inside (h : i.Full) : ∀ p ∈ i.reads sampler s t, p.1 < i.width ∧ p.2 < i.height := by
  intro p hp
  obtain ⟨c, -, rfl⟩ := List.mem_map.1 hp
  exact h.place_lt sampler c.1 c.2

theorem Full.only (h : i.Full) (hwidth : j.width = i.width) (hheight : j.height = i.height)
    (hread : ∀ p ∈ i.reads sampler s t, j.texel? p.1 p.2 = i.texel? p.1 p.2) :
    j.sampleWith sampler s t = i.sampleWith sampler s t := by
  refine sampleWith_congr hwidth hheight fun c hc => ?_
  have hlt := (h.place_lt sampler c.1 c.2).1
  have hdefined := h.index?_eq_place sampler c.1 c.2
  have hplace : j.place sampler c.1 c.2 = i.place sampler c.1 c.2 :=
    place_congr hwidth hheight c.1 c.2
  rw [fetch_eq_texel? hdefined hlt,
    fetch_eq_texel? (by rw [hplace, hwidth, hheight]; exact hdefined)
      (by rw [hplace, hwidth]; exact hlt),
    hplace, hread _ (List.mem_map_of_mem hc)]

theorem Full.nearest (h : i.Full) (hfilter : sampler.filter = .nearest) :
    ∃ p, i.reads sampler s t = [p] ∧
      ∃ c ∈ i.texels, i.texel? p.1 p.2 = some c ∧ i.sampleWith sampler s t = .ok c := by
  let x := (s * Binary32.ofUInt64 i.width).floor.toInt64
  let y := (t * Binary32.ofUInt64 i.height).floor.toInt64
  obtain ⟨c, hc, hfetch⟩ := h.exists_fetch sampler x y
  refine ⟨i.place sampler x y, ?_, c, hc, ?_, ?_⟩
  · rw [reads, hfilter, coordinates_nearest, List.map_singleton]
  · rw [fetch_eq_texel? (h.index?_eq_place sampler x y) (h.place_lt sampler x y).1] at hfetch
    cases htexel : i.texel? (i.place sampler x y).1 (i.place sampler x y).2 with
    | none =>
      rw [htexel] at hfetch
      cases hfetch
    | some d =>
      rw [htexel] at hfetch
      cases hfetch
      rfl
  · rw [sampleWith, hfilter]
    exact hfetch

theorem Full.contained (h : i.Full) (sampler : Sampler) (s t : Binary32) :
    i.Contained sampler s t where
  inside := h.inside
  address c _ := h.address?_eq_position sampler c.1 c.2
  corners hfilter := by
    rw [hfilter]
    exact ⟨_, _, _, _, rfl, toInt_nextCoordinate _, toInt_nextCoordinate _⟩
  only _ hwidth hheight hread := h.only hwidth hheight hread
  sampled := h.exists_sampleWith sampler s t
  nearest := h.nearest

end Samples

/-! ## Images whose sides are too long -/

/-- If the last place of an image has a texel, the product of the sides is a word: the place has the
number before the product. -/
theorem Accepted.sidesFit_of_reads {i : Image} (h : i.Accepted)
    (hreads : ∀ s x y, ∃ position, i.address? s x y = some position) : i.SidesFit := by
  have hmax : Int64.maxValue.toInt = 2 ^ 63 - 1 := by decide
  obtain ⟨position, haddress⟩ :=
    hreads ⟨.clamped, .clamped, .nearest⟩ Int64.maxValue Int64.maxValue
  unfold address? at haddress
  rw [hmax] at haddress
  obtain ⟨px, hpx, haddress⟩ := Option.bind_eq_some_iff.1 haddress
  obtain ⟨py, hpy, haddress⟩ := Option.bind_eq_some_iff.1 haddress
  obtain ⟨hwidth, rfl⟩ := Wrap.stepwise?_clamped_last hpx
  obtain ⟨hheight, rfl⟩ := Wrap.stepwise?_clamped_last hpy
  dsimp only at haddress
  split at haddress
  case isFalse => cases haddress
  case isTrue hlt =>
    have hx : ((i.width.toNat : Int) - 1).toNat = i.width.toNat - 1 := by omega
    have hy : ((i.height.toNat : Int) - 1).toNat = i.height.toNat - 1 := by omega
    have hrows : i.width.toNat * i.height.toNat =
        (i.height.toNat - 1) * i.width.toNat + i.width.toNat := by
      rw [← Nat.succ_mul, Nat.mul_comm, Nat.succ_eq_add_one, Nat.sub_add_cancel (by omega)]
    have hmemory := h.memory
    rw [hx, hy] at hlt
    unfold SidesFit
    omega

/-- An image of one colour that is too wide: the product of its sides wraps to four. -/
def tooWide : Image := ⟨0x3333333333333334, 5, .replicate 4 ⟨.one, .one, .one, .one⟩, default⟩

theorem new_tooWide : new tooWide.width tooWide.height tooWide.texels tooWide.sampler =
    .ok tooWide := rfl

theorem accepted_tooWide : tooWide.Accepted := accepted_of_new new_tooWide (by decide)

end Image

/-! ## Textures -/

/-- The settings under which a face is sampled: its own filter, and no wrapping. -/
def CubeMap.faceSampler (c : CubeMap) (f : CubeFace) : Sampler :=
  ⟨.clamped, .clamped, (c.face f).sampler.filter⟩

namespace Texture

/-- All samples stay inside: those of an image, under its own settings and under others, and those
of a cube map, each of which is a sample of the face in its direction. -/
def Contained : Texture → Prop
  | flat i => ∀ s t, i.sample s t = i.sampleWith i.sampler s t ∧
      ∀ sampler, i.Contained sampler s t
  | cube c => ∀ x y z, ∃ f s t, CubeFace.select x y z = (f, s, t) ∧
      c.sample x y z = (c.face f).sampleWith (c.faceSampler f) s t ∧
        (c.face f).Contained (c.faceSampler f) s t

/-- Whatever the settings and the coordinates are, the words that lead to a texel are the integers
that they stand for, and there is a texel. -/
def ReadsInside (t : Texture) : Prop :=
  ∀ i ∈ t.images, ∀ (s : Sampler) (x y : Int64),
    i.address? s x y = some (i.position (i.place s x y).1 (i.place s x y).2).toNat

variable {t : Texture}

theorem Full.readsInside (h : t.Full) : t.ReadsInside := by
  intro i hi s x y
  exact (h i hi).address?_eq_position s x y

theorem Full.contained (h : t.Full) : t.Contained := by
  cases t with
  | flat i => exact fun s t => ⟨rfl, fun sampler => h.flat.contained sampler s t⟩
  | cube c => exact fun x y z => ⟨_, _, _, rfl, rfl, (h.face _).contained ..⟩

/-- The places of an accepted texture have texels exactly if its sides fit. -/
theorem Accepted.readsInside_iff (h : t.Accepted) : t.ReadsInside ↔ t.SidesFit := by
  refine ⟨fun hreads i hi => ?_, fun hfit => (h.full hfit).readsInside⟩
  exact (h.accepted_of_mem hi).sidesFit_of_reads fun s x y => ⟨_, hreads i hi s x y⟩

/-- Samples never leave an accepted texture whose sides fit. For all settings and all coordinates,
numbers or not, a sample succeeds; it reads only texels of the texture, at places and numbers that
no word overflows for; and the nearest filter gives one of the texels unchanged. The constructor
for given texels does not check the sides, and if they do not fit, some coordinates lead to no
texel. The samples of an image that was made of a function never leave it. -/
theorem samples_contained (t : Texture) (h : t.Accepted) :
    (t.SidesFit → t.Contained) ∧ (t.ReadsInside ↔ t.SidesFit) ∧
      ∀ width height sampler f i, Image.ofFunction width height sampler f = .ok i → t = .flat i →
        t.Contained := by
  refine ⟨fun hfit => (h.full hfit).contained, h.readsInside_iff, ?_⟩
  rintro width height sampler f i hmade rfl
  have hfit : (flat i).SidesFit := fun j hj =>
    List.mem_singleton.1 hj ▸ Image.sidesFit_of_ofFunction hmade
  exact (h.full hfit).contained

/-- A stripe of two colours, and a cube of one. -/
theorem samples_contained_stripe :
    let stripe : Image := ⟨2, 1, #[⟨0, 0, 0, 0⟩, ⟨.one, .one, .one, .one⟩], default⟩
    let side : Image := ⟨1, 1, #[default], ⟨.mirrored, .tiled, .linear⟩⟩
    (flat stripe).Contained ∧ (cube ⟨.replicate 6 side⟩).Contained := by
  intro stripe side
  have hstripe : Image.ofFunction 2 1 default (fun x _ => if x = 0 then ⟨0, 0, 0, 0⟩ else
      ⟨.one, .one, .one, .one⟩) = .ok stripe := rfl
  have hside : side.Accepted :=
    ⟨⟨1, 1, side.texels, side.sampler, rfl⟩, by decide⟩
  have hsides : ∀ i ∈ (Vector.replicate 6 side).toList, i = side := fun i hi => by
    rw [Vector.toList_replicate] at hi
    exact List.eq_of_mem_replicate hi
  have hcube : (cube ⟨.replicate 6 side⟩).Accepted :=
    ⟨.replicate 6 side, fun i hi => hsides i hi ▸ hside, rfl⟩
  constructor
  · exact (samples_contained (.flat stripe)
      (Image.accepted_of_ofFunction hstripe (by decide))).2.2 _ _ _ _ _ hstripe rfl
  · refine (samples_contained (.cube _) hcube).1 fun i hi => ?_
    rw [hsides i hi]
    exact (by decide : 1 * 1 < 2 ^ 64)

/-- An image is accepted with four texels whose sample at three quarters of both sides is out of
range. -/
theorem samples_leave_tooWide :
    Image.new 0x3333333333333334 5 (.replicate 4 ⟨.one, .one, .one, .one⟩) default = .ok .tooWide ∧
      (flat .tooWide).Accepted ∧
      Image.tooWide.sample ⟨0x3f400000⟩ ⟨0x3f400000⟩ = .error .outOfRange ∧
      ¬(flat .tooWide).Contained := by
  have hsample : Image.tooWide.sample ⟨0x3f400000⟩ ⟨0x3f400000⟩ = .error .outOfRange := by
    obtain ⟨_, hfails, hwhy⟩ := Outcome.exists_eq_error
      (x := Image.tooWide.sample ⟨0x3f400000⟩ ⟨0x3f400000⟩) (P := (· = .outOfRange))
      (by decide +kernel)
    rw [hfails, of_decide_eq_true hwhy]
  refine ⟨Image.new_tooWide, Image.accepted_tooWide, hsample, fun hcontained => ?_⟩
  obtain ⟨hown, hinside⟩ := hcontained ⟨0x3f400000⟩ ⟨0x3f400000⟩
  obtain ⟨c, hc⟩ := (hinside Image.tooWide.sampler).sampled
  rw [← hown, hsample] at hc
  cases hc

end Texture

end BatchShader
