import BatchShader.Proofs.InRange
import BatchShader.Proofs.Texture.Wrap
import BatchShader.Texture.Units

/-
  Samples stay inside textures that are full.

  `Image.Accepted`: an image that a constructor gave, out of memory that exists. The constructor for
  given texels compares their number with the product of the sides as a word, so it also accepts an
  image whose sides are too long for a word (`SidesFit`) and which has a texel for few of its places
  only. An accepted image whose sides fit is `Full`, with a texel for each place (`Accepted.full`).
  Whatever coordinates and settings a sample of a full image is taken with, each place that it reads
  is one of the image's (`exists_fetch`), so that it has a colour (`exists_sampleWith`); and the
  64-bit arithmetic on the way is that of the integers (`address?_eq_position`).
-/

namespace BatchShader

/-- A product of words that a word holds is the product of the integers. -/
theorem toNat_mul_of_fits {a b : UInt64} (h : a.toNat * b.toNat < 2 ^ 64) :
    (a * b).toNat = a.toNat * b.toNat := by
  rw [UInt64.toNat_mul, Nat.mod_eq_of_lt h]

/-! ## Accepted images -/

namespace Image

/-- An image that a host gets from a constructor, out of memory that exists. The other constructor,
`ofFunction`, is a use of `new`. -/
structure Accepted (i : Image) : Prop where
  built : ∃ width height texels sampler, new width height texels sampler = .ok i
  /-- A texel takes sixteen bytes. -/
  memory : 16 * i.texels.size < 2 ^ 63

/-- The product of the sides is a word. `new` does not check this: it computes the product in words,
where it may wrap. -/
def SidesFit (i : Image) : Prop := i.width.toNat * i.height.toNat < 2 ^ 64

/-- There is a texel for each place, at least one, and not too many. -/
structure Full (i : Image) : Prop where
  width_pos : 0 < i.width.toNat
  height_pos : 0 < i.height.toNat
  size_eq : i.width.toNat * i.height.toNat = i.texels.size
  size_lt : i.texels.size < 2 ^ 59

/-- An image is accepted with sides whose product, as a word, is the number of texels. -/
theorem new_eq_ok {width height : UInt64} {texels : Array Rgba} {sampler : Sampler} {i : Image} :
    new width height texels sampler = .ok i ↔
      width * height ≠ 0 ∧ texels.size = (width * height).toNat ∧
        i = ⟨width, height, texels, sampler⟩ := by
  unfold new
  dsimp only
  split
  · next h =>
    refine ⟨fun h => (by cases h), ?_⟩
    rintro ⟨hpositive, hsize, -⟩
    exact absurd h (not_or.2 ⟨hpositive, fun h => h hsize⟩)
  · next h =>
    obtain ⟨hpositive, hsize⟩ := not_or.1 h
    rw [Except.ok.injEq, eq_comm]
    exact ⟨fun h => ⟨hpositive, Decidable.not_not.1 hsize, h⟩, fun h => h.2.2⟩

theorem accepted_of_new {width height : UInt64} {texels : Array Rgba} {sampler : Sampler}
    {i : Image} (h : new width height texels sampler = .ok i)
    (hmemory : 16 * texels.size < 2 ^ 63) :
    i.Accepted := by
  refine ⟨⟨width, height, texels, sampler, h⟩, ?_⟩
  obtain ⟨-, -, rfl⟩ := new_eq_ok.1 h
  exact hmemory

/-- An accepted image has a texel for each place if the product of its sides is a word. -/
theorem Accepted.full {i : Image} (h : i.Accepted) (hfit : i.SidesFit) : i.Full := by
  obtain ⟨⟨width, height, texels, sampler, hnew⟩, hmemory⟩ := h
  obtain ⟨hpositive, hsize, rfl⟩ := new_eq_ok.1 hnew
  have hproduct : (width * height).toNat = width.toNat * height.toNat := toNat_mul_of_fits hfit
  have hpos : 0 < width.toNat * height.toNat := by
    rw [← hproduct]
    exact Nat.pos_of_ne_zero fun hzero => hpositive (UInt64.toNat_inj.1 hzero)
  have hsmall : texels.size < 2 ^ 59 := by
    change 16 * texels.size < 2 ^ 63 at hmemory
    omega
  rw [hproduct] at hsize
  exact ⟨Nat.pos_of_mul_pos_right hpos, Nat.pos_of_mul_pos_left hpos, hsize.symm, hsmall⟩

theorem Full.width_lt {i : Image} (h : i.Full) : i.width.toNat < 2 ^ 59 := by
  have hle := Nat.le_mul_of_pos_right i.width.toNat h.height_pos
  have := h.size_eq
  have := h.size_lt
  omega

theorem Full.height_lt {i : Image} (h : i.Full) : i.height.toNat < 2 ^ 59 := by
  have hle := Nat.le_mul_of_pos_left i.height.toNat h.width_pos
  have := h.size_eq
  have := h.size_lt
  omega

/-! ## Places -/

/-- The number of the texel at wrapped coordinates, worked out on integers: each signed step fits a
signed word, the number an unsigned one, and there is a texel with the number. -/
def address? (i : Image) (s : Sampler) (x y : Int64) : Option Nat := do
  let px ← s.wrapS.stepwise? x.toInt i.width.toNat
  let py ← s.wrapT.stepwise? y.toInt i.height.toNat
  let row := py.toNat * i.width.toNat
  let position := row + px.toNat
  if position < 2 ^ 64 ∧ position < i.texels.size then some position else none

/-- A position that a word holds is that of the integers. -/
theorem toNat_position {i : Image} {x y : UInt64}
    (h : y.toNat * i.width.toNat + x.toNat < 2 ^ 64) :
    (i.position x y).toNat = y.toNat * i.width.toNat + x.toNat := by
  rw [position, UInt64.toNat_add, toNat_mul_of_fits (by omega), Nat.mod_eq_of_lt h]

/-- The place that wrapped coordinates denote is a place of the image. -/
theorem Full.place_lt {i : Image} (h : i.Full) (s : Sampler) (x y : Int64) :
    (i.place s x y).1.toNat < i.width.toNat ∧ (i.place s x y).2.toNat < i.height.toNat := by
  have hwidth := h.width_lt
  have hheight := h.height_lt
  exact ⟨s.wrapS.apply_lt x h.width_pos (by omega), s.wrapT.apply_lt y h.height_pos (by omega)⟩

/-- The position of a place of the image: no word overflows, and there is a texel. -/
theorem Full.position_lt {i : Image} (h : i.Full) {x y : UInt64} (hx : x.toNat < i.width.toNat)
    (hy : y.toNat < i.height.toNat) :
    (i.position x y).toNat = y.toNat * i.width.toNat + x.toNat ∧
      (i.position x y).toNat < i.texels.size := by
  have hrow : y.toNat * i.width.toNat + i.width.toNat ≤ i.texels.size := by
    rw [← h.size_eq, Nat.mul_comm i.width.toNat, ← Nat.succ_mul]
    exact Nat.mul_le_mul_right _ hy
  have hsize := h.size_lt
  have hposition : (i.position x y).toNat = y.toNat * i.width.toNat + x.toNat :=
    toNat_position (by omega)
  omega

/-- The words that a fetch computes are the integers that they stand for. -/
theorem Full.address?_eq_position {i : Image} (h : i.Full) (s : Sampler) (x y : Int64) :
    i.address? s x y = some (i.position (i.place s x y).1 (i.place s x y).2).toNat := by
  have hwidth := h.width_lt
  have hheight := h.height_lt
  have hwpos := h.width_pos
  have hhpos := h.height_pos
  have hsize := h.size_lt
  have hx : (s.wrapS.apply x i.width).toNat < i.width.toNat := (h.place_lt s x y).1
  have hy : (s.wrapT.apply y i.height).toNat < i.height.toNat := (h.place_lt s x y).2
  obtain ⟨hposition, hlt⟩ := h.position_lt hx hy
  have hpx := s.wrapS.toNat_apply x hwpos (by omega)
  have hpy := s.wrapT.toNat_apply y hhpos (by omega)
  rw [address?, Wrap.stepwise?_eq_denote s.wrapS x.le_toInt x.toInt_lt (by omega) (by omega),
    Wrap.stepwise?_eq_denote s.wrapT y.le_toInt y.toInt_lt (by omega) (by omega), ← hpx, ← hpy]
  simp only [Option.bind_eq_bind, Option.bind_some, Int.toNat_natCast]
  rw [if_pos ⟨by omega, by omega⟩, ← hposition]
  rfl

/-- A fetch reads at the place that its coordinates denote, if each step to it has a result. -/
theorem fetch_eq {i : Image} {s : Sampler} {x y : Int64}
    (hx : s.wrapS.index? x i.width = some (i.place s x y).1)
    (hy : s.wrapT.index? y i.height = some (i.place s x y).2) :
    i.fetch s x y =
      Outcome.require i.texels[(i.position (i.place s x y).1 (i.place s x y).2).toNat]? := by
  rw [fetch, hx, hy]
  rfl

/-- In a full image each step to a place has a result. -/
theorem Full.index?_eq_place {i : Image} (h : i.Full) (s : Sampler) (x y : Int64) :
    s.wrapS.index? x i.width = some (i.place s x y).1 ∧
      s.wrapT.index? y i.height = some (i.place s x y).2 := by
  have hwidth := h.width_lt
  have hheight := h.height_lt
  exact ⟨s.wrapS.index?_eq_some x h.width_pos (by omega),
    s.wrapT.index?_eq_some y h.height_pos (by omega)⟩

/-! ## Samples -/

theorem Full.exists_fetch {i : Image} (h : i.Full) (s : Sampler) (x y : Int64) :
    ∃ c ∈ i.texels, i.fetch s x y = .ok c := by
  obtain ⟨hx, hy⟩ := h.place_lt s x y
  obtain ⟨-, hlt⟩ := h.position_lt hx hy
  refine ⟨_, Array.getElem_mem hlt, ?_⟩
  obtain ⟨hpx, hpy⟩ := h.index?_eq_place s x y
  rw [fetch_eq hpx hpy, Array.getElem?_eq_getElem hlt]
  rfl

/-- A sample has a colour, whatever the coordinates are. -/
theorem Full.exists_sampleWith {i : Image} (h : i.Full) (s : Sampler) (x y : Binary32) :
    ∃ c, i.sampleWith s x y = .ok c := by
  unfold sampleWith
  split
  · obtain ⟨c, -, hc⟩ := h.exists_fetch s (x * Binary32.ofUInt64 i.width).floor.toInt64
      (y * Binary32.ofUInt64 i.height).floor.toInt64
    exact ⟨c, hc⟩
  · refine (Outcome.exists_foldlM (P := fun _ : Rgba => True) ?_ trivial).imp fun c hc => hc.1
    intro place _ acc _
    obtain ⟨c, -, hc⟩ := h.exists_fetch s place.2.1 place.2.2
    exact ⟨_, Outcome.bind_eq_ok.2 ⟨c, hc, rfl⟩, trivial⟩

/-- A fetch has nothing to report, and nor has a sample. -/
theorem quiet_fetch (i : Image) (s : Sampler) (x y : Int64) : (i.fetch s x y).Quiet := by
  unfold fetch
  refine (Outcome.quiet_require _).bind fun px => ?_
  exact (Outcome.quiet_require _).bind fun py => Outcome.quiet_require _

theorem quiet_sampleWith (i : Image) (s : Sampler) (x y : Binary32) :
    (i.sampleWith s x y).Quiet := by
  unfold sampleWith
  split
  · exact i.quiet_fetch s _ _
  · refine Outcome.quiet_foldlM (fun place _ acc => ?_) _
    exact (i.quiet_fetch s _ _).bind fun c => Outcome.quiet_ok _

end Image

/-! ## Textures and units -/

/-- A cube map that its constructor gave, of faces that theirs gave. -/
def CubeMap.Accepted (c : CubeMap) : Prop :=
  ∃ faces, (∀ i ∈ faces.toList, i.Accepted) ∧ new faces = .ok c

/-- A cube map has the faces that it was made of. -/
theorem CubeMap.faces_of_new {faces : Vector Image 6} {c : CubeMap} (h : new faces = .ok c) :
    c.faces = faces := by
  unfold new at h
  dsimp only at h
  split at h
  · cases h
  · rw [← Except.ok.inj h]

namespace Texture

/-- The images that samples of a texture read. -/
def images : Texture → List Image
  | flat image => [image]
  | cube map => map.faces.toList

/-- The sampler type through which a texture is looked up. -/
def samplerType : Texture → ShaderType
  | flat _ => .sampler2D
  | cube _ => .samplerCube

/-- A texture that a host gets from constructors. -/
def Accepted : Texture → Prop
  | flat image => image.Accepted
  | cube map => map.Accepted

/-- The sides of no image of a texture are too long. -/
def SidesFit (t : Texture) : Prop := ∀ i ∈ t.images, i.SidesFit

/-- Each image of a texture has a texel for each place. -/
def Full (t : Texture) : Prop := ∀ i ∈ t.images, i.Full

variable {t : Texture}

theorem Accepted.accepted_of_mem (h : t.Accepted) {i : Image} (hi : i ∈ t.images) :
    i.Accepted := by
  cases t with
  | flat image =>
    rw [List.mem_singleton.1 hi]
    exact h
  | cube map =>
    obtain ⟨faces, hfaces, hnew⟩ := h
    rw [images, CubeMap.faces_of_new hnew] at hi
    exact hfaces i hi

theorem Accepted.full (h : t.Accepted) (hfit : t.SidesFit) : t.Full := fun i hi =>
  (h.accepted_of_mem hi).full (hfit i hi)

theorem Full.flat {i : Image} (h : (Texture.flat i).Full) : i.Full := h i List.mem_cons_self

theorem Full.face {c : CubeMap} (h : (Texture.cube c).Full) (f : CubeFace) : (c.face f).Full :=
  h _ (Vector.mem_toList_iff.2 (Vector.getElem_mem f.index.isLt))

end Texture

namespace TextureUnits

/-- All bound textures come from constructors. -/
def Accepted (u : TextureUnits) : Prop := ∀ unit t, u.get? unit = some t → t.Accepted

/-- The sides of no bound texture are too long. -/
def SidesFit (u : TextureUnits) : Prop := ∀ unit t, u.get? unit = some t → t.SidesFit

/-- All bound textures have a texel for each place. -/
def Full (u : TextureUnits) : Prop := ∀ unit t, u.get? unit = some t → t.Full

/-- What holds of all bound textures holds after another one has been bound, if it holds of this
one. -/
theorem forall_bind {P : Texture → Prop} {u : TextureUnits}
    (hu : ∀ unit t, u.get? unit = some t → P t) {unit : Int32} {t : Texture} (ht : P t) :
    ∀ other t', (u.bind unit t).get? other = some t' → P t' := by
  intro other t' h
  rw [get?_bind] at h
  split at h
  · exact Option.some.inj h ▸ ht
  · exact hu other t' h

theorem forall_empty {P : Texture → Prop} : ∀ unit t, empty.get? unit = some t → P t := by
  intro unit t h
  cases h

theorem Accepted.full {u : TextureUnits} (h : u.Accepted) (hfit : u.SidesFit) : u.Full :=
  fun unit t ht => (h unit t ht).full (hfit unit t ht)

end TextureUnits

end BatchShader
