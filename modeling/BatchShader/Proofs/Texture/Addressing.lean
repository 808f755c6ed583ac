import BatchShader.Proofs.Texture.Reads

/-
  Images made from a function, and look-ups in them.

  Texels lie row after row, so the texel at position `p` is the one made for column `p % width` and
  row `p / width` (`Painted`). A look-up checks its column, but of its row only that the position is
  that of a texel, and positions are words. It answers as it should as long as its position does not
  overflow (`Painted.texel?_inside`, `Painted.texel?_above`).

  In every image of more than one column there are rows above it that overflow to a texel
  (`Painted.exists_overflow`); `missing_row_answered` is one. So all look-ups of an image are right
  if and only if it has one column (`addressed_of_ofFunction`).
-/

namespace BatchShader

/-- Rows of one length after each other: where the elements of a row are. -/
theorem getElem?_rows {α : Type} {row : Nat → List α} {n m x y : Nat}
    (hrow : ∀ y, (row y).length = n) (hx : x < n) (hy : y < m) :
    ((List.range m).flatMap row)[y * n + x]? = (row y)[x]? := by
  induction m with
  | zero => exact absurd hy (Nat.not_lt_zero y)
  | succ m ih =>
    have hlength := Image.length_rows hrow m
    rw [List.range_succ, List.flatMap_append, List.flatMap_singleton]
    by_cases hlast : y < m
    · have hle : (y + 1) * n ≤ m * n := Nat.mul_le_mul_right n hlast
      rw [Nat.succ_mul] at hle
      rw [List.getElem?_append_left (by omega), ih hlast]
    · obtain rfl : y = m := by omega
      rw [List.getElem?_append_right (by omega), hlength, Nat.add_sub_cancel_left]

/-- The first multiple of a number past a bound. -/
theorem exists_multiple_past {w bound : Nat} (hw : 1 < w) (hbound : w ≤ bound) :
    ∃ q < bound, bound ≤ q * w ∧ q * w < bound + w := by
  have hmod := Nat.mod_lt (bound + w - 1) (Nat.zero_lt_of_lt hw)
  have hdiv := Nat.div_add_mod' (bound + w - 1) w
  generalize (bound + w - 1) / w = q at hdiv
  refine ⟨q, Nat.not_le.1 fun hle => ?_, by omega, by omega⟩
  have htwo : bound * 2 ≤ q * w := Nat.mul_le_mul hle hw
  omega

namespace Image

variable {width height : UInt64} {sampler : Sampler} {f : UInt64 → UInt64 → Rgba} {i : Image}
  {x y : UInt64}

/-! ## Images made from a function -/

/-- The image has the texels that a function makes, row after row. -/
structure Painted (i : Image) (f : UInt64 → UInt64 → Rgba) : Prop where
  width_pos : 0 < i.width.toNat
  height_pos : 0 < i.height.toNat
  size_eq : i.texels.size = i.width.toNat * i.height.toNat
  size_lt : i.width.toNat * i.height.toNat < 2 ^ 64
  texel : ∀ p : UInt64, p.toNat < i.texels.size →
    i.texels[p.toNat]? = some (f (p % i.width) (p / i.width))

/-- The texels of row `y`. -/
def texelRow (width : UInt64) (f : UInt64 → UInt64 → Rgba) (y : Nat) : List Rgba :=
  (List.range width.toNat).map fun x => f (UInt64.ofNat x) (UInt64.ofNat y)

theorem length_texelRow (width : UInt64) (f : UInt64 → UInt64 → Rgba) (y : Nat) :
    (texelRow width f y).length = width.toNat := by
  rw [texelRow, List.length_map, List.length_range]

theorem ofFunction_eq_new (width height : UInt64) (sampler : Sampler)
    (f : UInt64 → UInt64 → Rgba) : ofFunction width height sampler f =
      new width height ((List.range height.toNat).flatMap (texelRow width f)).toArray sampler :=
  rfl

/-- The texel at a position is in the row of the quotient by the width. -/
theorem getElem?_texelRows (hwidth : 0 < width.toNat) {p : UInt64}
    (hp : p.toNat < height.toNat * width.toNat) :
    ((List.range height.toNat).flatMap (texelRow width f))[p.toNat]? =
      some (f (p % width) (p / width)) := by
  have hx := Nat.mod_lt p.toNat hwidth
  have hy : p.toNat / width.toNat < height.toNat := (Nat.div_lt_iff_lt_mul hwidth).2 hp
  have hget := getElem?_rows (length_texelRow width f) hx hy
  rw [Nat.div_add_mod', texelRow, List.getElem?_map, List.getElem?_range hx] at hget
  rw [hget, Option.map_some, ← UInt64.toNat_mod, ← UInt64.toNat_div, UInt64.ofNat_toNat,
    UInt64.ofNat_toNat]

/-- The image that is made, if it has a place and its size is a word. -/
theorem exists_ofFunction (sampler : Sampler) (f : UInt64 → UInt64 → Rgba)
    (hpos : 0 < width.toNat * height.toNat) (hfits : width.toNat * height.toNat < 2 ^ 64) :
    ∃ i, ofFunction width height sampler f = .ok i ∧ i.width = width ∧ i.height = height ∧
      i.Painted f := by
  have hwidth := Nat.pos_of_mul_pos_right hpos
  have hproduct := toNat_mul_of_fits hfits
  have hsize : ((List.range height.toNat).flatMap (texelRow width f)).toArray.size =
      width.toNat * height.toNat := by
    rw [List.size_toArray, length_rows (length_texelRow width f), Nat.mul_comm]
  have hnonzero : width * height ≠ 0 := fun hzero => by
    rw [hzero] at hproduct
    exact absurd hproduct (Nat.ne_of_lt hpos)
  rw [ofFunction_eq_new]
  refine ⟨_, new_eq_ok.2 ⟨hnonzero, hsize.trans hproduct.symm, rfl⟩, rfl, rfl, hwidth,
    Nat.pos_of_mul_pos_left hpos, hsize, hfits, fun p hp => ?_⟩
  rw [List.getElem?_toArray]
  exact getElem?_texelRows hwidth (by rwa [hsize, Nat.mul_comm] at hp)

/-! ## Look-ups -/

/-- A look-up answers with the texel whose position it computes. -/
theorem Painted.texel?_eq (h : i.Painted f) (hx : x < i.width) (y : UInt64) :
    i.texel? x y = if (i.position x y).toNat < i.texels.size then
      some (f (i.position x y % i.width) (i.position x y / i.width)) else none := by
  rw [texel?, if_neg (UInt64.not_le.2 hx)]
  split
  · next hlt => exact h.texel _ hlt
  · next hge => exact Array.getElem?_eq_none (Nat.not_lt.1 hge)

/-- Positions of places of the image do not overflow. -/
theorem row_fits (hx : x < i.width) (hy : y < i.height) :
    y.toNat * i.width.toNat + x.toNat < i.width.toNat * i.height.toNat := by
  rw [UInt64.lt_iff_toNat_lt] at hx hy
  have hle : (y.toNat + 1) * i.width.toNat ≤ i.height.toNat * i.width.toNat :=
    Nat.mul_le_mul_right _ hy
  rw [Nat.succ_mul, Nat.mul_comm i.height.toNat] at hle
  omega

theorem Painted.texel?_inside (h : i.Painted f) (hx : x < i.width) (hy : y < i.height) :
    i.texel? x y = some (f x y) := by
  have hfits := row_fits hx hy
  have hposition := toNat_position (Nat.lt_trans hfits h.size_lt)
  have hx' : x.toNat < i.width.toNat := UInt64.lt_iff_toNat_lt.1 hx
  rw [h.texel?_eq hx, if_pos (by rw [hposition, h.size_eq]; exact hfits)]
  refine congrArg some (congrArg₂ f ?_ ?_) <;> refine UInt64.toNat_inj.1 ?_
  · rw [UInt64.toNat_mod, hposition, Nat.mul_add_mod_self_right, Nat.mod_eq_of_lt hx']
  · rw [UInt64.toNat_div, hposition, Nat.add_comm, Nat.add_mul_div_right _ _ h.width_pos,
      Nat.div_eq_of_lt hx', Nat.zero_add]

theorem texel?_beside (i : Image) (hx : i.width ≤ x) (y : UInt64) : i.texel? x y = none :=
  if_pos hx

/-- Above the image there is no texel, if the position does not overflow. -/
theorem Painted.texel?_above (h : i.Painted f) (hy : i.height ≤ y)
    (hfits : y.toNat * i.width.toNat + x.toNat < 2 ^ 64) : i.texel? x y = none := by
  by_cases hx : x < i.width
  · have hle : i.height.toNat * i.width.toNat ≤ y.toNat * i.width.toNat :=
      Nat.mul_le_mul_right _ (UInt64.le_iff_toNat_le.1 hy)
    rw [Nat.mul_comm i.height.toNat] at hle
    rw [h.texel?_eq hx, if_neg (by rw [toNat_position hfits, h.size_eq]; omega)]
  · exact texel?_beside i (UInt64.not_lt.1 hx) y

/-- In an image of more than one column there are rows above it whose first position overflows to
one in the first row. -/
theorem Painted.exists_overflow (h : i.Painted f) (hwidth : 1 < i.width.toNat) :
    ∃ y, i.height ≤ y ∧ (i.position 0 y).toNat < i.texels.size := by
  obtain ⟨q, hq, hge, hlt⟩ := exists_multiple_past hwidth (Nat.le_of_lt i.width.toNat_lt)
  have hy : (UInt64.ofNat q).toNat = q := UInt64.toNat_ofNat_of_lt' hq
  have hposition : (i.position 0 (UInt64.ofNat q)).toNat = q * i.width.toNat - 2 ^ 64 := by
    rw [position, UInt64.add_zero, UInt64.toNat_mul, hy, Nat.mod_eq_sub_mod hge,
      Nat.mod_eq_of_lt (by have := i.width.toNat_lt; omega)]
  have hrow := Nat.le_mul_of_pos_right i.width.toNat h.height_pos
  refine ⟨UInt64.ofNat q, UInt64.le_iff_toNat_le.2 (Nat.not_lt.1 fun habove => ?_), ?_⟩
  · rw [hy] at habove
    have hle := Nat.mul_le_mul_right i.width.toNat (Nat.le_of_lt habove)
    rw [Nat.mul_comm i.height.toNat] at hle
    have hsize := h.size_lt
    omega
  · rw [hposition, h.size_eq]
    omega

/-! ## Addressing -/

/-- What a look-up should answer: the texel that was made for a place of the image, and no texel
anywhere else. -/
def madeAt (i : Image) (f : UInt64 → UInt64 → Rgba) (x y : UInt64) : Option Rgba :=
  if x < i.width ∧ y < i.height then some (f x y) else none

/-- What look-ups in an image made from a function answer. -/
structure Addressed (i : Image) (f : UInt64 → UInt64 → Rgba) : Prop where
  /-- The texels are where they should be, and no sum or product on the way overflows. -/
  inside : ∀ x y, x < i.width → y < i.height →
    y.toNat * i.width.toNat + x.toNat < 2 ^ 64 ∧ i.texel? x y = some (f x y)
  beside : ∀ x y, i.width ≤ x → i.texel? x y = none
  above : ∀ x y, i.height ≤ y → y.toNat * i.width.toNat + x.toNat < 2 ^ 64 →
    i.texel? x y = none
  /-- A row that is so far above the image that its positions overflow is answered with what is at
  the overflown position. -/
  overflowing : ∀ x y, x < i.width → 2 ^ 64 ≤ y.toNat * i.width.toNat + x.toNat →
    i.texel? x y = if i.position x y < i.width * i.height then
      some (f (i.position x y % i.width) (i.position x y / i.width)) else none
  /-- All look-ups are right if there is one column, and in no other image. -/
  right_iff : (∀ x y, i.texel? x y = i.madeAt f x y) ↔ i.width = 1

theorem Painted.texel?_of_one_column (h : i.Painted f) (hwidth : i.width = 1) (x y : UInt64) :
    i.texel? x y = i.madeAt f x y := by
  unfold madeAt
  by_cases hx : x < i.width
  · by_cases hy : y < i.height
    · rw [if_pos ⟨hx, hy⟩, h.texel?_inside hx hy]
    · have hx' := UInt64.lt_iff_toNat_lt.1 hx
      have hone : i.width.toNat = 1 := congrArg UInt64.toNat hwidth
      have hfits : y.toNat * i.width.toNat + x.toNat < 2 ^ 64 := by
        have := y.toNat_lt
        rw [hone, Nat.mul_one]
        omega
      rw [if_neg fun h => hy h.2, h.texel?_above (UInt64.not_lt.1 hy) hfits]
  · rw [if_neg fun h => hx h.1, texel?_beside i (UInt64.not_lt.1 hx)]

theorem Painted.width_of_right (h : i.Painted f)
    (hright : ∀ x y, i.texel? x y = i.madeAt f x y) : i.width = 1 := by
  have hpos := h.width_pos
  refine UInt64.toNat_inj.1 (Nat.le_antisymm (Nat.not_lt.1 fun hwidth => ?_) hpos)
  obtain ⟨y, hy, hlt⟩ := h.exists_overflow hwidth
  have hcolumn : 0 < i.width := UInt64.lt_iff_toNat_lt.2 hpos
  have hanswer := hright 0 y
  rw [h.texel?_eq hcolumn, if_pos hlt, madeAt,
    if_neg fun h => UInt64.not_lt.2 hy h.2] at hanswer
  cases hanswer

theorem Painted.addressed (h : i.Painted f) : i.Addressed f where
  inside _ _ hx hy := ⟨Nat.lt_trans (row_fits hx hy) h.size_lt, h.texel?_inside hx hy⟩
  beside _ y hx := texel?_beside i hx y
  above _ _ hy hfits := h.texel?_above hy hfits
  overflowing x y hx _ := by
    have hproduct : (i.width * i.height).toNat = i.texels.size :=
      (toNat_mul_of_fits h.size_lt).trans h.size_eq.symm
    rw [h.texel?_eq hx]
    simp only [UInt64.lt_iff_toNat_lt, hproduct]
  right_iff := ⟨h.width_of_right, h.texel?_of_one_column⟩

/-- An image is made for all sides whose product is positive and a word. Each of its texels is found
at its place. Beside the image there are none, and above it there are none as long as positions do
not overflow; at an overflow a look-up above the image may find one, and in every image of more than
one column some do. -/
theorem addressed_of_ofFunction (width height : UInt64) (sampler : Sampler)
    (f : UInt64 → UInt64 → Rgba) (hpos : 0 < width.toNat * height.toNat)
    (hfits : width.toNat * height.toNat < 2 ^ 64) :
    ∃ i, ofFunction width height sampler f = .ok i ∧ i.width = width ∧ i.height = height ∧
      i.Addressed f := by
  obtain ⟨i, hi, hwidth, hheight, hpainted⟩ := exists_ofFunction sampler f hpos hfits
  exact ⟨i, hi, hwidth, hheight, hpainted.addressed⟩

/-- A colour for each place: its column, its row, their product, and one. -/
def ramp (x y : UInt64) : Rgba := ⟨.ofUInt64 x, .ofUInt64 y, .ofUInt64 (x * y), .one⟩

/-- Row `2 ^ 63` of an image of two texels starts at position `2 ^ 64`, which overflows to 0. -/
theorem missing_row_answered :
    let i : Image := ⟨2, 1, #[ramp 0 0, ramp 1 0], default⟩
    ofFunction 2 1 default ramp = .ok i ∧ i.texel? 0 0x8000000000000000 = some (ramp 0 0) ∧
      i.madeAt ramp 0 0x8000000000000000 = none :=
  ⟨rfl, rfl, rfl⟩

theorem addressed_of_ofFunction_ramp :
    0 < (3 : UInt64).toNat * (2 : UInt64).toNat ∧
      (3 : UInt64).toNat * (2 : UInt64).toNat < 2 ^ 64 ∧
      ∃ i, ofFunction 3 2 default ramp = .ok i ∧ i.width = 3 ∧ i.height = 2 ∧ i.Addressed ramp :=
  ⟨by decide, by decide, addressed_of_ofFunction 3 2 default ramp (by decide) (by decide)⟩

end Image

end BatchShader
