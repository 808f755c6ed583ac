import BatchShader.Texture.Wrap
import Mathlib.Algebra.Group.Int.Defs
import Mathlib.Algebra.Group.Nat.Defs

/-
  Wrapping in words is wrapping of integers.

  `Wrap.denote` says on integers which texel a coordinate denotes: one of `0 ..< n` (`denote_nonneg`,
  `denote_lt`). For the sizes that a texture can have the words do the same (`toNat_apply`), and no
  step on the way leaves the range of a signed word or divides by zero (`stepwise?_eq_denote`,
  `index?_eq_some`).
-/

namespace BatchShader

/-! ## Signed words -/

/-- The integer itself, if a signed 64-bit word holds it. -/
def word? (z : Int) : Option Int := if -2 ^ 63 ≤ z ∧ z < 2 ^ 63 then some z else none

theorem word?_eq_self {z : Int} (h : -2 ^ 63 ≤ z) (h' : z < 2 ^ 63) : word? z = some z :=
  if_pos ⟨h, h'⟩

/-- A sum of words that a word holds is the sum of the integers. -/
theorem toInt_add_of_fits {a b : Int64} (h : -2 ^ 63 ≤ a.toInt + b.toInt)
    (h' : a.toInt + b.toInt < 2 ^ 63) : (a + b).toInt = a.toInt + b.toInt := by
  rw [Int64.toInt_add]
  exact Int.bmod_eq_of_le_mul_two (by omega) (by omega)

theorem toInt_sub_of_fits {a b : Int64} (h : -2 ^ 63 ≤ a.toInt - b.toInt)
    (h' : a.toInt - b.toInt < 2 ^ 63) : (a - b).toInt = a.toInt - b.toInt := by
  rw [Int64.toInt_sub]
  exact Int.bmod_eq_of_le_mul_two (by omega) (by omega)

theorem toInt_double_of_fits {a : Int64} (h : -2 ^ 63 ≤ 2 * a.toInt)
    (h' : 2 * a.toInt < 2 ^ 63) : (2 * a).toInt = 2 * a.toInt := by
  have htwo : (2 : Int64).toInt = 2 := by decide
  rw [Int64.toInt_mul, htwo]
  exact Int.bmod_eq_of_le_mul_two (by omega) (by omega)

/-- An unsigned word that is small enough, read as a signed one. -/
theorem toInt_toInt64 {x : UInt64} (h : x.toNat < 2 ^ 63) : x.toInt64.toInt = x.toNat := by
  refine BitVec.toInt_eq_toNat_of_lt ?_
  change 2 * x.toNat < 2 ^ 64
  omega

/-- A signed word that is not negative, read as an unsigned one. -/
theorem toNat_toUInt64 {x : Int64} (h : 0 ≤ x.toInt) : (x.toUInt64.toNat : Int) = x.toInt := by
  have hcond : x.toInt =
      if 2 * x.toUInt64.toNat < 2 ^ 64 then (x.toUInt64.toNat : Int)
      else (x.toUInt64.toNat : Int) - 2 ^ 64 := BitVec.toInt_eq_toNat_cond ..
  have hlt : x.toUInt64.toNat < 2 ^ 64 := x.toUInt64.toNat_lt
  split at hcond <;> omega

theorem abs_eq_self {n : Int64} (h : 0 < n.toInt) : n.abs = n := by
  have hmsb : n.toBitVec.msb = false := by
    rw [BitVec.msb_eq_toInt]
    exact decide_eq_false (Int.not_lt.2 (Int.le_of_lt h))
  have hbits : n.toBitVec.abs = n.toBitVec := by
    rw [BitVec.abs_eq, hmsb]
    rfl
  exact Int64.toBitVec_inj.1 hbits

namespace Wrap

/-! ## The texel that a coordinate denotes -/

/-- The texel among `n` that a coordinate denotes. -/
def denote (w : Wrap) (i n : Int) : Int :=
  match w with
  | tiled => i % n
  | clamped => if i < 0 then 0 else if n - 1 < i then n - 1 else i
  | mirrored =>
    let m := i % (2 * n)
    if m < n then m else 2 * n - 1 - m

variable {n : Int}

theorem denote_nonneg (w : Wrap) (hn : 0 < n) (i : Int) : 0 ≤ w.denote i n := by
  cases w with
  | tiled => exact Int.emod_nonneg i (by omega)
  | clamped =>
    unfold denote
    dsimp only
    split
    · omega
    · split <;> omega
  | mirrored =>
    have hlt := Int.emod_lt_of_pos i (show 0 < 2 * n by omega)
    have hnonneg := Int.emod_nonneg i (show 2 * n ≠ 0 by omega)
    unfold denote
    dsimp only
    split <;> omega

theorem denote_lt (w : Wrap) (hn : 0 < n) (i : Int) : w.denote i n < n := by
  cases w with
  | tiled => exact Int.emod_lt_of_pos i hn
  | clamped =>
    unfold denote
    dsimp only
    split
    · omega
    · split <;> omega
  | mirrored =>
    have hlt := Int.emod_lt_of_pos i (show 0 < 2 * n by omega)
    unfold denote
    dsimp only
    split <;> omega

/-! ## The steps of the computation -/

/-- The remainder of a division, which must not be by zero and whose quotient a word has to hold. -/
def remainder? (i n : Int) : Option Int := do
  if n = 0 then none
  let _ ← word? (i.tdiv n)
  word? (i % n)

/-- The steps of `apply` on integers, each result of which a word has to hold. -/
def stepwise? (w : Wrap) (i n : Int) : Option Int := do
  let n ← word? n
  match w with
  | tiled => remainder? i n
  | clamped => do
    let last ← word? (n - 1)
    if last < 0 then none
    else return if i < 0 then 0 else if last < i then last else i
  | mirrored => do
    let period ← word? (2 * n)
    let m ← remainder? i period
    if m < n then return m
    else do
      let last ← word? (period - 1)
      word? (last - m)

/-- The last coordinate of all is clamped to the last texel. -/
theorem stepwise?_clamped_last {p : Int} (h : clamped.stepwise? (2 ^ 63 - 1) n = some p) :
    0 < n ∧ p = n - 1 := by
  obtain ⟨n', hn, h⟩ := Option.bind_eq_some_iff.1 h
  obtain ⟨last, hlast, h⟩ := Option.bind_eq_some_iff.1 h
  unfold word? at hn hlast
  split at hn
  case isFalse => cases hn
  split at hlast
  case isFalse => cases hlast
  cases hn
  cases hlast
  split at h
  case isTrue => cases h
  rw [if_neg (by omega), if_pos (by omega)] at h
  cases h
  omega

/-- A quotient by a positive number is no further from zero. -/
theorem tdiv_bounds {i : Int} (hi : -2 ^ 63 ≤ i) (hi' : i < 2 ^ 63) (hn : 0 < n) :
    -2 ^ 63 ≤ i.tdiv n ∧ i.tdiv n < 2 ^ 63 := by
  have habs : (i.tdiv n).natAbs ≤ i.natAbs := by
    rw [Int.natAbs_tdiv]
    exact Nat.div_le_self ..
  have hsign : 0 ≤ i → 0 ≤ i.tdiv n := fun h => Int.tdiv_nonneg h (by omega)
  have hsign' : i < 0 → i.tdiv n ≤ 0 := fun h => by
    have := Int.tdiv_nonneg (show 0 ≤ -i by omega) (show 0 ≤ n by omega)
    rw [Int.neg_tdiv] at this
    omega
  omega

/-- A remainder by a positive word is a word. -/
theorem remainder?_eq_emod {i : Int} (hi : -2 ^ 63 ≤ i) (hi' : i < 2 ^ 63) (hn : 0 < n)
    (hn' : n < 2 ^ 63) : remainder? i n = some (i % n) := by
  obtain ⟨hquotient, hquotient'⟩ := tdiv_bounds hi hi' hn
  have hlt := Int.emod_lt_of_pos i hn
  have hnonneg := Int.emod_nonneg i (show n ≠ 0 by omega)
  rw [remainder?, if_neg (by omega), word?_eq_self hquotient hquotient',
    word?_eq_self (by omega) (by omega)]
  rfl

/-- For each size that a texture can have, all steps stay within words and lead to the texel that
the coordinate denotes. -/
theorem stepwise?_eq_denote (w : Wrap) {i : Int} (hi : -2 ^ 63 ≤ i) (hi' : i < 2 ^ 63) (hn : 0 < n)
    (hn' : n < 2 ^ 62) : w.stepwise? i n = some (w.denote i n) := by
  have hsize : word? n = some n := word?_eq_self (by omega) (by omega)
  rw [stepwise?, hsize, Option.bind_eq_bind, Option.bind_some]
  cases w with
  | tiled => exact remainder?_eq_emod hi hi' hn (by omega)
  | clamped =>
    have hlast : word? (n - 1) = some (n - 1) := word?_eq_self (by omega) (by omega)
    dsimp only
    rw [hlast, Option.bind_some, if_neg (by omega)]
    rfl
  | mirrored =>
    have hperiod : word? (2 * n) = some (2 * n) := word?_eq_self (by omega) (by omega)
    have hlast : word? (2 * n - 1) = some (2 * n - 1) := word?_eq_self (by omega) (by omega)
    have hlt := Int.emod_lt_of_pos i (show 0 < 2 * n by omega)
    have hnonneg := Int.emod_nonneg i (show 2 * n ≠ 0 by omega)
    have hmirrored : word? (2 * n - 1 - i % (2 * n)) = some (2 * n - 1 - i % (2 * n)) :=
      word?_eq_self (by omega) (by omega)
    dsimp only
    rw [hperiod, Option.bind_some, remainder?_eq_emod hi hi' (by omega) (by omega),
      Option.bind_some, hlast, Option.bind_some, hmirrored, denote]
    split <;> rfl

/-! ## Words -/

theorem toInt_euclideanRemainder {i n : Int64} (hn : 0 < n.toInt) :
    (euclideanRemainder i n).toInt = i.toInt % n.toInt := by
  have hmod : (i % n).toInt = i.toInt.tmod n.toInt := Int64.toInt_mod i n
  have hlt := Int.emod_lt_of_pos i.toInt hn
  have hnonneg := Int.emod_nonneg i.toInt (show n.toInt ≠ 0 by omega)
  have hn' := n.toInt_lt
  -- a remainder that has the sign of the dividend is the wanted one, or one size below it
  have hgap : i.toInt.tmod n.toInt = i.toInt % n.toInt ∨
      i.toInt.tmod n.toInt = i.toInt % n.toInt - n.toInt := by
    rw [Int.tmod_eq_emod]
    split
    · exact .inl (Int.sub_zero _)
    · exact .inr (by omega)
  have hneg : i % n < 0 ↔ i.toInt.tmod n.toInt < 0 := by
    rw [Int64.lt_iff_toInt_lt, hmod]
    rfl
  unfold euclideanRemainder
  dsimp only
  split
  · next h =>
    have h' := hneg.1 h
    rw [abs_eq_self hn, toInt_add_of_fits (by omega) (by omega)]
    omega
  · next h =>
    have h' : 0 ≤ i.toInt.tmod n.toInt := Int.not_lt.1 fun hlt => h (hneg.2 hlt)
    omega

/-- Wrapping in words gives the texel that the coordinate denotes. -/
theorem toNat_apply (w : Wrap) (i : Int64) {size : UInt64} (h : 0 < size.toNat)
    (h' : size.toNat < 2 ^ 62) : ((w.apply i size).toNat : Int) = w.denote i.toInt size.toNat := by
  have hn : size.toInt64.toInt = size.toNat := toInt_toInt64 (by omega)
  have hne : size ≠ 0 := by
    rintro rfl
    exact absurd h (by decide)
  have hpos : 0 < size.toInt64.toInt := by omega
  -- it is enough that the signed index is right, as it is not negative
  suffices hindex : ∀ index : Int64, index.toInt = w.denote i.toInt size.toNat →
      (index.toUInt64.toNat : Int) = w.denote i.toInt size.toNat by
    unfold apply
    dsimp only
    rw [if_neg hne]
    refine hindex _ ?_
    have hone : (1 : Int64).toInt = 1 := by decide
    have hlast : (size.toInt64 - 1).toInt = size.toNat - 1 := by
      rw [toInt_sub_of_fits (by omega) (by omega), hn, hone]
    cases w with
    | tiled =>
      rw [denote, ← hn]
      exact toInt_euclideanRemainder hpos
    | clamped =>
      have hzero : i < 0 ↔ i.toInt < 0 := Int64.lt_iff_toInt_lt
      have hover : size.toInt64 - 1 < i ↔ (size.toNat : Int) - 1 < i.toInt := by
        rw [Int64.lt_iff_toInt_lt, hlast]
      simp only [denote, hzero, hover]
      split
      · rfl
      · split
        · exact hlast
        · rfl
    | mirrored =>
      have hperiod : (2 * size.toInt64).toInt = 2 * size.toNat := by
        rw [toInt_double_of_fits (by omega) (by omega), hn]
      have hm : (euclideanRemainder i (2 * size.toInt64)).toInt = i.toInt % (2 * size.toNat) := by
        rw [toInt_euclideanRemainder (by omega), hperiod]
      have hlt := Int.emod_lt_of_pos i.toInt (show 0 < 2 * (size.toNat : Int) by omega)
      have hnonneg := Int.emod_nonneg i.toInt (show 2 * (size.toNat : Int) ≠ 0 by omega)
      have hunder : euclideanRemainder i (2 * size.toInt64) < size.toInt64 ↔
          i.toInt % (2 * size.toNat) < size.toNat := by
        rw [Int64.lt_iff_toInt_lt, hm, hn]
      simp only [denote, hunder]
      split
      · exact hm
      · have hend : (2 * size.toInt64 - 1).toInt = 2 * size.toNat - 1 := by
          rw [toInt_sub_of_fits (by omega) (by omega), hperiod, hone]
        rw [toInt_sub_of_fits (by omega) (by omega), hend, hm]
  intro index hindex
  have hnonneg := denote_nonneg w (show 0 < (size.toNat : Int) by omega) i.toInt
  rw [toNat_toUInt64 (by omega), hindex]

/-- There is a remainder by a positive number. -/
theorem hasRemainder_of_pos {i n : Int64} (h : 0 < n.toInt) : hasRemainder i n = true := by
  have hzero : n ≠ 0 := by
    rintro rfl
    exact absurd h (by decide)
  have hminus : n ≠ -1 := by
    rintro rfl
    exact absurd h (by decide)
  simp [hasRemainder, hzero, hminus]

/-- For the sizes that a texture can have each step has a result. -/
theorem index?_eq_some (w : Wrap) (i : Int64) {size : UInt64} (h : 0 < size.toNat)
    (h' : size.toNat < 2 ^ 62) : w.index? i size = some (w.apply i size) := by
  have hn : size.toInt64.toInt = size.toNat := toInt_toInt64 (by omega)
  have hne : size ≠ 0 := by
    rintro rfl
    exact absurd h (by decide)
  have hone : (1 : Int64).toInt = 1 := by decide
  have hdefined : w.isDefined i size = true := by
    unfold isDefined
    dsimp only
    rw [if_neg hne]
    cases w with
    | tiled => exact hasRemainder_of_pos (by omega)
    | clamped =>
      rw [decide_eq_true_iff, Int64.le_iff_toInt_le, toInt_sub_of_fits (by omega) (by omega), hone]
      have hzero : (0 : Int64).toInt = 0 := by decide
      omega
    | mirrored =>
      refine hasRemainder_of_pos ?_
      rw [toInt_double_of_fits (by omega) (by omega)]
      omega
  rw [index?, if_pos hdefined]

/-- A wrapped coordinate is a place of the texture. -/
theorem apply_lt (w : Wrap) (i : Int64) {size : UInt64} (h : 0 < size.toNat)
    (h' : size.toNat < 2 ^ 62) : (w.apply i size).toNat < size.toNat := by
  have hdenote := toNat_apply w i h h'
  have hlt := denote_lt w (show 0 < (size.toNat : Int) by omega) i.toInt
  omega

end Wrap

end BatchShader
