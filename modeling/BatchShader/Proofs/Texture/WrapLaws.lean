import BatchShader.Proofs.Texture.Wrap

/-
  The laws of the wrap modes.

  On integers: each mode leaves `0 ..< n` as it is; a tiled texture repeats itself every `n`
  coordinates; a mirrored one does so every `2 * n`, and `i` and `-1 - i` denote the same texel;
  a clamped one keeps the order and has its edges outside. In words the same holds wherever the
  shifted coordinate is a word, for all sizes that a texture can have (`lawful_of_fits`).
-/

namespace BatchShader.Wrap

/-! ## Integers -/

section Integers

variable {n i j : Int}

/-- A coordinate of the texture denotes itself. -/
theorem denote_eq_self (w : Wrap) (hi : 0 ≤ i) (hi' : i < n) : w.denote i n = i := by
  cases w with
  | tiled => exact Int.emod_eq_of_lt hi hi'
  | clamped =>
    unfold denote
    dsimp only
    rw [if_neg (by omega), if_neg (by omega)]
  | mirrored =>
    have hmod : i % (2 * n) = i := Int.emod_eq_of_lt hi (by omega)
    unfold denote
    dsimp only
    rw [hmod, if_pos hi']

theorem denote_denote (w : Wrap) (hn : 0 < n) (i : Int) :
    w.denote (w.denote i n) n = w.denote i n :=
  denote_eq_self w (denote_nonneg w hn i) (denote_lt w hn i)

theorem denote_tiled_add (i n k : Int) : tiled.denote (i + k * n) n = tiled.denote i n :=
  Int.add_mul_emod_self_right i k n

theorem denote_mirrored_add (i n k : Int) :
    mirrored.denote (i + k * (2 * n)) n = mirrored.denote i n := by
  unfold denote
  dsimp only
  rw [Int.add_mul_emod_self_right]

/-- The reflection at the border between `-1` and `0` turns the remainders around. -/
theorem emod_reflect (hn : 0 < n) (i : Int) : (-1 - i) % n = n - 1 - i % n := by
  have hlt := Int.emod_lt_of_pos i hn
  have hnonneg := Int.emod_nonneg i (show n ≠ 0 by omega)
  have hdiv := Int.mul_ediv_add_emod i n
  have hsplit : -1 - i = n - 1 - i % n + (-(i / n) - 1) * n := by
    rw [Int.sub_mul, Int.neg_mul, Int.mul_comm (i / n) n, Int.one_mul]
    omega
  rw [hsplit, Int.add_mul_emod_self_right, Int.emod_eq_of_lt (by omega) (by omega)]

theorem denote_mirrored_reflect (hn : 0 < n) (i : Int) :
    mirrored.denote (-1 - i) n = mirrored.denote i n := by
  have hmod := emod_reflect (show 0 < 2 * n by omega) i
  unfold denote
  dsimp only
  rw [hmod]
  -- of a remainder and its reflection, one is in the lower half
  split <;> split <;> omega

example : [-4, -3, -2, -1, 0, 1, 2, 3, 4, 5, 6, 7].map (mirrored.denote · 4) =
    [3, 2, 1, 0, 0, 1, 2, 3, 3, 2, 1, 0] := by decide

theorem denote_clamped_of_neg (hi : i < 0) : clamped.denote i n = 0 := if_pos hi

theorem denote_clamped_of_le (hn : 0 < n) (hi : n ≤ i) : clamped.denote i n = n - 1 := by
  unfold denote
  dsimp only
  rw [if_neg (by omega), if_pos (by omega)]

theorem denote_clamped_mono (hn : 0 < n) (h : i ≤ j) :
    clamped.denote i n ≤ clamped.denote j n := by
  have hj := denote_nonneg clamped hn j
  have hi := denote_lt clamped hn i
  by_cases hneg : i < 0
  · rwa [denote_clamped_of_neg hneg]
  · by_cases hlast : n ≤ j
    · rw [denote_clamped_of_le hn hlast]
      omega
    · rwa [denote_eq_self clamped (by omega) (by omega),
        denote_eq_self clamped (by omega) (by omega)]

end Integers

/-! ## Words -/

theorem toInt_reflect (i : Int64) : (-1 - i).toInt = -1 - i.toInt := by
  have hminus : (-1 : Int64).toInt = -1 := by decide
  have hlt := i.toInt_lt
  have hle := i.le_toInt
  rw [toInt_sub_of_fits (by omega) (by omega), hminus]

section Words

variable {w : Wrap} {i j : Int64} {size : UInt64} (h : 0 < size.toNat)
  (h' : size.toNat < 2 ^ 62)

include h h'

/-- Coordinates that denote the same texel are wrapped to the same word. -/
theorem apply_congr (hdenote : w.denote j.toInt size.toNat = w.denote i.toInt size.toNat) :
    w.apply j size = w.apply i size := by
  have hi := toNat_apply w i h h'
  have hj := toNat_apply w j h h'
  exact UInt64.toNat_inj.1 (by omega)

theorem stepwise?_eq_apply (w : Wrap) (i : Int64) :
    w.stepwise? i.toInt size.toNat = some ((w.apply i size).toNat : Int) := by
  rw [stepwise?_eq_denote w i.le_toInt i.toInt_lt (by omega) (by omega), toNat_apply w i h h']

/-- A wrapped coordinate can be wrapped again. -/
theorem toInt_apply (w : Wrap) (i : Int64) :
    (w.apply i size).toInt64.toInt = (w.apply i size).toNat := by
  have hlt := apply_lt w i h h'
  exact toInt_toInt64 (by omega)

theorem apply_apply (w : Wrap) (i : Int64) :
    w.apply (w.apply i size).toInt64 size = w.apply i size := by
  refine apply_congr h h' ?_
  rw [toInt_apply h h', toNat_apply w i h h', denote_denote w (by omega)]

theorem clamped_apply_mono (hij : i ≤ j) : clamped.apply i size ≤ clamped.apply j size := by
  have hi := toNat_apply clamped i h h'
  have hj := toNat_apply clamped j h h'
  have hmono := denote_clamped_mono (show 0 < (size.toNat : Int) by omega)
    (Int64.le_iff_toInt_le.1 hij)
  exact UInt64.le_iff_toNat_le.2 (by omega)

theorem clamped_apply_of_neg (hi : i < 0) : clamped.apply i size = 0 := by
  have hzero := toNat_apply clamped i h h'
  rw [denote_clamped_of_neg (Int64.lt_iff_toInt_lt.1 hi)] at hzero
  exact UInt64.toNat_inj.1 (Int.ofNat_inj.1 hzero)

theorem clamped_apply_of_le (hi : (size.toNat : Int) ≤ i.toInt) :
    clamped.apply i size = size - 1 := by
  have hlast := toNat_apply clamped i h h'
  rw [denote_clamped_of_le (by omega) hi] at hlast
  have hone : (size - 1).toNat = size.toNat - 1 :=
    UInt64.toNat_sub_of_le _ _ (UInt64.le_iff_toNat_le.2 h)
  exact UInt64.toNat_inj.1 (by omega)

end Words

/-! ## The laws -/

/-- The laws of the three modes for textures of a given size. A shifted coordinate is a word that
holds the shifted integer. -/
structure Lawful (size : UInt64) : Prop where
  /-- No step on the way leaves its word, and the result is a texel. -/
  inside : ∀ (w : Wrap) (i : Int64),
    w.stepwise? i.toInt size.toNat = some ((w.apply i size).toNat : Int) ∧ w.apply i size < size
  identity : ∀ (w : Wrap) (i : Int64), 0 ≤ i.toInt → i.toInt < size.toNat →
    ((w.apply i size).toNat : Int) = i.toInt
  tiled_period : ∀ (i j : Int64) (k : Int), j.toInt = i.toInt + k * size.toNat →
    tiled.apply j size = tiled.apply i size
  mirrored_period : ∀ (i j : Int64) (k : Int), j.toInt = i.toInt + k * (2 * size.toNat) →
    mirrored.apply j size = mirrored.apply i size
  /-- The reflection of a word is a word. -/
  mirrored_reflect : ∀ i : Int64, (-1 - i).toInt = -1 - i.toInt ∧
    mirrored.apply (-1 - i) size = mirrored.apply i size
  clamped_mono : ∀ i j : Int64, i ≤ j → clamped.apply i size ≤ clamped.apply j size
  clamped_below : ∀ i : Int64, i < 0 → clamped.apply i size = 0
  clamped_above : ∀ i : Int64, (size.toNat : Int) ≤ i.toInt → clamped.apply i size = size - 1
  idempotent : ∀ (w : Wrap) (i : Int64), (w.apply i size).toInt64.toInt = (w.apply i size).toNat ∧
    w.apply (w.apply i size).toInt64 size = w.apply i size

/-- For every size that a texture can have, the wrap modes are lawful. -/
theorem lawful_of_fits (size : UInt64) (h : 0 < size.toNat) (h' : size.toNat < 2 ^ 62) :
    Lawful size where
  inside w i := ⟨stepwise?_eq_apply h h' w i, apply_lt w i h h'⟩
  identity w i hi hi' := (toNat_apply w i h h').trans (denote_eq_self w hi hi')
  tiled_period i j k hj := apply_congr h h' (by rw [hj, denote_tiled_add])
  mirrored_period i j k hj := apply_congr h h' (by rw [hj, denote_mirrored_add])
  mirrored_reflect i := ⟨toInt_reflect i, apply_congr h h' (by
    rw [toInt_reflect, denote_mirrored_reflect (by omega)])⟩
  clamped_mono _ _ hij := clamped_apply_mono h h' hij
  clamped_below _ hi := clamped_apply_of_neg h h' hi
  clamped_above _ hi := clamped_apply_of_le h h' hi
  idempotent w i := ⟨toInt_apply h h' w i, apply_apply h h' w i⟩

/-- The largest size for which twice the size is a signed word. -/
theorem lawful_of_fits_largest :
    0 < (0x3fffffffffffffff : UInt64).toNat ∧ (0x3fffffffffffffff : UInt64).toNat < 2 ^ 62 ∧
      Lawful 0x3fffffffffffffff :=
  ⟨by decide, by decide, lawful_of_fits _ (by decide) (by decide)⟩

end BatchShader.Wrap
