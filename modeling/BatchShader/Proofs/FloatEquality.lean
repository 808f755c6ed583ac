import BatchShader.Binary32
import Mathlib

/-
  Equality of floats, from their bits.

  `eq` compares the `Float32`s that its operands stand for. A float that is no NaN stands for one
  with the same bits, and all NaNs for the same one (`toBits_toFloat32`). So two floats are equal
  when they have the same bits or are zeros of any signs, and a NaN equals nothing (`eq_iff`).
-/

namespace BatchShader.Binary32

open Float.Model.UnpackedFloat

variable {x y : Binary32}

/-! ## Bits -/

theorem exponentField_eq (x : Binary32) :
    x.exponentField = x.bits.toNat / 2 ^ 23 % 2 ^ 8 := by
  rw [exponentField, UInt32.toNat_and, ← Nat.shiftRight_eq_div_pow]
  exact Nat.and_two_pow_sub_one_eq_mod _ 8

theorem fractionField_eq (x : Binary32) : x.fractionField = x.bits.toNat % 2 ^ 23 := by
  rw [fractionField, UInt32.toNat_and]
  exact Nat.and_two_pow_sub_one_eq_mod _ 23

theorem isNaNBits_eq (x : Binary32) : @isNaNBits .binary32 x.bits.toBitVec = x.isNaN := by
  have hexponent : (@unpackExponent .binary32 x.bits.toBitVec).toNat = x.exponentField := by
    simp [unpackExponent, exponentField_eq, Nat.shiftRight_eq_div_pow]
  have hfraction : (@unpackMantissa .binary32 x.bits.toBitVec).toNat = x.fractionField := by
    simp [unpackMantissa, fractionField_eq]
  rw [isNaNBits, isNaN, ← hexponent, ← hfraction, Bool.eq_iff_iff, decide_eq_true_eq,
    Bool.and_eq_true, beq_iff_eq, bne_iff_ne, Ne, Ne, ← BitVec.toNat_inj, ← BitVec.toNat_inj]
  rfl

theorem abs_eq_zero_iff : x.abs = zero ↔ x.bits = 0 ∨ x.bits = 0x80000000 := by
  rw [abs, zero, Binary32.mk.injEq, ← UInt32.toNat_inj, ← UInt32.toNat_inj, ← UInt32.toNat_inj,
    UInt32.toNat_and]
  change x.bits.toNat &&& 2 ^ 31 - 1 = 0 ↔ x.bits.toNat = 0 ∨ x.bits.toNat = 2 ^ 31
  rw [Nat.and_two_pow_sub_one_eq_mod]
  have := x.bits.toNat_lt
  omega

/-! ## The floats to compute with -/

/-- A NaN of any sign and payload becomes the one NaN. -/
theorem toBits_toFloat32 (x : Binary32) :
    x.toFloat32.toBits = if x.isNaN then 0x7fc00000 else x.bits := by
  have hpack := @pack_unpack .binary32 x.bits.toBitVec (by decide)
  rw [isNaNBits_eq] at hpack
  apply UInt32.toBitVec_inj.1
  refine hpack.trans ?_
  split <;> rfl

theorem toFloat32_eq_nan : x.toFloat32 = Float32.nan ↔ x.isNaN = true := by
  have hnan : Float32.nan.toBits = 0x7fc00000 := by decide +kernel
  rw [← Float32.toBits_inj, toBits_toFloat32, hnan]
  cases h : x.isNaN with
  | true => exact iff_of_true rfl rfl
  | false =>
    refine iff_of_false (fun hbits => ?_) nofun
    obtain rfl : x = ⟨0x7fc00000⟩ := congrArg Binary32.mk hbits
    revert h
    decide

theorem toFloat32_eq_iff (h : x.isNaN = false) {f : Float32} :
    x.toFloat32 = f ↔ x.bits = f.toBits := by
  rw [← Float32.toBits_inj, toBits_toFloat32, h]
  rfl

/-- Two floats are equal if they are stored alike or are zeros, unless one is a NaN. -/
theorem eq_iff : eq x y = true ↔
    x.isNaN = false ∧ y.isNaN = false ∧ (x = y ∨ x.abs = zero ∧ y.abs = zero) := by
  rw [eq, Float32.beq_iff_ne_nan_and_eq, Ne, Ne, toFloat32_eq_nan, toFloat32_eq_nan,
    Bool.not_eq_true, Bool.not_eq_true]
  refine and_congr_right fun hx => and_congr_right fun hy => ?_
  have hpos : (0 : Float32).toBits = 0 := by decide +kernel
  have hneg : (-0 : Float32).toBits = 0x80000000 := by decide +kernel
  rw [toFloat32_eq_iff hx, toFloat32_eq_iff hx, toFloat32_eq_iff hx, toFloat32_eq_iff hy,
    toFloat32_eq_iff hy, toBits_toFloat32 y, hy, hpos, hneg, abs_eq_zero_iff, abs_eq_zero_iff]
  obtain ⟨a⟩ := x
  obtain ⟨b⟩ := y
  simp only [Binary32.mk.injEq, Bool.false_eq_true, if_false]
  -- zeros of one sign have the same bits
  constructor
  · rintro (h | ⟨ha, hb⟩ | ⟨ha, hb⟩)
    · exact .inl h
    · exact .inr ⟨.inl ha, .inr hb⟩
    · exact .inr ⟨.inr ha, .inl hb⟩
  · rintro (h | ⟨rfl | rfl, rfl | rfl⟩)
    · exact .inl h
    · exact .inl rfl
    · exact .inr (.inl ⟨rfl, rfl⟩)
    · exact .inr (.inr ⟨rfl, rfl⟩)
    · exact .inl rfl

end BatchShader.Binary32
