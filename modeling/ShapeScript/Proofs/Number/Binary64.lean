/-
ShapeScript.Proofs.Number.Binary64 — a double is its sign and magnitude.

There is one double for each pair of bits that is not a NaN, and only one
NaN. So a double can be told from its sign and magnitude, and one without
a decimal is one of three.
-/
import Mathlib
import ShapeScript.Number.Binary64

namespace ShapeScript.Number

theorem toNat_toBits (x : Float) :
    x.toBits.toNat = if isNegative x then magnitude x + signBit else magnitude x := by
  have hlt : x.toBits.toNat < 2 ^ 64 := x.toBits.toNat_lt
  have hsign : signBit = 2 ^ 63 := rfl
  simp only [isNegative, magnitude, hsign, decide_eq_true_eq]
  split <;> omega

/-- A double is made of its sign and magnitude. -/
theorem ofMagnitude_magnitude (x : Float) : ofMagnitude (isNegative x) (magnitude x) = x := by
  rw [ofMagnitude, ← toNat_toBits, UInt64.ofNat_toNat, Float.ofBits_toBits]

/-- Nothing but NaN is not a number. -/
theorem eq_nan {x : Float} (h : isNaN x = true) : x = 0.0 / 0.0 := by
  have hnan : x.toBits.toNat % 2 ^ 63 > 0x7FF0000000000000 := by
    have hsign : signBit = 2 ^ 63 := rfl
    simpa [isNaN, magnitude, infiniteMagnitude, hsign] using h
  have hbits : x.toBits.toBitVec = Float.Model.UnpackedFloat.packedNaN .binary64 := by
    refine x.toModel.valid.eq_packedNaN ?_ ?_
    · rw [Float.Model.UnpackedFloat.unpackExponent_def]
      apply BitVec.eq_of_toNat_eq
      rw [BitVec.extractLsb'_toNat, Nat.shiftRight_eq_div_pow]
      show x.toBits.toNat / 2 ^ 52 % 2 ^ 11 = 2 ^ 11 - 1
      omega
    · rw [Float.Model.UnpackedFloat.unpackMantissa_def]
      intro hzero
      have hzero := congrArg BitVec.toNat hzero
      rw [BitVec.extractLsb'_toNat, Nat.shiftRight_zero] at hzero
      have hzero : x.toBits.toNat % 2 ^ 52 = 0 := hzero
      omega
  rw [← Float.toBits_inj, ← UInt64.toBitVec_inj, hbits]
  decide +kernel

/-- Nothing but the infinities is a number and not finite. -/
theorem eq_infinity {x : Float} (hfinite : isFinite x = false) (hnan : isNaN x = false) :
    x = if isNegative x then -1.0 / 0.0 else 1.0 / 0.0 := by
  have hmagnitude : magnitude x = infiniteMagnitude := by
    simp only [isFinite, isNaN, decide_eq_false_iff_not] at hfinite hnan
    omega
  have hinfinity : ∀ negative, ofMagnitude negative infiniteMagnitude =
      if negative then -1.0 / 0.0 else 1.0 / 0.0 := by
    rintro (_ | _) <;> rw [← Float.toBits_inj] <;> decide +kernel
  rw [← hinfinity, ← hmagnitude, ofMagnitude_magnitude]

end ShapeScript.Number
