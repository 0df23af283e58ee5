/-
ShapeScript.Proofs.Number.Arithmetic — arithmetic does not fail.

Dividing by a zero and asking for the integer part of a NaN or an infinity
would fail, but both are guarded. What the guards give in place of it is
shown here to be what the operations are to give: `divide_eq` says that
division is that of floating-point arithmetic, also by a zero, where it
gives an infinity or a NaN, and `displayText_of_integral` that an integer
is displayed with all its digits.
-/
import ShapeScript.Value
import ShapeScript.Proofs.Number.Canonical
import ShapeScript.Proofs.Number.Equality

namespace ShapeScript

namespace Number

open Float.Model (Format UnpackedFloat)
open Float.Model.UnpackedFloat (unpackMantissa unpackExponent unpackSign Sign)

variable {x y : Float}

/-! ## Division by zero -/

/-- The sign bit as the sign of what a double is unpacked to. -/
def signOf (x : Float) : Sign := if isNegative x then .negative else .positive

theorem ofBitVec_unpackSign (x : Float) :
    Sign.ofBitVec (@unpackSign .binary64 x.toBits.toBitVec) = signOf x := by
  have hsign : signBit = 2 ^ 63 := rfl
  have hlt : x.toBits.toNat < 2 ^ 64 := x.toBits.toNat_lt
  have hzero : @unpackSign .binary64 x.toBits.toBitVec = 0#1 ↔ ¬ isNegative x = true := by
    rw [← BitVec.toNat_inj, toNat_sign, isNegative, decide_eq_true_iff, hsign]
    show x.toBits.toNat / 2 ^ 63 % 2 = 0 ↔ _
    omega
  rw [Sign.ofBitVec, signOf]
  simp only [hzero]
  cases isNegative x <;> rfl

/-- What is neither a NaN nor a zero is unpacked with its sign. -/
theorem unpacked_of_nonzero (hnan : isNaN x = false) (hzero : magnitude x ≠ 0) :
    unpacked x = .infinity (signOf x) ∨ ∃ m e hm, unpacked x = .finite (signOf x) m e hm := by
  have hnumber : unpacked x ≠ .notANumber := by
    rw [Ne, unpacked_eq_notANumber_iff, hnan]
    exact Bool.false_ne_true
  have hnonzero : ¬ ∃ s, unpacked x = .zero s := unpacked_eq_zero_iff.not.mpr hzero
  rw [← ofBitVec_unpackSign]
  cases hx : unpacked x with
  | notANumber => exact absurd hx hnumber
  | zero s => exact absurd ⟨s, hx⟩ hnonzero
  | infinity s =>
    left
    unfold unpacked UnpackedFloat.unpack at hx
    dsimp only at hx
    split at hx
    · split at hx
      · exact hx.symm
      · cases hx
    · split at hx
      · split at hx <;> cases hx
      · cases hx
  | finite s m e hm =>
    right
    unfold unpacked UnpackedFloat.unpack at hx
    dsimp only at hx
    split at hx
    · split at hx <;> cases hx
    · split at hx
      · split at hx
        · cases hx
        · cases hx
          exact ⟨_, _, hm, rfl⟩
      · cases hx
        exact ⟨_, _, hm, rfl⟩

theorem eq_zero_of_magnitude (h : magnitude x = 0) : x = if isNegative x then -0.0 else 0.0 := by
  have hzero : ∀ negative, ofMagnitude negative 0 = if negative then -0.0 else 0.0 := by
    rintro (_ | _) <;> rw [← Float.toBits_inj] <;> decide +kernel
  rw [← hzero, ← h, ofMagnitude_magnitude]

theorem beq_zero_iff : (x == 0) = true ↔ magnitude x = 0 := by
  have hnan : isNaN (0 : Float) = false := by decide +kernel
  have hmagnitude : magnitude (0 : Float) = 0 := by decide +kernel
  rw [beq_iff]
  constructor
  · rintro ⟨_, _, rfl | ⟨h, _⟩⟩
    · exact hmagnitude
    · exact h
  · intro h
    refine ⟨?_, hnan, .inr ⟨h, hmagnitude⟩⟩
    rw [isNaN, h]
    rfl

/-- Zeros and NaNs divided by a zero. -/
theorem div_zero_eq_nan (hy : magnitude y = 0) (hx : magnitude x = 0 ∨ isNaN x = true) :
    x / y = nan := by
  rw [eq_zero_of_magnitude hy]
  rcases hx with hx | hx
  · rw [eq_zero_of_magnitude hx, ← Float.toBits_inj]
    cases isNegative x <;> cases isNegative y <;> decide +kernel
  · rw [eq_nan hx, ← Float.toBits_inj]
    cases isNegative y <;> decide +kernel

/-- What else is divided by a zero gives an infinity. -/
theorem div_zero_eq_infinity (hy : magnitude y = 0) (hnan : isNaN x = false)
    (hx : magnitude x ≠ 0) : x / y = copySign infinity x * copySign 1 y := by
  have hunpacked : (x / y).toBits.toBitVec =
      UnpackedFloat.pack .binary64 (UnpackedFloat.div .binary64 (unpacked x) (unpacked y)) := rfl
  have hzero : unpacked y = .zero (signOf y) := by
    rw [eq_zero_of_magnitude hy]
    cases isNegative y <;> rfl
  have hdiv : UnpackedFloat.div .binary64 (unpacked x) (unpacked y) =
      .infinity (signOf x / signOf y) := by
    obtain h | ⟨m, e, hm, h⟩ := unpacked_of_nonzero hnan hx <;> rw [h, hzero] <;> rfl
  rw [← Float.toBits_inj, ← UInt64.toBitVec_inj, hunpacked, hdiv, signOf, signOf, copySign,
    copySign]
  cases isNegative x <;> cases isNegative y <;> decide +kernel

/-- Division never fails, and is that of floating-point arithmetic. -/
theorem divide_eq (x y : Float) : divide x y = .ok (x / y) := by
  by_cases hy : (y == 0) = true
  · have hzero := beq_zero_iff.mp hy
    rw [divide, if_pos hy]
    by_cases hx : (x == 0 || isNaN x) = true
    · rw [if_pos hx]
      rw [Bool.or_eq_true, beq_zero_iff] at hx
      rw [div_zero_eq_nan hzero hx]
    · rw [if_neg hx]
      rw [Bool.or_eq_true, beq_zero_iff, not_or, Bool.not_eq_true] at hx
      rw [div_zero_eq_infinity hzero hx.2 hx.1]
  · exact divide_of_nonzero hy

-- without the guard a division by zero fails
example : quotient 1 (-0.0) = .error .zeroDivision := rfl

/-! ## Integers -/

theorem wholePart_of_integral {bits n : Nat} (h : integral? bits = some n) :
    wholePart bits = n := by
  have hone : twoTo 0 = 1 := rfl
  unfold integral? at h
  dsimp only at h
  split at h
  · have hneg : (-exponent bits).toNat = 0 := by omega
    rw [wholePart, hneg, hone, Nat.div_one]
    exact Option.some.inj h
  · have hpos : (exponent bits).toNat = 0 := by omega
    split at h
    · rw [wholePart, hpos, hone, Nat.mul_one]
      exact Option.some.inj h
    · cases h

theorem not_isNaN_of_isFinite (h : isFinite x = true) : ¬ isNaN x = true := by
  simp only [isFinite, isNaN, decide_eq_true_eq] at h ⊢
  omega

theorem not_isInfinite_of_isFinite (h : isFinite x = true) : ¬ isInfinite x = true := by
  simp only [isFinite, isInfinite, decide_eq_true_eq] at h ⊢
  omega

/-- A finite integer is its whole part with its sign. -/
theorem integer_of_integral {n : Nat} (h : isFinite x = true)
    (hint : integral? (magnitude x) = some n) :
    integer x = .ok (if isNegative x then -(n : Int) else n) := by
  rw [integer, if_neg (not_isNaN_of_isFinite h), if_neg (not_isInfinite_of_isFinite h),
    wholePart_of_integral hint]

-- what is not finite is no integer
example : integer infinity = .error .integerOfInfinity := rfl

end Number

/-! ## Display -/

section Display

open Number

variable {x : Float}

theorem toString_natCast (n : Nat) : toString (n : Int) = String.ofList (digitsOf n) := rfl

theorem toString_neg_natCast {n : Nat} (h : n ≠ 0) :
    toString (-(n : Int)) = String.ofList ('-' :: digitsOf n) := by
  obtain ⟨k, rfl⟩ := Nat.exists_eq_succ_of_ne_zero h
  have htext : toString (-((k + 1 : Nat) : Int)) = "-" ++ String.ofList (digitsOf (k + 1)) := rfl
  rw [htext, Nat.succ_eq_add_one]
  generalize digitsOf (k + 1) = ds
  rw [← String.toList_inj]
  simp only [String.toList_append, String.toList_ofList]
  rfl

/-- An integer is displayed with all its digits, and a zero with its
sign. -/
theorem displayText_of_integral {n : Nat} (h : isFinite x = true)
    (hint : integral? (magnitude x) = some n) :
    displayText x = .ok (String.ofList (withSign (isNegative x) (digitsOf n))) := by
  have hintegral : isIntegral x = true := by
    rw [isIntegral, h, hint]
    rfl
  rw [displayText, if_neg (not_isNaN_of_isFinite h), if_neg (not_isInfinite_of_isFinite h),
    if_pos hintegral, integer_of_integral h hint, copySign]
  by_cases hzero : magnitude x = 0
  · obtain rfl : n = 0 := by
      rw [hzero, integral?_zero] at hint
      exact (Option.some.inj hint).symm
    rw [beq_zero_iff.mpr hzero]
    cases isNegative x <;> rfl
  · have hn : n ≠ 0 := by
      rintro rfl
      have hrational := integral?_eq_some_iff.mp hint
      have hpos : 0 < rational (magnitude x) :=
        mul_pos (Nat.cast_pos.mpr (significand_pos (Nat.pos_of_ne_zero hzero)))
          (zpow_pos two_pos _)
      rw [hrational, Nat.cast_zero] at hpos
      exact lt_irrefl 0 hpos
    have hbeq : (x == 0) = false := by
      rw [← Bool.not_eq_true, beq_zero_iff]
      exact hzero
    rw [hbeq]
    cases isNegative x with
    | false => exact congrArg Except.ok (toString_natCast n)
    | true => exact congrArg Except.ok (toString_neg_natCast hn)

/-- Any other number is displayed as a decimal fraction. -/
theorem displayText_of_fraction (h : isFinite x = true)
    (hint : integral? (magnitude x) = none) : displayText x = .ok (fractionText x) := by
  have hintegral : ¬ isIntegral x = true := by
    rw [isIntegral, h, hint]
    exact Bool.false_ne_true
  rw [displayText, if_neg (not_isNaN_of_isFinite h), if_neg (not_isInfinite_of_isFinite h),
    if_neg hintegral]

end Display

end ShapeScript
