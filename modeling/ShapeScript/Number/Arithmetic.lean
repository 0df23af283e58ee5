/-
ShapeScript.Number.Arithmetic — operations on doubles that can fail.

A zero divides nothing, and neither a NaN nor an infinity has an integer
part. `divide` asks for a quotient only if the divisor is no zero; by a
zero it divides as floating-point arithmetic does, and gives an infinity
with the signs of both, or a NaN. So it never fails.
-/
import ShapeScript.Number.Decimal

namespace ShapeScript

/-- Why an operation on doubles has no result. -/
inductive ArithmeticError where
  | zeroDivision
  | integerOfNaN
  | integerOfInfinity
  deriving DecidableEq, Repr

/-- The sentence for an error of arithmetic. -/
def ArithmeticError.message : ArithmeticError → String
  | zeroDivision => "float division by zero"
  | integerOfNaN => "cannot convert float NaN to integer"
  | integerOfInfinity => "cannot convert float infinity to integer"

/-- The result of an operation that does not fail. -/
def resultOf {ε α : Type} : (x : Except ε α) → x.isOk = true → α
  | .ok a, _ => a
  | .error _, h => (Bool.false_ne_true h).elim

theorem resultOf_eq {ε α : Type} {x : Except ε α} {a : α} (h : x.isOk = true) (hx : x = .ok a) :
    resultOf x h = a := by
  subst hx
  rfl

theorem eq_ok_resultOf {ε α : Type} : ∀ (x : Except ε α) (h : x.isOk = true), x = .ok (resultOf x h)
  | .ok _, _ => rfl
  | .error _, h => (Bool.false_ne_true h).elim

namespace Number

/-- The double that is not a number. -/
def nan : Float := 0.0 / 0.0

/-- Positive infinity. -/
def infinity : Float := ofMagnitude false infiniteMagnitude

/-- Positive or negative infinity. -/
def isInfinite (x : Float) : Bool := magnitude x = infiniteMagnitude

/-- The magnitude of one double with the sign of another. -/
def copySign (x sign : Float) : Float := ofMagnitude (isNegative sign) (magnitude x)

/-! ## Division -/

/-- The quotient of two doubles. A zero of either sign divides nothing. -/
def quotient (x y : Float) : Except ArithmeticError Float :=
  if y == 0 then .error .zeroDivision else .ok (x / y)

/-- Division that gives an infinity or a NaN where there is no quotient. -/
def divide (x y : Float) : Except ArithmeticError Float :=
  if y == 0 then
    if x == 0 || isNaN x then .ok nan
    else .ok (copySign infinity x * copySign 1 y)
  else quotient x y

theorem divide_of_nonzero {x y : Float} (hy : ¬ (y == 0) = true) : divide x y = .ok (x / y) := by
  rw [divide, if_neg hy, quotient, if_neg hy]

/-- No division asks for a quotient by zero. -/
theorem isOk_divide (x y : Float) : (divide x y).isOk = true := by
  by_cases hy : (y == 0) = true
  · rw [divide, if_pos hy]
    split <;> rfl
  · rw [divide_of_nonzero hy]
    rfl

/-! ## Integers -/

/-- The integer part of a finite magnitude. -/
def wholePart (bits : Nat) : Nat :=
  significand bits * twoTo (exponent bits).toNat / twoTo (-exponent bits).toNat

/-- The integer part of a double. -/
def integer (x : Float) : Except ArithmeticError Int :=
  if isNaN x then .error .integerOfNaN
  else if isInfinite x then .error .integerOfInfinity
  else .ok (if isNegative x then -(wholePart (magnitude x) : Int) else wholePart (magnitude x))

/-- The double is an integer. -/
def isIntegral (x : Float) : Bool := isFinite x && (integral? (magnitude x)).isSome

theorem isOk_integer {x : Float} (hnan : ¬ isNaN x = true) (hinfinite : ¬ isInfinite x = true) :
    (integer x).isOk = true := by
  rw [integer, if_neg hnan, if_neg hinfinite]
  rfl

end Number

end ShapeScript
