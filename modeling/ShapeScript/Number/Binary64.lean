/-
ShapeScript.Number.Binary64 — doubles as integers times powers of two.

A finite double is `significand * 2 ^ exponent`. Its magnitude bits count
the finite doubles from zero upward, which is what makes rounding a
quotient of naturals to the nearest double a matter of one division:
`nearestMagnitude` finds the exponent, rounds the significand, half to
even, and adds the two fields. A carry out of the significand lands in
the exponent field where it belongs.
-/
namespace ShapeScript.Number

/-- A power of two. -/
def twoTo (n : Nat) : Nat := Nat.pow 2 n

/-- A power of ten. -/
def tenTo (n : Nat) : Nat := Nat.pow 10 n

/-- Where the exponent field starts. -/
def hiddenBit : Nat := twoTo 52

/-- The sign bit. -/
def signBit : Nat := twoTo 63

/-- The magnitude bits of infinity; those above it are not numbers. -/
def infiniteMagnitude : Nat := 0x7FF0000000000000

/-- The bits without the sign. -/
def magnitude (x : Float) : Nat := x.toBits.toNat % signBit

/-- The sign bit is set: also of `-0`. -/
def isNegative (x : Float) : Bool := signBit ≤ x.toBits.toNat

/-- Neither an infinity nor a NaN. -/
def isFinite (x : Float) : Bool := magnitude x < infiniteMagnitude

/-- Not a number. -/
def isNaN (x : Float) : Bool := infiniteMagnitude < magnitude x

/-- The integer that a finite magnitude counts in units of its last
place. -/
def significand (bits : Nat) : Nat :=
  if bits < hiddenBit then bits else bits % hiddenBit + hiddenBit

/-- The exponent of two of that unit. -/
def exponent (bits : Nat) : Int :=
  if bits < hiddenBit then -1074 else (bits / hiddenBit : Nat) - 1075

/-- A double from its sign and magnitude bits. -/
def ofMagnitude (negative : Bool) (bits : Nat) : Float :=
  Float.ofBits (UInt64.ofNat (if negative then bits + signBit else bits))

/-- The quotient rounded to the nearest integer, a half going to the even
neighbour. -/
def roundHalfEven (num den : Nat) : Nat :=
  let down := num / den
  let twice := 2 * (num % den)
  if twice < den then down
  else if den < twice then down + 1
  else down + down % 2

/-- `num / den` in units of `2 ^ e`, rounded half to even. -/
def unitsOf (num den : Nat) (e : Int) : Nat :=
  roundHalfEven (num * twoTo (-e).toNat) (den * twoTo e.toNat)

/-- The exponent of the last place that a quotient of naturals has as a
double: the one that gives it 53 binary digits, but at least that of
the smallest double. -/
def lastPlace (num den : Nat) : Int :=
  let low : Int := max ((num.log2 : Int) - den.log2 - 53) (-1074)
  if den * twoTo low.toNat * (2 * hiddenBit) ≤ num * twoTo (-low).toNat then low + 1 else low

/-- The magnitude bits of the double nearest to `num / den`. -/
def nearestMagnitude (num den : Nat) : Nat :=
  if num = 0 then 0
  else
    let e := lastPlace num den
    min ((e + 1074).toNat * hiddenBit + unitsOf num den e) infiniteMagnitude

end ShapeScript.Number
