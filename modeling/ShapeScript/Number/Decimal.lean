/-
ShapeScript.Number.Decimal — decimal texts of doubles.

`shortest` finds the decimal with the fewest digits among those that
read back as a given double, and of those the nearest to it. It tries
the grids of multiples of powers of ten from coarse to fine: on each it
looks only at the two neighbours of the value, in exact integer
arithmetic. The fewest digits lie on the coarsest grid that meets the
interval of reals rounding to the value.

A decimal is written in two ways. The positional form never has an
exponent; the compact form switches to one when the value is very large
or very small.
-/
import ShapeScript.Number.Binary64

namespace ShapeScript.Number

/-- `digits * 10 ^ exponent`. -/
structure Decimal where
  digits : Nat
  exponent : Int
  deriving DecidableEq, Repr

/-! ## The interval of reals that round to a double -/

/-- Numerators of a value and of the two ends of its rounding interval,
over one denominator, and whether the ends belong to it. -/
structure Interval where
  low : Nat
  value : Nat
  high : Nat
  den : Nat
  closed : Bool

/-- The rounding interval of a finite magnitude, in units of `10 ^ grid`.
Below a power of two the neighbouring double is only half as far away;
the ends round to the value exactly when its significand is even. -/
def interval (bits : Nat) (grid : Int) : Interval :=
  let m := significand bits
  let e := exponent bits - 2
  let scale := twoTo e.toNat * tenTo (-grid).toNat
  let below := if m = hiddenBit ∧ hiddenBit < bits then 1 else 2
  { low := (4 * m - below) * scale
    value := 4 * m * scale
    high := (4 * m + 2) * scale
    den := twoTo (-e).toNat * tenTo grid.toNat
    closed := m % 2 == 0 }

/-- The grid point `n` lies in the interval. -/
def Interval.holds (i : Interval) (n : Nat) : Bool :=
  if i.closed then i.low ≤ n * i.den && n * i.den ≤ i.high
  else i.low < n * i.den && n * i.den < i.high

/-- The grid point in the interval that is nearest to the value, if any
lies there; of two equally near the even one. -/
def Interval.nearest? (i : Interval) : Option Nat :=
  let down := i.value / i.den
  match i.holds down, i.holds (down + 1) with
  | true, true => some (roundHalfEven i.value i.den)
  | true, false => some down
  | false, true => some (down + 1)
  | false, false => none

/-! ## Shortest digits -/

/-- How many decimal digits a natural number has; zero has none. -/
def digitCount (n : Nat) : Nat := if n = 0 then 0 else (Nat.toDigits 10 n).length

/-- A grid that is coarser than any with a point in the interval. -/
def coarsestGrid (bits : Nat) : Int :=
  let m := significand bits
  let e := exponent bits
  if 0 ≤ e then digitCount (m * twoTo e.toNat) + 1
  else (digitCount (m / twoTo (-e).toNat) : Int) + 1
    - (if m / twoTo (-e).toNat = 0 then digitCount ((twoTo (-e).toNat - 1) / m) else 0)

/-- The first grid with a hit, trying `tries` of them downward. -/
def searchGrids (bits : Nat) : Nat → Int → Decimal
  | 0, grid => ⟨(interval bits grid).value / (interval bits grid).den, grid⟩
  | tries + 1, grid =>
    match (interval bits grid).nearest? with
    | some n => ⟨n, grid⟩
    | none => searchGrids bits tries (grid - 1)

/-- The shortest decimal that reads back as a finite positive magnitude.
Seventeen digits always do, and the search starts two grids above the
first digit. -/
def shortest (bits : Nat) : Decimal := searchGrids bits 20 (coarsestGrid bits)

/-! ## Writing -/

/-- The decimal digits of a natural number. -/
def digitsOf (n : Nat) : List Char := Nat.toDigits 10 n

/-- Digits with a point after the first `k`, where missing places are
zeros: `k` may be negative or beyond the last digit. -/
def placePoint (ds : List Char) (k : Int) : List Char × List Char :=
  if k ≤ 0 then (['0'], List.replicate (-k).toNat '0' ++ ds)
  else (ds.take k.toNat ++ List.replicate (k.toNat - ds.length) '0', ds.drop k.toNat)

/-- The positional text of a decimal: no exponent, and no point unless a
digit follows it. -/
def Decimal.positional (d : Decimal) : List Char :=
  let ds := digitsOf d.digits
  match placePoint ds (ds.length + d.exponent) with
  | (whole, []) => whole
  | (whole, fraction) => whole ++ '.' :: fraction

/-- A minus sign in front of a negative number's text. -/
def withSign (negative : Bool) (text : List Char) : List Char :=
  if negative then '-' :: text else text

/-- An exponent has a sign and at least two digits. -/
def exponentText (e : Int) : List Char :=
  let ds := digitsOf e.natAbs
  (if e < 0 then '-' else '+') :: (if ds.length < 2 then '0' :: ds else ds)

/-- The compact text of a decimal. From `10 ^ -4` up to `10 ^ 16` it is
positional, with `.0` after an integer; elsewhere one digit stands
before the point and an exponent follows. -/
def Decimal.compact (d : Decimal) : List Char :=
  let ds := digitsOf d.digits
  let e := ds.length + d.exponent - 1
  if -4 ≤ e ∧ e < 16 then
    match placePoint ds (e + 1) with
    | (whole, []) => whole ++ ['.', '0']
    | (whole, fraction) => whole ++ '.' :: fraction
  else
    match ds with
    | first :: [] => first :: 'e' :: exponentText e
    | first :: more => first :: '.' :: more ++ 'e' :: exponentText e
    | [] => 'e' :: exponentText e

/-! ## Texts of doubles -/

/-- Words for the doubles that no decimal denotes. -/
structure SpecialWords where
  nan : String
  positive : String
  negative : String

/-- The word for a double that is not finite. -/
def SpecialWords.of (w : SpecialWords) (x : Float) : String :=
  if isNaN x then w.nan else if isNegative x then w.negative else w.positive

/-- The integer that a finite magnitude denotes, if it denotes one. -/
def integral? (bits : Nat) : Option Nat :=
  let m := significand bits
  let e := exponent bits
  if 0 ≤ e then some (m * twoTo e.toNat)
  else if m % twoTo (-e).toNat = 0 then some (m / twoTo (-e).toNat)
  else none

/-- The positional text of a finite double, with the fewest digits that
read back. -/
def fractionText (x : Float) : String :=
  String.ofList (withSign (isNegative x) (shortest (magnitude x)).positional)

/-- The compact text of a finite double: the fewest digits that read
back. -/
def compactText (x : Float) : String :=
  let bits := magnitude x
  String.ofList <| withSign (isNegative x) <|
    if bits = 0 then ['0', '.', '0'] else (shortest bits).compact

/-! ## Reading -/

/-- The natural number that a list of decimal digits writes. -/
def valueOfDigits (ds : List Char) : Nat :=
  ds.foldl (fun n c => 10 * n + (c.toNat - '0'.toNat)) 0

/-- The double nearest to `whole.fraction`, both lists of digits. -/
def ofDigits (whole fraction : List Char) : Float :=
  ofMagnitude false (nearestMagnitude (valueOfDigits (whole ++ fraction)) (tenTo fraction.length))

/-- The double nearest to `digits * 10 ^ exponent`. -/
def ofDecimal (negative : Bool) (d : Decimal) : Float :=
  ofMagnitude negative
    (nearestMagnitude (d.digits * tenTo d.exponent.toNat) (tenTo (-d.exponent).toNat))

end ShapeScript.Number
