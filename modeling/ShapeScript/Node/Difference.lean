/-
ShapeScript.Node.Difference — where two trees first differ.

The comparison goes through both outlines together, fields and items in
order, and stops at the first place where they have different classes,
lists of different lengths, or different primitive values. Numbers are
compared as doubles are, so zeros of both signs agree and a NaN differs
from itself. The difference it gives leads to that place by the names of
fields and the indices of items.
-/
import ShapeScript.Node.Outline

namespace ShapeScript

/-- A difference between two trees, and the way to it. -/
inductive Difference where
  | types (actual expected : String)
  | lengths (actual expected : Nat)
  | values (actual expected : String)
  | inField (field className : String) (inner : Difference)
  | atIndex (index : Nat) (inner : Difference)
  deriving DecidableEq, Repr

/-- The difference in words, one line for each step of the way. -/
def Difference.message : Difference → String
  | types actual expected =>
    "AST node types differ. Actual: " ++ actual ++ ", Expected: " ++ expected
  | lengths actual expected =>
    "List lengths differ. Actual: " ++ toString actual ++ ", Expected: " ++ toString expected
  | values actual expected =>
    "Primitive values differ. Actual: '" ++ actual ++ "', Expected: '" ++ expected ++ "'"
  | inField field className inner =>
    "Mismatch in field '" ++ field ++ "' of " ++ className ++ ":\n" ++ inner.message
  | atIndex index inner =>
    "Mismatch at index [" ++ toString index ++ "] of a list:\n" ++ inner.message

/-- How a difference names the doubles without a decimal. -/
def differenceWords : Number.SpecialWords := ⟨"nan", "inf", "-inf"⟩

/-- How a difference writes a number. -/
def differenceNumber (x : Float) : String :=
  if Number.isFinite x then Number.compactText x else differenceWords.of x

namespace Outline

/-- The name of what an outline is of. -/
def typeName : Outline → String
  | absent => "NoneType"
  | number _ => "float"
  | text _ => "str"
  | count _ => "int"
  | binaryOp _ => "BinaryOperator"
  | negationOp => "UnaryOperator"
  | list _ => "list"
  | record className _ => className

/-- The difference between two values that are shown by their texts. -/
def valuesDiffer (same : Bool) (actual expected : String) : Option Difference :=
  if same then none else some (.values actual expected)

mutual

/-- The first difference between two outlines. -/
def difference? : Outline → Outline → Option Difference
  | absent, absent => none
  | number x, number y => valuesDiffer (x == y) (differenceNumber x) (differenceNumber y)
  | text s, text t => valuesDiffer (s == t) s t
  | count m, count n => valuesDiffer (m == n) (toString m) (toString n)
  | binaryOp p, binaryOp q =>
    valuesDiffer (p == q) ("BinaryOperator." ++ p.name) ("BinaryOperator." ++ q.name)
  | negationOp, negationOp => none
  | list xs, list ys =>
    if xs.length = ys.length then itemDifference? 0 xs ys
    else some (.lengths xs.length ys.length)
  | record c fs, record d gs => if c = d then fieldDifference? c fs gs else some (.types c d)
  | a, b => some (.types a.typeName b.typeName)

/-- The first difference between the items of two lists from an index
on. -/
def itemDifference? : Nat → List Outline → List Outline → Option Difference
  | i, x :: xs, y :: ys =>
    match difference? x y with
    | some d => some (.atIndex i d)
    | none => itemDifference? (i + 1) xs ys
  | _, _, _ => none

/-- The first difference between the fields of two records of a class. -/
def fieldDifference? (className : String) :
    List (String × Outline) → List (String × Outline) → Option Difference
  | (name, x) :: fs, (_, y) :: gs =>
    match difference? x y with
    | some d => some (.inField name className d)
    | none => fieldDifference? className fs gs
  | _, _ => none

end

end Outline

/-- The first difference between two trees. -/
def Node.difference? (actual expected : Node) : Option Difference :=
  actual.outline.difference? expected.outline

end ShapeScript
