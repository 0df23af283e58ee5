/-
ShapeScript.Value — what expressions evaluate to.

A value is a number or a string. When a value joins a concatenation it
contributes its display text: a string itself, a number in positional
notation, which never has an exponent.

An integral number is displayed as the integer that it is. To ask for
that of a NaN or an infinity would fail, but these have words of their
own and are dealt with first.
-/
import ShapeScript.Problem
import ShapeScript.Number.Arithmetic

namespace ShapeScript

/-- A number or a string. -/
inductive Value where
  | number (value : Float)
  | string (text : String)
  deriving Repr

section Display

open Number

/-- Looks for the display text of a number. -/
def displayText (x : Float) : Except ArithmeticError String :=
  if isNaN x then .ok "NaN"
  else if isInfinite x then .ok (if 0 < x then "inf" else "-inf")
  else if isIntegral x then
    if x == 0 && copySign 1 x < 0 then .ok "-0" else (integer x).map fun n => toString n
  else .ok (fractionText x)

/-- Only a finite number is made an integer. -/
theorem isOk_displayText (x : Float) : (displayText x).isOk = true := by
  rw [displayText]
  split
  · rfl
  rename_i hnan
  split
  · rfl
  rename_i hinfinite
  split
  · split
    · rfl
    · rw [eq_ok_resultOf (integer x) (isOk_integer hnan hinfinite)]
      rfl
  · rfl

end Display

/-- The display text of a number. -/
def displayNumber (x : Float) : String := resultOf (displayText x) (isOk_displayText x)

namespace Value

/-- The type of a value. -/
def type : Value → ValueType
  | number _ => .number
  | string _ => .string

/-- Looks for the text that a value contributes to a concatenation. -/
def text : Value → Except ArithmeticError String
  | number x => displayText x
  | string s => .ok s

/-- The text that a value contributes to a concatenation. -/
def display : Value → String
  | number x => displayNumber x
  | string s => s

/-- Every value has a display text. -/
theorem text_eq (v : Value) : v.text = .ok v.display := by
  cases v with
  | number x => exact eq_ok_resultOf (displayText x) (isOk_displayText x)
  | string s => rfl

end Value

/-! ## Scopes -/

/-- Names and their values, in the order in which they were bound. -/
abbrev Scope := List (String × Value)

namespace Scope

/-- The value of a name. -/
def find? (scope : Scope) (name : String) : Option Value := scope.lookup name

/-- Binds a name. A name that is bound already keeps its place and gets
the new value. -/
def bind : Scope → String → Value → Scope
  | [], name, value => [(name, value)]
  | (n, v) :: rest, name, value =>
    if n = name then (n, value) :: rest else (n, v) :: bind rest name value

end Scope

end ShapeScript
