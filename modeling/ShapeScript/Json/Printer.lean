/-
ShapeScript.Json.Printer — JSON as text.

The text is printable ASCII: every other character is written by the
hexadecimal digits of its UTF-16 units, so one beyond U+FFFF takes two of
them. A value stands on one line, or spread out with one item to a line.
Numbers are written in compact form; the infinities and NaN, which JSON
has no form for, are written as words.
-/
import ShapeScript.Json
import ShapeScript.Number.Decimal
import ShapeScript.Text.Quoted

namespace ShapeScript.Json

/-- How JSON text names the doubles without a decimal. -/
def numberWords : Number.SpecialWords := ⟨"NaN", "Infinity", "-Infinity"⟩

/-- The text of a number that is not an integer of JSON. -/
def numberText (x : Float) : String :=
  if Number.isFinite x then Number.compactText x else numberWords.of x

/-- The escape of a UTF-16 unit. -/
def escapeUnit (u : Nat) : List Char := '\\' :: 'u' :: Text.hexDigits 4 u

/-- The UTF-16 units of a code point. -/
def unitsOf (n : Nat) : List Nat :=
  if n < 0x10000 then [n]
  else [0xD800 + (n - 0x10000) / 0x400, 0xDC00 + (n - 0x10000) % 0x400]

/-- A character of a string literal. -/
def escapeChar (c : Char) : List Char :=
  if c = '"' then ['\\', '"']
  else if c = '\\' then ['\\', '\\']
  else if c = '\n' then ['\\', 'n']
  else if c = '\r' then ['\\', 'r']
  else if c = '\t' then ['\\', 't']
  else if c = '\x0c' then ['\\', 'f']
  else if c = '\x08' then ['\\', 'b']
  else if 0x20 ≤ c.toNat ∧ c.toNat < 0x7F then [c]
  else (unitsOf c.toNat).flatMap escapeUnit

/-- A string literal. -/
def stringText (s : String) : String :=
  String.ofList ('"' :: s.toList.flatMap escapeChar ++ ['"'])

/-- Either everything on one line, or one item to a line, indented by a
unit for each level. -/
inductive Layout where
  | oneLine
  | indented (unit : String)

namespace Layout

/-- A line break and the indentation of a level; nothing on one line. -/
def newline : Layout → Nat → String
  | oneLine, _ => ""
  | indented unit, level => "\n" ++ String.join (List.replicate level unit)

/-- What stands between items. -/
def separator : Layout → Nat → String
  | oneLine, _ => ", "
  | indented unit, level => "," ++ newline (indented unit) level

end Layout

/-- Texts between an opening and a closing bracket, one level deeper; an
empty list of them is just the brackets. -/
def bracketed (layout : Layout) (level : Nat) (opening closing : String) :
    List String → String
  | [] => opening ++ closing
  | first :: more =>
    opening ++ layout.newline (level + 1) ++ first
      ++ String.join (more.map (layout.separator (level + 1) ++ ·))
      ++ layout.newline level ++ closing

mutual

/-- The text of a value at a level of nesting. -/
def render (layout : Layout) (level : Nat) : Json → String
  | null => "null"
  | bool true => "true"
  | bool false => "false"
  | int n => toString n
  | number x => numberText x
  | string s => stringText s
  | array items => bracketed layout level "[" "]" (renderItems layout (level + 1) items)
  | object members =>
    bracketed layout level "\x7b" "\x7d" (renderMembers layout (level + 1) members)

/-- The texts of a list's items. -/
def renderItems (layout : Layout) (level : Nat) : List Json → List String
  | [] => []
  | v :: rest => render layout level v :: renderItems layout level rest

/-- The texts of an object's members. -/
def renderMembers (layout : Layout) (level : Nat) : List (String × Json) → List String
  | [] => []
  | (name, v) :: rest =>
    (stringText name ++ ": " ++ render layout level v) :: renderMembers layout level rest

end

/-- The text of a value. -/
def text (layout : Layout) (v : Json) : String := v.render layout 0

end ShapeScript.Json
