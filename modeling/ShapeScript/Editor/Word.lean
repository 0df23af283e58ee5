/-
ShapeScript.Editor.Word — the word under a cursor.

A cursor stands between two characters of a line, or before its first or
after its last, terminator included. The word there is the run of
alphanumeric characters that touches it on either side. A line that does
not exist has no words; a place beyond the end of a line is no place for
a cursor.
-/
import ShapeScript.Text.Alphanumeric
import ShapeScript.Text.Lines

namespace ShapeScript.Editor

/-- A place in a document as an editor names it, counted from zero. -/
structure Place where
  line : Nat
  character : Nat
  deriving DecidableEq, Repr

/-- The largest line or character that an editor can name. -/
def placeLimit : Nat := 2147483647

/-- The place at a line and character, if an editor can name them. -/
def Place.ofInts? (line character : Int) : Option Place :=
  if 0 ≤ line ∧ line ≤ placeLimit ∧ 0 ≤ character ∧ character ≤ placeLimit then
    some ⟨line.toNat, character.toNat⟩
  else none

/-- The run of characters of a class at the end of a list. -/
def runBefore (p : Char → Bool) (cs : List Char) : List Char :=
  (cs.reverse.takeWhile p).reverse

/-- The word at a place in a line, unless the place lies beyond it. -/
def wordInLine (line : List Char) (character : Nat) : Option (List Char) :=
  if line.length < character then none
  else some (runBefore Text.isAlphanumeric (line.take character)
    ++ (line.drop character).takeWhile Text.isAlphanumeric)

/-- The word at a line and character of a document. -/
def wordAt (document : String) (line character : Nat) : Option String :=
  match (Text.lines document.toList)[line]? with
  | none => some ""
  | some cs => (wordInLine cs character).map String.ofList

end ShapeScript.Editor
