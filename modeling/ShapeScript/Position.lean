/-
ShapeScript.Position — places in a source text.

Every token and every tree node knows where it was read, so that a
diagnostic can point at it. Lines and columns count from zero and in
code points; a span ends where the next character starts. They are
integers, since a tree that was built without a text may be given any
position; in one that was read none is negative.
-/
namespace ShapeScript

/-- A line and a column, both counted from zero. -/
structure Position where
  line : Int
  column : Int
  deriving DecidableEq, Repr, Inhabited

/-- The stretch of source from `start` up to, not including, `finish`. -/
structure Span where
  start : Position
  finish : Position
  deriving DecidableEq, Repr, Inhabited

namespace Position

/-- Where a text begins. -/
def origin : Position := ⟨0, 0⟩

/-- The position after reading `c` when `next` is the character that
follows it. LF and CR each break the line; a CR directly before an LF
leaves the break to that LF, so the pair counts once. -/
def after (p : Position) (c : Char) (next : Option Char) : Position :=
  if c = '\r' ∧ next = some '\n' then p
  else if c = '\n' ∨ c = '\r' then ⟨p.line + 1, 0⟩
  else ⟨p.line, p.column + 1⟩

end Position

/-- The empty span at the origin, worn by nodes that no text was read
for. -/
def Span.origin : Span := ⟨.origin, .origin⟩

end ShapeScript
