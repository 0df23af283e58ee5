/-
ShapeScript.Program — programs as trees.

A program is a list of shapes. A shape has parameters, each with or
without a default, and a body of calls; a call names a shape, or the
primitive `svg`, and passes named arguments.
-/
import ShapeScript.Expr

namespace ShapeScript

/-- `name: value` in a call. -/
structure Argument where
  name : String
  value : Expr
  span : Span
  deriving Repr

/-- A call by name. -/
structure Call where
  callee : String
  arguments : List Argument
  span : Span
  deriving Repr

/-- The calls in a shape's body. -/
structure Block where
  calls : List Call
  span : Span
  deriving Repr

/-- A parameter, with the expression it defaults to if it has one. -/
structure Parameter where
  name : String
  fallback : Option Expr
  span : Span
  deriving Repr

/-- The declaration of a shape. -/
structure Shape where
  name : String
  parameters : List Parameter
  body : Block
  span : Span
  deriving Repr

/-- A source file: its shapes, and where its last token ends. Diagnostics
about something missing point there. -/
structure Program where
  shapes : List Shape
  finish : Position
  deriving Repr

/-- The position that diagnostics about an argument point at. -/
def Argument.pos (a : Argument) : Position := a.span.start

/-- The position that diagnostics about a call point at. -/
def Call.pos (c : Call) : Position := c.span.start

/-- The position that diagnostics about a declaration point at. -/
def Shape.pos (s : Shape) : Position := s.span.start

/-! ## Words with a meaning of their own -/

/-- The word that starts a declaration. -/
def shapeKeyword : String := "shape"

/-- The words that name nothing. -/
def reservedWords : List String := [shapeKeyword]

/-- A word that names nothing. -/
def isReserved (name : String) : Bool := reservedWords.contains name

/-- The shape where evaluation starts. -/
def mainName : String := "main"

/-- The primitive that puts a string into the document. -/
def svgName : String := "svg"

/-- The one argument of that primitive. -/
def svgArgument : String := "value"

end ShapeScript
