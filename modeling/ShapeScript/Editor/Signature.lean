/-
ShapeScript.Editor.Signature — shapes as an editor shows them.

The signature of a shape names its parameters with their defaults, as
far as these are literals. A call snippet has a placeholder for each
parameter that it is to ask for.
-/
import ShapeScript.Library
import ShapeScript.Value

namespace ShapeScript

/-- A parameter in a signature. -/
def Parameter.signature (p : Parameter) : String :=
  match p.fallback with
  | none => p.name
  | some (.number x _) => p.name ++ " = " ++ displayNumber x
  | some (.string s _) => p.name ++ " = \"" ++ s ++ "\""
  | some _ => p.name ++ " = ..."

/-- The signature of a shape. -/
def Shape.signature (s : Shape) : String :=
  "shape " ++ s.name ++ "(" ++ joinTexts ", " (s.parameters.map Parameter.signature) ++ ")"

/-- The placeholders of a snippet, numbered from `i`. -/
def placeholders : Nat → List String → List String
  | _, [] => []
  | i, name :: names =>
    (name ++ ": $\x7b" ++ toString i ++ ":" ++ name ++ "\x7d") :: placeholders (i + 1) names

/-- A call of a shape with a placeholder for each of some parameters. -/
def callSnippet (name : String) (parameters : List String) : String :=
  name ++ "(" ++ joinTexts ", " (placeholders 1 parameters) ++ ")"

/-- The names of a shape's parameters. -/
def Shape.parameterNames (s : Shape) : List String := s.parameters.map (·.name)

/-- The names of the parameters that a call has to give. -/
def Shape.requiredNames (s : Shape) : List String :=
  (s.parameters.filter (·.fallback.isNone)).map (·.name)

/-- The builtin shapes. -/
def builtinRegistry : Registry := LibraryText.builtin.load.toOption.getD .empty

/-- The shapes known in a document: the builtin ones, and if it parses
those it declares under names that are not taken. -/
def knownShapes (builtin : Registry) (document : String) : Registry :=
  match tokensOf document with
  | .error _ => builtin
  | .ok tokens =>
    match parseProgram tokens with
    | .error _ => builtin
    | .ok program => Registry.declareNew program.shapes builtin

end ShapeScript
