/-
ShapeScript.Registry — the shapes that can be called.

A registry lists declarations in the order in which they were
registered. A program is registered on a registry as a whole: a name
that is taken rejects it, and so does, when one is required, the lack of
a parameterless `main`.
-/
import ShapeScript.Problem
import ShapeScript.Program

namespace ShapeScript

/-- The registered declarations, in order. -/
structure Registry where
  shapes : List Shape
  deriving Repr

namespace Registry

/-- No shapes. -/
def empty : Registry := ⟨[]⟩

/-- The declaration of a name. -/
def find? (r : Registry) (name : String) : Option Shape := r.shapes.find? (·.name == name)

/-- A name is taken. -/
def contains (r : Registry) (name : String) : Bool := r.shapes.any (·.name == name)

/-- The registry with one more declaration at its end. -/
def insert (r : Registry) (shape : Shape) : Registry := ⟨r.shapes ++ [shape]⟩

/-- Registers declarations one after the other; a taken name is reported
at the declaration that repeats it. -/
def declare : List Shape → Registry → Except EvalError Registry
  | [], r => .ok r
  | shape :: shapes, r =>
    if r.contains shape.name then .error ⟨.shapeAlreadyDefined shape.name, shape.pos⟩
    else declare shapes (r.insert shape)

/-- Registers the declarations whose names are not taken and leaves out
the others. -/
def declareNew : List Shape → Registry → Registry
  | [], r => r
  | shape :: shapes, r =>
    declareNew shapes (if r.contains shape.name then r else r.insert shape)

end Registry

/-- The program declares the shape where evaluation starts, without
parameters. -/
def Program.hasMain (p : Program) : Bool :=
  p.shapes.any fun shape => shape.name == mainName && shape.parameters.isEmpty

/-- Registers a program's shapes on a registry. -/
def Registry.register (base : Registry) (program : Program) (requireMain : Bool) :
    Except EvalError Registry :=
  match Registry.declare program.shapes base with
  | .error e => .error e
  | .ok r =>
    if requireMain && !program.hasMain then .error ⟨.missingMain, program.finish⟩ else .ok r

end ShapeScript
