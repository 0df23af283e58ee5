/-
ShapeScript.Node — any node of a syntax tree.

Programs are made of several types of nodes. Where they are handled
alike, as in a comparison of trees, they are gathered here under one
type, each with the name of its class.
-/
import ShapeScript.Failure
import ShapeScript.Program
import ShapeScript.Expr.Evaluation

namespace ShapeScript

/-- A node of any class. -/
inductive Node where
  | expr (e : Expr)
  | argument (a : Argument)
  | call (c : Call)
  | block (b : Block)
  | parameter (p : Parameter)
  | shape (s : Shape)
  | program (p : Program)
  deriving Repr

/-- The class name of an expression. -/
def Expr.className : Expr → String
  | number .. => "NumberLiteral"
  | string .. => "StringLiteral"
  | name .. => "Identifier"
  | binary .. => "BinaryExpression"
  | negation .. => "UnaryExpression"
  | grouping .. => "Grouping"

namespace Node

/-- The class name of a node. -/
def className : Node → String
  | expr e => e.className
  | argument _ => "NamedArgument"
  | call _ => "FunctionCall"
  | block _ => "Block"
  | parameter _ => "Parameter"
  | shape _ => "ShapeDefinition"
  | program _ => "Program"

/-- The value of a node in a scope. Only expressions have one; to ask for
that of another node is a defect. -/
def evaluate (scope : Scope) : Node → Except Failure Value
  | expr e => e.run scope
  | n => .error (.defect ("Unknown expression node '" ++ n.className ++ "'."))

end Node

end ShapeScript
