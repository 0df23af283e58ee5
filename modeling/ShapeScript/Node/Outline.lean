/-
ShapeScript.Node.Outline — what a tree says, without where it says it.

The outline of a node keeps its class and its fields in their order, but
no span and no operator position. Only the end of a program is kept,
being a field of its own. Two trees are compared by their outlines.
-/
import ShapeScript.Node

namespace ShapeScript

/-- A tree without positions. -/
inductive Outline where
  | absent
  | number (x : Float)
  | text (s : String)
  | count (n : Int)
  | binaryOp (op : BinaryOp)
  | negationOp
  | list (items : List Outline)
  | record (className : String) (fields : List (String × Outline))

namespace Outline

/-- The outline of a position. -/
def ofPosition (p : Position) : Outline :=
  .record "Position" [("line", .count p.line), ("column", .count p.column)]

/-- The outline of an expression. -/
def ofExpr : Expr → Outline
  | .number x _ => .record "NumberLiteral" [("kind", .text "number"), ("value", .number x)]
  | .string s _ => .record "StringLiteral" [("kind", .text "string"), ("value", .text s)]
  | .name n _ => .record "Identifier" [("kind", .text "identifier"), ("name", .text n)]
  | .binary left op right _ _ =>
    .record "BinaryExpression"
      [("kind", .text "binary"), ("left", ofExpr left), ("op", .binaryOp op),
       ("right", ofExpr right)]
  | .negation operand _ _ =>
    .record "UnaryExpression"
      [("kind", .text "unary"), ("op", .negationOp), ("operand", ofExpr operand)]
  | .grouping inner _ =>
    .record "Grouping" [("kind", .text "grouping"), ("inner", ofExpr inner)]

/-- The outline of an argument. -/
def ofArgument (a : Argument) : Outline :=
  .record "NamedArgument" [("name", .text a.name), ("value", ofExpr a.value)]

/-- The outline of a call. -/
def ofCall (c : Call) : Outline :=
  .record "FunctionCall"
    [("function", .text c.callee), ("args", .list (c.arguments.map ofArgument))]

/-- The outline of a block. -/
def ofBlock (b : Block) : Outline := .record "Block" [("calls", .list (b.calls.map ofCall))]

/-- The outline of a parameter. -/
def ofParameter (p : Parameter) : Outline :=
  .record "Parameter"
    [("name", .text p.name),
     ("default", match p.fallback with | some e => ofExpr e | none => .absent)]

/-- The outline of a declaration. -/
def ofShape (s : Shape) : Outline :=
  .record "ShapeDefinition"
    [("name", .text s.name), ("params", .list (s.parameters.map ofParameter)),
     ("body", ofBlock s.body)]

/-- The outline of a program. -/
def ofProgram (p : Program) : Outline :=
  .record "Program" [("shapes", .list (p.shapes.map ofShape)), ("end", ofPosition p.finish)]

end Outline

/-- The outline of a node. -/
def Node.outline : Node → Outline
  | expr e => .ofExpr e
  | argument a => .ofArgument a
  | call c => .ofCall c
  | block b => .ofBlock b
  | parameter p => .ofParameter p
  | shape s => .ofShape s
  | program p => .ofProgram p

end ShapeScript
