/-
ShapeScript.Artifact — token lists and trees as JSON.

What a stage of compilation gives can be saved. Fields have a fixed
order: a token's kind, value and span; a node's span first, then the
name of its kind if it is an expression, then its parts. Every span and
operator position is kept, so an artifact determines what it was made
from.
-/
import ShapeScript.Json
import ShapeScript.Node

namespace ShapeScript.Artifact

/-- A position. -/
def ofPosition (p : Position) : Json := .object [("line", .int p.line), ("column", .int p.column)]

/-- A span. -/
def ofSpan (s : Span) : Json := .object [("start", ofPosition s.start), ("end", ofPosition s.finish)]

/-- The value of a lexeme: that of a number, a name or a string. -/
def ofLexemeValue : Lexeme → Json
  | .number x => .number x
  | .identifier name => .string name
  | .string text => .string text
  | _ => .null

/-- A token. -/
def ofToken (t : Token) : Json :=
  .object [("type", .string t.kind.label), ("value", ofLexemeValue t.lexeme),
    ("span", ofSpan t.span)]

/-- A token list. -/
def ofTokens (ts : List Token) : Json := .array (ts.map ofToken)

/-- An expression. -/
def ofExpr : Expr → Json
  | .number x s => .object [("span", ofSpan s), ("kind", .string "number"), ("value", .number x)]
  | .string t s => .object [("span", ofSpan s), ("kind", .string "string"), ("value", .string t)]
  | .name n s => .object [("span", ofSpan s), ("kind", .string "identifier"), ("name", .string n)]
  | .binary left op right p s =>
    .object [("span", ofSpan s), ("kind", .string "binary"), ("left", ofExpr left),
      ("op", .string op.symbol), ("right", ofExpr right), ("op_pos", ofPosition p)]
  | .negation operand p s =>
    .object [("span", ofSpan s), ("kind", .string "unary"), ("op", .string "-"),
      ("operand", ofExpr operand), ("op_pos", ofPosition p)]
  | .grouping inner s =>
    .object [("span", ofSpan s), ("kind", .string "grouping"), ("inner", ofExpr inner)]

/-- An argument. -/
def ofArgument (a : Argument) : Json :=
  .object [("span", ofSpan a.span), ("name", .string a.name), ("value", ofExpr a.value)]

/-- A call. -/
def ofCall (c : Call) : Json :=
  .object [("span", ofSpan c.span), ("function", .string c.callee),
    ("args", .array (c.arguments.map ofArgument))]

/-- A block. -/
def ofBlock (b : Block) : Json :=
  .object [("span", ofSpan b.span), ("calls", .array (b.calls.map ofCall))]

/-- A parameter. -/
def ofParameter (p : Parameter) : Json :=
  .object [("span", ofSpan p.span), ("name", .string p.name),
    ("default", match p.fallback with | some e => ofExpr e | none => .null)]

/-- A declaration. -/
def ofShape (s : Shape) : Json :=
  .object [("span", ofSpan s.span), ("name", .string s.name),
    ("params", .array (s.parameters.map ofParameter)), ("body", ofBlock s.body)]

/-- A program. -/
def ofProgram (p : Program) : Json :=
  .object [("shapes", .array (p.shapes.map ofShape)), ("end", ofPosition p.finish)]

end ShapeScript.Artifact
