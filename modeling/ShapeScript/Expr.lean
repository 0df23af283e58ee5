/-
ShapeScript.Expr — expressions.

An expression is a number, a string, a parameter's name, an operator
applied to operands, or a grouping in parentheses, which stays a node of
its own. Every node has the span it was read from; a node with an
operator also has the operator's position, and that is where diagnostics
about it point.
-/
import ShapeScript.Position

namespace ShapeScript

/-- The operators between two operands. -/
inductive BinaryOp where
  | times
  | divide
  | plus
  | minus
  deriving DecidableEq, Repr

namespace BinaryOp

/-- Every operator. -/
def all : List BinaryOp := [times, divide, plus, minus]

/-- How the operator is written. -/
def symbol : BinaryOp → String
  | times => "*"
  | divide => "/"
  | plus => "+"
  | minus => "-"

/-- The operator's name in capitals. -/
def name : BinaryOp → String
  | times => "MUL"
  | divide => "DIV"
  | plus => "ADD"
  | minus => "SUB"

/-- How tightly the operator binds what stands to its left and right:
products above sums. -/
def power : BinaryOp → Int
  | times | divide => 40
  | plus | minus => 30

/-- The operator written by a symbol. -/
def ofSymbol? (s : String) : Option BinaryOp := all.find? (·.symbol == s)

/-- The operator of a given name. -/
def ofName? (s : String) : Option BinaryOp := all.find? (·.name == s)

end BinaryOp

/-- An expression. -/
inductive Expr where
  | number (value : Float) (span : Span)
  | string (text : String) (span : Span)
  | name (name : String) (span : Span)
  | binary (left : Expr) (op : BinaryOp) (right : Expr) (opPos : Position) (span : Span)
  | negation (operand : Expr) (opPos : Position) (span : Span)
  | grouping (inner : Expr) (span : Span)
  deriving Repr

namespace Expr

/-- The span an expression was read from. -/
def span : Expr → Span
  | number _ s | string _ s | name _ s | binary _ _ _ _ s | negation _ _ s | grouping _ s => s

/-- The position that diagnostics about an expression point at: the
operator's, that of what a grouping holds, or the start of the span. -/
def pos : Expr → Position
  | number _ s | string _ s | name _ s => s.start
  | binary _ _ _ p _ | negation _ p _ => p
  | grouping inner _ => inner.pos

end Expr

end ShapeScript
