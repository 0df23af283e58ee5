/-
ShapeScript.Token — lexemes and tokens.

A lexeme is what a stretch of source says; its kind forgets the value of
a number, a name or a string. A token is a lexeme together with the span
it was read from.
-/
import ShapeScript.Position

namespace ShapeScript

/-- The kinds of lexemes. -/
inductive LexemeKind where
  | openParen
  | closeParen
  | openBrace
  | closeBrace
  | times
  | divide
  | plus
  | minus
  | assign
  | compare
  | colon
  | comma
  | number
  | identifier
  | string
  deriving DecidableEq, Repr

namespace LexemeKind

/-- Every kind. -/
def all : List LexemeKind :=
  [openParen, closeParen, openBrace, closeBrace, times, divide, plus, minus, assign, compare,
   colon, comma, number, identifier, string]

/-- How a message calls a lexeme of the kind. -/
def description : LexemeKind → String
  | openParen => "an opening parenthesis '('"
  | closeParen => "a closing parenthesis ')'"
  | openBrace => "an opening brace '\x7b'"
  | closeBrace => "a closing brace '\x7d'"
  | times => "a multiplication sign '*'"
  | divide => "a division sign '/'"
  | plus => "a plus sign '+'"
  | minus => "a minus sign '-'"
  | assign => "an equals sign '='"
  | compare => "a comparison '=='"
  | colon => "a colon ':'"
  | comma => "a comma ','"
  | number => "a number"
  | identifier => "a name"
  | string => "a string in double quotes"

/-- The text by which an artifact names the kind: the lexeme itself where
it has only one spelling. -/
def label : LexemeKind → String
  | openParen => "("
  | closeParen => ")"
  | openBrace => "\x7b"
  | closeBrace => "\x7d"
  | times => "*"
  | divide => "/"
  | plus => "+"
  | minus => "-"
  | assign => "="
  | compare => "=="
  | colon => ":"
  | comma => ","
  | number => "number"
  | identifier => "identifier"
  | string => "string"

/-- The kind's name in capitals. -/
def name : LexemeKind → String
  | openParen => "LPAREN"
  | closeParen => "RPAREN"
  | openBrace => "LCURLY"
  | closeBrace => "RCURLY"
  | times => "TIMES"
  | divide => "DIVIDE"
  | plus => "PLUS"
  | minus => "MINUS"
  | assign => "EQUALS"
  | compare => "COMPARE"
  | colon => "COLON"
  | comma => "COMMA"
  | number => "NUMBER"
  | identifier => "IDENTIFIER"
  | string => "STRING"

/-- The kind of a given name. -/
def ofName? (s : String) : Option LexemeKind := all.find? (·.name == s)

end LexemeKind

/-- A lexeme: a mark with one spelling, or a number, a name or a string
with its value. -/
inductive Lexeme where
  | openParen
  | closeParen
  | openBrace
  | closeBrace
  | times
  | divide
  | plus
  | minus
  | assign
  | compare
  | colon
  | comma
  | number (value : Float)
  | identifier (name : String)
  | string (text : String)
  deriving Repr

/-- What kind of lexeme it is. -/
def Lexeme.kind : Lexeme → LexemeKind
  | openParen => .openParen
  | closeParen => .closeParen
  | openBrace => .openBrace
  | closeBrace => .closeBrace
  | times => .times
  | divide => .divide
  | plus => .plus
  | minus => .minus
  | assign => .assign
  | compare => .compare
  | colon => .colon
  | comma => .comma
  | number _ => .number
  | identifier _ => .identifier
  | string _ => .string

/-- A lexeme and where it stands. -/
structure Token where
  lexeme : Lexeme
  span : Span
  deriving Repr

/-- A token's kind. -/
def Token.kind (t : Token) : LexemeKind := t.lexeme.kind

/-- The position that diagnostics about a token point at. -/
def Token.pos (t : Token) : Position := t.span.start

/-- Where a token list ends: after its last token, or at the origin if
there is none. -/
def endOf (ts : List Token) : Position :=
  match ts.getLast? with
  | some t => t.span.finish
  | none => .origin

end ShapeScript
