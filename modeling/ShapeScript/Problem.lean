/-
ShapeScript.Problem — what can be wrong with a source text.

Three stages can reject a source: reading its lexemes, parsing them, and
evaluating the program. Each has its own type of faults, which carry the
particulars; a problem is a fault at a position. The message of a fault
is a sentence, and a problem is shown either with its position counted
from one, for people, or as a compact line counted from zero.
-/
import ShapeScript.Token

namespace ShapeScript

/-- A fault and the position it is reported at. -/
structure Located (φ : Type) where
  fault : φ
  pos : Position

/-! ## Faults of the three stages -/

/-- Why a text has no next lexeme. -/
inductive LexFault where
  /-- A name was asked for where no letter stands. -/
  | invalidIdentifier
  /-- A string has no closing quote. -/
  | unterminatedString
  /-- No lexeme starts with this character. -/
  | unexpectedCharacter (c : Char)
  deriving DecidableEq, Repr

/-- Why a token list is not what a reader wants. -/
inductive ParseFault where
  /-- The tokens ran out. -/
  | unexpectedEnd
  /-- A reserved word stands where a name is wanted. -/
  | reservedWord (name : String)
  /-- An opening parenthesis whose expression is not followed by a closing
  one. -/
  | unbalancedParen
  /-- Another kind of lexeme was wanted. -/
  | expected (what : String) (found : LexemeKind)
  deriving DecidableEq, Repr

/-- The step of loading the builtin library that failed. -/
inductive LoadStage where
  | reading
  | lexing
  | parsing
  | registering
  deriving DecidableEq, Repr

/-- How a message names the step. -/
def LoadStage.description : LoadStage → String
  | reading => "reading"
  | lexing => "lexing"
  | parsing => "parsing"
  | registering => "registering shapes for"

/-- The two types of values. -/
inductive ValueType where
  | number
  | string
  deriving DecidableEq, Repr

/-- The name of a type. -/
def ValueType.name : ValueType → String
  | number => "number"
  | string => "string"

/-- Why a program has no document. -/
inductive EvalFault where
  | variableNotDefined (name : String)
  | shapeNotDefined (name : String)
  | typeMismatch (expected received : ValueType)
  | svgExpectsString (received : ValueType)
  | shapeAlreadyDefined (name : String)
  | argumentCount (name : String) (expected received : Nat)
  | missingArguments (name : String) (missing : List String)
  | missingRequiredArgument (name param : String)
  | invalidArgumentName (name arg : String)
  | unexpectedArgument (name arg : String)
  | stackOverflow (frames : List String)
  | missingMain
  | libraryNotLoaded (stage : LoadStage)
  deriving DecidableEq, Repr

abbrev LexError := Located LexFault
abbrev ParseError := Located ParseFault
abbrev EvalError := Located EvalFault

/-! ## Messages -/

/-- Texts joined with a separator between them. -/
def joinTexts (separator : String) : List String → String
  | [] => ""
  | [s] => s
  | s :: more => s ++ separator ++ joinTexts separator more

/-- The sentence for a lexical fault. -/
def LexFault.message : LexFault → String
  | invalidIdentifier => "Invalid identifier."
  | unterminatedString => "String literal is never terminated."
  | unexpectedCharacter c => "Unexpected character '" ++ c.toString ++ "'."

/-- The sentence for a syntactic fault. -/
def ParseFault.message : ParseFault → String
  | unexpectedEnd => "Unexpected end of input."
  | reservedWord name => "Identifier '" ++ name ++ "' cannot be a reserved word."
  | unbalancedParen => "Unbalanced parenthesis."
  | expected what found => "Expected " ++ what ++ ". Found " ++ found.description ++ "."

/-- The sentence for a fault of evaluation; stack frames stand one per
line. -/
def EvalFault.message : EvalFault → String
  | variableNotDefined name => "Variable '" ++ name ++ "' is not defined."
  | shapeNotDefined name => "Shape '" ++ name ++ "' is not defined."
  | typeMismatch expected received =>
    "Type mismatch. Expected: " ++ expected.name ++ ", Received: " ++ received.name ++ "."
  | svgExpectsString received =>
    "The svg value argument needs to be a string. Received: " ++ received.name ++ "."
  | shapeAlreadyDefined name => "Shape '" ++ name ++ "' is already defined."
  | argumentCount name expected received =>
    "Incorrect number of arguments to '" ++ name ++ "'. Expected: " ++ toString expected
      ++ ", Received: " ++ toString received ++ "."
  | missingArguments name missing =>
    "Missing arguments " ++ joinTexts ", " missing ++ " for '" ++ name ++ "'."
  | missingRequiredArgument name param =>
    "Missing required argument '" ++ param ++ "' to '" ++ name ++ "'."
  | invalidArgumentName name arg =>
    "Shape '" ++ name ++ "' does not have an argument named '" ++ arg ++ "'."
  | unexpectedArgument name arg => "Unexpected argument '" ++ arg ++ "' to '" ++ name ++ "'."
  | stackOverflow frames => "Stack overflow\n    " ++ joinTexts "\n    " frames
  | missingMain => "Missing a 'main' shape with no parameters."
  | libraryNotLoaded stage => "Error " ++ stage.description ++ " the builtin shape library."

/-! ## Problems of any stage -/

/-- A rejected source: the stage that rejected it, and why and where. -/
inductive Problem where
  | lex (e : LexError)
  | parse (e : ParseError)
  | eval (e : EvalError)

namespace Problem

/-- Where the problem lies. -/
def pos : Problem → Position
  | lex e => e.pos
  | parse e => e.pos
  | eval e => e.pos

/-- What the problem is. -/
def message : Problem → String
  | lex e => e.fault.message
  | parse e => e.fault.message
  | eval e => e.fault.message

end Problem

/-- A message headed by the place it is about, counted from one. An empty
file name counts as none. -/
def renderAt (file : Option String) (line column : Int) (message : String) : String :=
  let place := "(Line: " ++ toString (line + 1) ++ ", Column: " ++ toString (column + 1) ++ "):\n"
  match file with
  | none | some "" => "Error " ++ place ++ message
  | some path => "Error in '" ++ path ++ "' " ++ place ++ message

/-- A message on one line with its place, counted from zero. -/
def compactAt (line column : Int) (message : String) : String :=
  "[" ++ toString line ++ ":" ++ toString column ++ "]: " ++ message

/-- The problem as shown to people. -/
def Problem.render (p : Problem) (file : Option String) : String :=
  renderAt file p.pos.line p.pos.column p.message

/-- The problem as a compact line. -/
def Problem.compact (p : Problem) : String := compactAt p.pos.line p.pos.column p.message

end ShapeScript
