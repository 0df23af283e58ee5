/-
ShapeScript.Problem.Report — problems with freely chosen particulars.

Every fault has a code, and every code a template: a sentence with
fields in it. A report is made of a code, a position and details by
name, and its message is the template with each field replaced by the
display of the detail of that name. The details need not be those that
a fault of that code has, so a message can fail: a field may be missing,
or have a value that does not fit, or a detail may have a name that is
not free.
-/
import ShapeScript.Problem
import ShapeScript.Expr
import ShapeScript.Text.Quoted

namespace ShapeScript

/-! ## Codes and their templates -/

/-- The codes of the faults of all stages. -/
inductive Code where
  | invalidIdentifier
  | stringNeverTerminated
  | unexpectedCharacter
  | unexpectedEndOfInput
  | reservedWord
  | unbalancedParen
  | expected
  | variableNotDefined
  | shapeNotDefined
  | typeMismatch
  | svgExpectsString
  | shapeAlreadyDefined
  | argumentCount
  | missingArguments
  | missingRequiredArgument
  | invalidArgumentName
  | unexpectedArgument
  | stackOverflow
  | missingMain
  | libraryNotLoaded
  deriving DecidableEq, Repr

/-- The stage of compilation that a code belongs to. -/
inductive FaultStage where
  | lexing
  | parsing
  | evaluation
  deriving DecidableEq, Repr

/-- A piece of a template. -/
inductive Piece where
  | text (s : String)
  | field (name : String)
  deriving DecidableEq, Repr

namespace Code

/-- Every code. -/
def all : List Code :=
  [invalidIdentifier, stringNeverTerminated, unexpectedCharacter, unexpectedEndOfInput,
   reservedWord, unbalancedParen, expected, variableNotDefined, shapeNotDefined, typeMismatch,
   svgExpectsString, shapeAlreadyDefined, argumentCount, missingArguments,
   missingRequiredArgument, invalidArgumentName, unexpectedArgument, stackOverflow, missingMain,
   libraryNotLoaded]

/-- The code's name in capitals. -/
def name : Code → String
  | invalidIdentifier => "INVALID_IDENTIFIER"
  | stringNeverTerminated => "STRING_NEVER_TERMINATED"
  | unexpectedCharacter => "UNEXPECTED_CHARACTER"
  | unexpectedEndOfInput => "UNEXPECTED_END_OF_INPUT"
  | reservedWord => "IDENTIFIER_CANNOT_BE_RESERVED_WORD"
  | unbalancedParen => "UNBALANCED_PAREN"
  | expected => "EXPECTED"
  | variableNotDefined => "VARIABLE_NOT_DEFINED"
  | shapeNotDefined => "SHAPE_NOT_DEFINED"
  | typeMismatch => "TYPE_MISMATCH"
  | svgExpectsString => "SVG_EXPECTS_STRING"
  | shapeAlreadyDefined => "SHAPE_ALREADY_DEFINED"
  | argumentCount => "NUM_ARGS"
  | missingArguments => "MISSING_ARGS"
  | missingRequiredArgument => "MISSING_REQUIRED_ARG"
  | invalidArgumentName => "INVALID_ARG_NAME"
  | unexpectedArgument => "UNEXPECTED_ARG"
  | stackOverflow => "STACK_OVERFLOW"
  | missingMain => "MISSING_MAIN"
  | libraryNotLoaded => "STDLIB_NOT_LOADED"

/-- The stage that a code belongs to. -/
def stage : Code → FaultStage
  | invalidIdentifier | stringNeverTerminated | unexpectedCharacter => .lexing
  | unexpectedEndOfInput | reservedWord | unbalancedParen | expected => .parsing
  | _ => .evaluation

/-- The template of a code. -/
def template : Code → List Piece
  | invalidIdentifier => [.text "Invalid identifier."]
  | stringNeverTerminated => [.text "String literal is never terminated."]
  | unexpectedCharacter => [.text "Unexpected character '", .field "char", .text "'."]
  | unexpectedEndOfInput => [.text "Unexpected end of input."]
  | reservedWord => [.text "Identifier '", .field "name", .text "' cannot be a reserved word."]
  | unbalancedParen => [.text "Unbalanced parenthesis."]
  | expected => [.text "Expected ", .field "what", .text ". Found ", .field "found", .text "."]
  | variableNotDefined => [.text "Variable '", .field "name", .text "' is not defined."]
  | shapeNotDefined => [.text "Shape '", .field "name", .text "' is not defined."]
  | typeMismatch =>
    [.text "Type mismatch. Expected: ", .field "expected", .text ", Received: ",
     .field "received", .text "."]
  | svgExpectsString =>
    [.text "The svg value argument needs to be a string. Received: ", .field "received",
     .text "."]
  | shapeAlreadyDefined => [.text "Shape '", .field "name", .text "' is already defined."]
  | argumentCount =>
    [.text "Incorrect number of arguments to '", .field "name", .text "'. Expected: ",
     .field "expected", .text ", Received: ", .field "received", .text "."]
  | missingArguments =>
    [.text "Missing arguments ", .field "missing", .text " for '", .field "name", .text "'."]
  | missingRequiredArgument =>
    [.text "Missing required argument '", .field "param", .text "' to '", .field "name",
     .text "'."]
  | invalidArgumentName =>
    [.text "Shape '", .field "name", .text "' does not have an argument named '", .field "arg",
     .text "'."]
  | unexpectedArgument =>
    [.text "Unexpected argument '", .field "arg", .text "' to '", .field "name", .text "'."]
  | stackOverflow => [.text "Stack overflow\n    ", .field "frames"]
  | missingMain => [.text "Missing a 'main' shape with no parameters."]
  | libraryNotLoaded => [.text "Error ", .field "stage", .text " the builtin shape library."]

end Code

/-! ## Details -/

/-- An item of a list among the details. -/
inductive DetailItem where
  | text (s : String)
  | int (n : Int)
  | absent
  deriving DecidableEq, Repr

/-- The value of a detail. -/
inductive Detail where
  | text (s : String)
  | int (n : Int)
  | list (items : List DetailItem)
  | absent
  | kind (k : LexemeKind)
  | operator (op : BinaryOp)
  deriving DecidableEq, Repr

/-- The display of an item. -/
def DetailItem.display : DetailItem → String
  | text s => s
  | int n => toString n
  | absent => "None"

/-- How a detail stands in a message: the kind of a lexeme by its
description, an operator by its name, a list with commas. -/
def Detail.display : Detail → String
  | text s => s
  | int n => toString n
  | list items => joinTexts ", " (items.map DetailItem.display)
  | absent => "None"
  | kind k => k.description
  | operator op => op.name

/-- An item as it stands in a list shown with its brackets. -/
def DetailItem.shown : DetailItem → String
  | text s => Text.quoted s
  | int n => toString n
  | absent => "None"

/-- A detail as it is, not put into words. -/
def Detail.shown : Detail → String
  | text s => s
  | int n => toString n
  | list items => "[" ++ joinTexts ", " (items.map DetailItem.shown) ++ "]"
  | absent => "None"
  | kind k => "TokenType." ++ k.name
  | operator op => "BinaryOperator." ++ op.name

/-- The texts that a detail is made of, one for each frame of a stack: the
items of a list, or the characters of a text. -/
def Detail.frames? : Detail → Option (List String)
  | text s => some (s.toList.map Char.toString)
  | operator op => some (op.symbol.toList.map Char.toString)
  | list items => items.mapM fun
    | .text s => some s
    | _ => none
  | _ => none

abbrev Details := List (String × Detail)

/-! ## The particulars of faults -/

/-- The code of a lexical fault. -/
def LexFault.code : LexFault → Code
  | invalidIdentifier => .invalidIdentifier
  | unterminatedString => .stringNeverTerminated
  | unexpectedCharacter _ => .unexpectedCharacter

/-- The details of a lexical fault. -/
def LexFault.details : LexFault → Details
  | unexpectedCharacter c => [("char", .text c.toString)]
  | _ => []

/-- The code of a syntactic fault. -/
def ParseFault.code : ParseFault → Code
  | unexpectedEnd => .unexpectedEndOfInput
  | reservedWord _ => .reservedWord
  | unbalancedParen => .unbalancedParen
  | expected _ _ => .expected

/-- The details of a syntactic fault. -/
def ParseFault.details : ParseFault → Details
  | reservedWord name => [("name", .text name)]
  | expected what found => [("what", .text what), ("found", .kind found)]
  | _ => []

/-- The code of a fault of evaluation. -/
def EvalFault.code : EvalFault → Code
  | variableNotDefined _ => .variableNotDefined
  | shapeNotDefined _ => .shapeNotDefined
  | typeMismatch _ _ => .typeMismatch
  | svgExpectsString _ => .svgExpectsString
  | shapeAlreadyDefined _ => .shapeAlreadyDefined
  | argumentCount _ _ _ => .argumentCount
  | missingArguments _ _ => .missingArguments
  | missingRequiredArgument _ _ => .missingRequiredArgument
  | invalidArgumentName _ _ => .invalidArgumentName
  | unexpectedArgument _ _ => .unexpectedArgument
  | stackOverflow _ => .stackOverflow
  | missingMain => .missingMain
  | libraryNotLoaded _ => .libraryNotLoaded

/-- The details of a fault of evaluation. -/
def EvalFault.details : EvalFault → Details
  | variableNotDefined name | shapeNotDefined name | shapeAlreadyDefined name =>
    [("name", .text name)]
  | typeMismatch expected received =>
    [("expected", .text expected.name), ("received", .text received.name)]
  | svgExpectsString received => [("received", .text received.name)]
  | argumentCount name expected received =>
    [("name", .text name), ("expected", .int expected), ("received", .int received)]
  | missingArguments name missing =>
    [("name", .text name), ("missing", .list (missing.map .text))]
  | missingRequiredArgument name param => [("name", .text name), ("param", .text param)]
  | invalidArgumentName name arg | unexpectedArgument name arg =>
    [("name", .text name), ("arg", .text arg)]
  | stackOverflow frames => [("frames", .list (frames.map .text))]
  | missingMain => []
  | libraryNotLoaded stage => [("stage", .text stage.description)]

namespace Problem

/-- The stage that rejects the source. -/
def stage : Problem → FaultStage
  | lex _ => .lexing
  | parse _ => .parsing
  | eval _ => .evaluation

/-- The code of a problem. -/
def code : Problem → Code
  | lex e => e.fault.code
  | parse e => e.fault.code
  | eval e => e.fault.code

/-- The details of a problem. -/
def details : Problem → Details
  | lex e => e.fault.details
  | parse e => e.fault.details
  | eval e => e.fault.details

end Problem

/-! ## Reports -/

/-- Why a report has no message. -/
inductive ReportError where
  | missing (field : String)
  | illTyped (field : String)
  | nameTaken (name : String)
  deriving DecidableEq, Repr

/-- A code with any details, reported as a problem of some stage or of
none in particular. -/
structure Report where
  stage : Option FaultStage
  code : Code
  line : Int
  column : Int
  details : Details

/-- The report that a problem makes. -/
def Problem.report (p : Problem) : Report :=
  ⟨some p.stage, p.code, p.pos.line, p.pos.column, p.details⟩

/-- The names of what a report itself is made of, which no detail can
have. -/
def ownNames : List String := ["self", "code", "pos"]

/-- A template with its fields replaced. -/
def fillTemplate (details : Details) : List Piece → Except ReportError String
  | [] => .ok ""
  | .text s :: rest => (fillTemplate details rest).map (s ++ ·)
  | .field name :: rest =>
    match details.lookup name with
    | none => .error (.missing name)
    | some d => (fillTemplate details rest).map (d.display ++ ·)

namespace Report

/-- The message in which nothing was found. -/
def expectedOnly (r : Report) : Except ReportError String :=
  match r.details.lookup "what" with
  | none => .error (.missing "what")
  | some d => .ok ("Expected " ++ d.shown ++ ".")

/-- The message with a stack frame on each line. -/
def overflow (r : Report) : Except ReportError String :=
  match r.details.lookup "frames" with
  | none => .error (.missing "frames")
  | some d =>
    match d.frames? with
    | none => .error (.illTyped "frames")
    | some frames => .ok ("Stack overflow\n    " ++ joinTexts "\n    " frames)

/-- The message of a report whose details have free names. A syntactic
report leaves out what was found if nothing was, and a report of an
overflow during evaluation shows the frames one per line. -/
def sentence (r : Report) : Except ReportError String :=
  match r.stage, r.code with
  | some .parsing, .expected =>
    match r.details.lookup "found" with
    | none | some .absent => r.expectedOnly
    | some _ => fillTemplate r.details r.code.template
  | some .evaluation, .stackOverflow => r.overflow
  | _, code => fillTemplate r.details code.template

/-- The message. -/
def message (r : Report) : Except ReportError String :=
  match r.details.find? fun d => ownNames.contains d.1 with
  | some (name, _) => .error (.nameTaken name)
  | none => r.sentence

/-- The report as shown to people. -/
def render (r : Report) (file : Option String) : Except ReportError String :=
  r.message.map (renderAt file r.line r.column)

/-- The report as a compact line. -/
def compact (r : Report) : Except ReportError String := r.message.map (compactAt r.line r.column)

end Report

end ShapeScript
