/-
ShapeScript.CommandLine.Arguments — what the words of a command line ask
for.

A command line has options and at most one operand, the input file. The
words are first classified, all of them, and then taken from left to
right. A long option may be shortened as long as it stays the only one,
and takes its value from behind an equals sign or from the next word; a
short option may also have its value joined to it, with or without an
equals sign. After `--` every word is an operand. Words that nothing
takes are refused together at the end.
-/
import ShapeScript.Text.Digit
import ShapeScript.Text.Quoted
import ShapeScript.Problem

namespace ShapeScript.CommandLine

/-! ## Options -/

/-- The options. -/
inductive Flag where
  | help
  | output
  | compile
  deriving DecidableEq, Repr

namespace Flag

/-- Every option. -/
def all : List Flag := [help, output, compile]

/-- The long spelling. -/
def long : Flag → String
  | help => "--help"
  | output => "--output"
  | compile => "--compile"

/-- The letter of the short spelling. -/
def letter : Flag → Char
  | help => 'h'
  | output => 'o'
  | compile => 'c'

/-- Both spellings, as messages name the option. -/
def names (f : Flag) : String := String.ofList ['-', f.letter] ++ "/" ++ f.long

/-- The option with a letter. -/
def ofLetter? (c : Char) : Option Flag := all.find? (·.letter == c)

end Flag

/-- A classified word. The word of an option may have the option's value
attached. -/
inductive Word where
  | operand (text : String)
  | separator
  | flag (f : Flag) (short : Bool) (attached : Option (List Char))
  | unknown (text : String)
  deriving DecidableEq, Repr

/-! ## Classification -/

/-- The text before the first equals sign, and the one after it. -/
def splitEquals (cs : List Char) : List Char × Option (List Char) :=
  match cs.dropWhile (· != '=') with
  | [] => (cs, none)
  | _ :: after => (cs.takeWhile (· != '='), some after)

/-- Digits and nothing else but a line feed that may end them; there is
at least one digit. -/
def isDigits (cs : List Char) : Bool :=
  match cs.dropWhile Text.isDecimalDigit with
  | [] => !cs.isEmpty
  | ['\n'] => 1 < cs.length
  | _ => false

/-- A word that writes a negative number: a minus sign and digits, which
may have a point before or among them. A line feed may end it. -/
def isNegativeNumber : List Char → Bool
  | '-' :: cs =>
    isDigits cs ||
      match cs.dropWhile Text.isDecimalDigit with
      | '.' :: ds => isDigits ds
      | _ => false
  | _ => false

/-- Classifies a word that starts with `-` and is no option as it
stands: negative numbers and texts with a blank are operands. -/
def classifyOther (text : String) : Word :=
  if isNegativeNumber text.toList || text.toList.contains ' ' then .operand text
  else .unknown text

/-- Classifies a word. One that could be several options is refused. -/
def classifyWord (text : String) : Except String Word :=
  match text.toList with
  | '-' :: '-' :: _ =>
    let (spelled, after) := splitEquals text.toList
    match Flag.all.filter fun f => spelled.isPrefixOf f.long.toList with
    | [] => .ok (classifyOther text)
    | [f] => .ok (.flag f false after)
    | matching => .error ("ambiguous option: " ++ text ++ " could match "
        ++ joinTexts ", " (matching.map Flag.long))
  | ['-'] => .ok (.operand text)
  | '-' :: c :: rest =>
    match Flag.ofLetter? c with
    | none => .ok (classifyOther text)
    | some f =>
      match rest with
      | [] => .ok (.flag f true none)
      | '=' :: after => .ok (.flag f true (some after))
      | rest => .ok (.flag f true (some rest))
  | _ => .ok (.operand text)

/-- Classifies the words of a command line. -/
def classify : List String → Except String (List Word)
  | [] => .ok []
  | word :: words =>
    if word = "--" then .ok (.separator :: words.map .operand)
    else
      match classifyWord word with
      | .error e => .error e
      | .ok w =>
        match classify words with
        | .error e => .error e
        | .ok ws => .ok (w :: ws)

/-! ## Requests -/

/-- The stages after which a run can be told to stop. -/
inductive Halt where
  | tokens
  | tree
  deriving DecidableEq, Repr

namespace Halt

/-- Every choice. -/
def all : List Halt := [tokens, tree]

/-- How the choice is written. -/
def choice : Halt → String
  | tokens => "1"
  | tree => "2"

/-- What the choice stops at. -/
def description : Halt → String
  | tokens => "Token Stream"
  | tree => "Abstract Syntax Tree"

end Halt

/-- What a command line asks for. -/
structure Request where
  input : Option String
  output : Option String
  halt : Option Halt
  deriving DecidableEq, Repr

/-- Why a command line is not carried out: the help was asked for, or it
is refused with a message. -/
inductive Stop where
  | help
  | refused (message : String)
  deriving DecidableEq, Repr

/-- The message of an option that is refused. -/
def refuse (f : Flag) (reason : String) : Stop := .refused ("argument " ++ f.names ++ ": " ++ reason)

/-- The refusal of a value for an option that takes none. -/
def ignored (text : List Char) : Stop :=
  refuse .help ("ignored explicit argument " ++ Text.quoted (String.ofList text))

/-- The words that follow start with an operand. -/
def operandFollows : List Word → Bool
  | .operand _ :: _ => true
  | _ => false

/-- What letters attached to the short help option make of it. They are
further options: the first that takes a value ends them, its value being
what is left of the letters or the next word. A letter that is no option
is refused together with those behind it. -/
def helpLetters (rest : List Word) : List Char → Stop
  | [] => .help
  | c :: cs =>
    match Flag.ofLetter? c, cs with
    | some .help, cs => helpLetters rest cs
    | some f, [] => if operandFollows rest then .help else refuse f "expected one argument"
    | some _, _ => .help
    | none, cs => ignored (c :: cs)

/-- What the help option makes of a command line. -/
def helpStop (short : Bool) (rest : List Word) : Option (List Char) → Stop
  | none => .help
  | some text => if short ∧ text ≠ [] then helpLetters rest text else ignored text

/-- What has been taken from a command line so far. The operand's place
is free until it is taken, which an operand that is left out does too. -/
structure Taken where
  request : Request
  free : Bool
  extras : List String

namespace Taken

/-- Nothing was taken yet. -/
def nothing : Taken := ⟨⟨none, none, none⟩, true, []⟩

/-- A word that nothing takes. -/
def extra (t : Taken) (word : String) : Taken := { t with extras := t.extras ++ [word] }

/-- Takes the operand. -/
def operand (t : Taken) (input : Option String) : Taken :=
  { t with request := { t.request with input := input }, free := false }

/-- Takes back the value of an option. -/
def withdraw (t : Taken) (f : Flag) : Taken :=
  match f with
  | .help => t
  | .output => { t with request := { t.request with output := none } }
  | .compile => { t with request := { t.request with halt := none } }

/-- Gives an option its value. The separator is no value: attached to an
option it leaves the option without one. -/
def value (t : Taken) (f : Flag) (text : String) : Except Stop Taken :=
  if text = "--" then .ok (t.withdraw f)
  else match f with
  | .help => .error .help
  | .output => .ok { t with request := { t.request with output := some text } }
  | .compile =>
    match Halt.all.find? (·.choice == text) with
    | some halt => .ok { t with request := { t.request with halt := some halt } }
    | none => .error (refuse f ("invalid choice: " ++ Text.quoted text ++ " (choose from "
        ++ joinTexts ", " (Halt.all.map fun h => Text.quoted h.choice) ++ ")"))

end Taken

/-- Takes the words from left to right. -/
def takeWords : List Word → Taken → Except Stop Taken
  | [], t => .ok t
  | .unknown text :: rest, t => takeWords rest (t.extra text)
  | .flag .help short attached :: rest, _ => .error (helpStop short rest attached)
  | .flag f _ attached :: rest, t =>
    match attached, rest with
    | some text, rest =>
      match t.value f (String.ofList text) with
      | .error stop => .error stop
      | .ok t => takeWords rest t
    | none, .operand text :: rest =>
      match t.value f text with
      | .error stop => .error stop
      | .ok t => takeWords rest t
    | none, _ => .error (refuse f "expected one argument")
  | .operand text :: rest, t =>
    if t.free then
      match rest with
      | .separator :: rest => takeWords rest (t.operand (some text))
      | rest => takeWords rest (t.operand (some text))
    else takeWords rest (t.extra text)
  | .separator :: rest, t =>
    if t.free then
      match rest with
      | .operand text :: rest => takeWords rest (t.operand (some text))
      | rest => takeWords rest (t.operand none)
    else takeWords rest (t.extra "--")
termination_by words => words.length

/-- What a command line asks for. -/
def parse (words : List String) : Except Stop Request :=
  match classify words with
  | .error message => .error (.refused message)
  | .ok words =>
    match takeWords words .nothing with
    | .error stop => .error stop
    | .ok t =>
      if t.extras.isEmpty then .ok t.request
      else .error (.refused ("unrecognized arguments: " ++ joinTexts " " t.extras))

/-! ## Texts -/

/-- The usage line. -/
def usage : String := "usage: ssc [-h] [-o OUTPUT_FILE] [-c \x7b1,2\x7d] [input_file]\n"

/-- The help. -/
def help : String :=
  usage
    ++ "\nCompile a .shape file into an .svg document.\n"
    ++ "\npositional arguments:\n"
    ++ "  input_file            The path to the input .shape file. Omit to read from\n"
    ++ "                        stdin.\n"
    ++ "\noptions:\n"
    ++ "  -h, --help            show this help message and exit\n"
    ++ "  -o OUTPUT_FILE, --output OUTPUT_FILE\n"
    ++ "                        The path to the output .svg file. Only used for full\n"
    ++ "                        compilation.\n"
    ++ "  -c \x7b1,2\x7d, --compile \x7b1,2\x7d\n"
    ++ "                        Compile up to a specific stage and save the\n"
    ++ "                        intermediate artifact. '1' for Token Stream. '2' for\n"
    ++ "                        Abstract Syntax Tree. Omitting this flag runs the full\n"
    ++ "                        pipeline to generate the final .svg document.\n"

/-- The usage line and the message of a refusal. -/
def refusal (message : String) : String := usage ++ "ssc: error: " ++ message ++ "\n"

end ShapeScript.CommandLine
