/-
ShapeScript.CommandLine — carrying out a command line.

A run reads the input file, or the standard input if none is named,
compiles it, and writes the document beside the input or where it was
told to; or it stops after a stage and saves that stage's artifact. It is
a function from the disk and the standard input to what is printed, how
the run ends, and the disk afterwards. Only the time that it took is put
in from outside.
-/
import ShapeScript.Pipeline
import ShapeScript.CommandLine.Arguments
import ShapeScript.Text.Lines

namespace ShapeScript.CommandLine

/-- What a run starts from: a terminal gives no standard input. -/
structure Surroundings where
  disk : Disk
  input : Option ByteArray
  library : LibraryText

/-- An error that a run does not handle. -/
inductive Escape where
  | disk (e : DiskError)
  | notText
  deriving DecidableEq, Repr

/-- How a run ends. -/
inductive Ending where
  | exit (status : Nat)
  | escaped (e : Escape)
  deriving DecidableEq, Repr

/-- What a run leaves behind. The time is reported at the end of the
standard output if the command line was accepted. -/
structure Outcome where
  ending : Ending
  out : String
  timed : Bool
  err : String
  disk : Disk

/-! ## Colours -/

/-- A text in a colour of the terminal. -/
def coloured (code text : String) : String := "\x1b[" ++ code ++ "m" ++ text ++ "\x1b[0m"

/-- The colour of errors. -/
def red (text : String) : String := coloured "91" text

/-- The colour of success. -/
def green (text : String) : String := coloured "92" text

/-- The colour of information. -/
def cyan (text : String) : String := coloured "96" text

/-- The standard output of a run that took a given time. -/
def Outcome.output (o : Outcome) (elapsed : String) : String :=
  if o.timed then
    o.out ++ "\n" ++ cyan ("--- Total Execution Time: " ++ elapsed ++ " seconds ---") ++ "\n"
  else o.out

/-! ## The run -/

/-- The text of bytes, with its line ends unified. -/
def textOf (bytes : ByteArray) : Option String :=
  (String.fromUTF8? bytes).map fun s => String.ofList (Text.unifyLineEnds s.toList)

/-- The name of the input file; an empty one counts as none. -/
def Request.file (r : Request) : Option String :=
  match r.input with
  | some "" => none
  | file => file

/-- How the input is called in what is printed. -/
def Request.inputLabel (r : Request) : String := r.file.getD "stdin"

/-- Where the document is written, as the command line says it. -/
def Request.documentPath (r : Request) : String :=
  match r.output, r.file with
  | some "", none | none, none => "stdin.svg"
  | some "", some file | none, some file => Path.withoutExtension file ++ ".svg"
  | some path, _ => path

/-- The stage whose artifact is asked for. -/
def Halt.stage : Halt → Stage
  | tokens => .tokens
  | tree => .tree

/-- The run of stages that a request asks for. -/
def Request.pipeline (r : Request) (disk : Disk) (library : LibraryText) (source : String) :
    Pipeline :=
  let stages := (r.halt.map fun h => h.stage.name).toList
  { source := source
    file := r.file.map disk.absolute
    saved := stages
    stopAfter := stages.head?
    library := library }

/-- The bytes of the input. -/
def Request.read (r : Request) (s : Surroundings) : Except DiskError ByteArray :=
  match r.file with
  | some path => s.disk.read (s.disk.absolute path)
  | none => .ok (s.input.getD ByteArray.empty)

/-- The outcome of a run that the file system stopped. -/
def diskOutcome (r : Request) (out : String) (disk : Disk) (e : DiskError) : Outcome :=
  if e = .notFound then
    { ending := .exit 1, out := out, timed := true, disk := disk
      err := red ("ERROR: Script file '" ++ r.inputLabel ++ "' not found.") ++ "\n" }
  else { ending := .escaped (.disk e), out := out, timed := true, err := "", disk := disk }

/-- What is printed about a failure of compilation. -/
def failureText (r : Request) : Failure → String
  | .problem p => "\n" ++ red ("--- COMPILATION ERROR ---\n" ++ p.render r.input) ++ "\n"
  | .defect message | .unforeseen message =>
    "\n" ++ red "--- UNEXPECTED COMPILER ERROR ---"
      ++ "\nThis may be a bug in the compiler. Please report it.\n"
      ++ "InternalCompilerError: " ++ message ++ "\n"

/-- Writes the document of a successful run. -/
def writeDocument (r : Request) (out : String) (disk : Disk) (svg : String) : Outcome :=
  let path := disk.absolute r.documentPath
  match disk.makeDirectories (Path.directoryOf path) with
  | .error e => diskOutcome r out disk e
  | .ok made =>
    match made.write path svg with
    | .error e => diskOutcome r out made e
    | .ok written =>
      { ending := .exit 0
        out := out ++ "\n" ++ green "--- Compilation Successful ---" ++ "\nSVG written to "
          ++ path ++ "\n"
        timed := true, err := "", disk := written }

/-- Compiles a source as a request asks. -/
def compileSource (r : Request) (s : Surroundings) (out source : String) : Outcome :=
  let ran := (r.pipeline s.disk s.library source).run s.disk
  let out := out ++ ran.2.printed
  match ran.1, r.halt with
  | .error f, _ =>
    { ending := .exit 1, out := out, timed := true, err := failureText r f, disk := ran.2.disk }
  | .ok _, some halt =>
    { ending := .exit 0
      out := out ++ "\n" ++ green ("--- Compilation to stage '" ++ halt.choice ++ " ("
        ++ halt.description ++ ")' successful ---") ++ "\n"
      timed := true, err := "", disk := ran.2.disk }
  | .ok (.document svg), none => writeDocument r out ran.2.disk svg
  | .ok _, none =>
    { ending := .exit 0, out := out, timed := true, err := "", disk := ran.2.disk }

/-- Carries out a request. -/
def carryOut (r : Request) (s : Surroundings) : Outcome :=
  if r.file.isNone && s.input.isNone then
    { ending := .exit 2, out := "", timed := false, disk := s.disk
      err := refusal "input_file is required when not reading from a pipe." }
  else
    let out := "--- Compiling " ++ r.inputLabel ++ " ---\n"
    match r.read s with
    | .error e => diskOutcome r out s.disk e
    | .ok bytes =>
      match textOf bytes with
      | none =>
        { ending := .escaped .notText, out := out, timed := true, err := "", disk := s.disk }
      | some source => compileSource r s out source

/-- The absolute paths that carrying out a request may read, write or
make. -/
def Request.paths (r : Request) (disk : Disk) : List String :=
  let input := (r.file.map disk.absolute).toList
  let output :=
    match r.halt with
    | none => disk.absolute r.documentPath
    | some halt =>
      disk.absolute ((r.pipeline disk .unreadable "").artifactPath disk halt.stage)
  (output :: input).flatMap fun path => path :: disk.parentsOf path

/-- Carries out a command line. -/
def run (words : List String) (s : Surroundings) : Outcome :=
  match parse words with
  | .error .help => { ending := .exit 0, out := help, timed := false, err := "", disk := s.disk }
  | .error (.refused message) =>
    { ending := .exit 2, out := "", timed := false, err := refusal message, disk := s.disk }
  | .ok r => carryOut r s

end ShapeScript.CommandLine
