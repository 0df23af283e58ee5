/-
ShapeScript.Pipeline — compiling stage by stage.

A run scans, parses and evaluates a source, and may stop after a stage.
What each stage gives is recorded, and saved as an artifact if that was
asked for. The file system can refuse to save it; that is printed and
the run goes on, so neither the result nor the record depends on what is
saved. Only if the file's name is no path at all does saving end the run.
-/
import ShapeScript.Document
import ShapeScript.Artifact
import ShapeScript.Disk
import ShapeScript.Json.Encoder
import ShapeScript.Json.Printer

namespace ShapeScript

/-- The stages of compilation. -/
inductive Stage where
  | tokens
  | tree
  | document
  deriving DecidableEq, Repr

/-- The name of a stage, which is also that of its artifact. -/
def Stage.name : Stage → String
  | tokens => "tokens"
  | tree => "ast"
  | document => "svg"

/-- What a stage gives. -/
inductive Product where
  | tokens (ts : List Token)
  | tree (p : Program)
  | document (svg : String)

namespace Product

/-- The stage that gives it. -/
def stage : Product → Stage
  | tokens _ => .tokens
  | tree _ => .tree
  | document _ => .document

/-- Its artifact. -/
def artifact : Product → Json
  | tokens ts => Artifact.ofTokens ts
  | tree p => Artifact.ofProgram p
  | document svg => .string svg

/-- What the encoder is given of it: tokens one by one, a whole tree, or a
text. -/
def data : Product → Json.Data
  | tokens ts => .list (ts.map fun t => .model (Artifact.ofToken t))
  | tree p => .model (Artifact.ofProgram p)
  | document svg => .plain (.string svg)

/-- It always has a form, and that is its artifact. -/
theorem encode_data (x : Product) : x.data.encode = .ok x.artifact := by
  cases x with
  | tokens ts =>
    rw [data, Json.Data.encode, Json.Data.encodeItems_map fun t => by rw [Json.Data.encode]]
    rfl
  | tree p => rw [data, Json.Data.encode, artifact]
  | document svg => rw [data, Json.Data.encode, artifact]

end Product

/-- The layout of artifacts: two blanks for each level. -/
def artifactLayout : Json.Layout := .indented "  "

/-- What a run is asked for: the source and the file it is from, which
artifacts to save, after which stage to stop, and the library. Stages
are asked for by name, and other names have no effect. -/
structure Pipeline where
  source : String
  file : Option String
  saved : List String
  stopAfter : Option String
  library : LibraryText

/-- How far a run came: what its stages gave, in order and by name, the
disk, and what was printed. -/
structure Progress where
  results : List Product
  artifacts : List (String × Product)
  disk : Disk
  printed : String

namespace Pipeline

/-- How the absence of a file is shown. -/
def noFile : String := "<stdin>"

/-- The file that the source is from, made absolute. -/
def fileLabel (p : Pipeline) (disk : Disk) : String :=
  match p.file with
  | none | some "" => noFile
  | some path => disk.absolute path

/-- Where the artifact of a stage is saved: beside the file, under its
name without the extension, or in the working directory. -/
def artifactPath (p : Pipeline) (disk : Disk) (stage : Stage) : String :=
  let base :=
    match p.file with
    | none | some "" => "stdin_output"
    | some path => Path.withoutExtension (disk.absolute path)
  base ++ "." ++ stage.name ++ ".json"

/-- What is printed if the disk refuses an artifact. -/
def refusalText (name path : String) (e : DiskError) : String :=
  match e.number? with
  | none => ""
  | some n =>
    "Error: Could not save artifact '" ++ name ++ "': [Errno " ++ toString n ++ "] "
      ++ e.description ++ ": " ++ Text.quoted path ++ "\n"

/-- Saves an artifact and prints that it does; if the disk refuses, that
is printed too. -/
def save (p : Pipeline) (product : Product) (s : Progress) : Progress :=
  let name := product.stage.name
  let path := p.artifactPath s.disk product.stage
  let announced := s.printed ++ "--- Saving artifact '" ++ name ++ "' to " ++ path ++ " ---\n"
  match s.disk.write (s.disk.absolute path) (product.artifact.text artifactLayout) with
  | .ok disk => { s with disk := disk, printed := announced }
  | .error e => { s with printed := announced ++ refusalText name path e }

/-- Records what a stage gave, and saves it if that was asked for. -/
def record (p : Pipeline) (product : Product) (s : Progress) : Progress :=
  let s := { s with
    results := s.results ++ [product]
    artifacts := Json.setMember s.artifacts product.stage.name product }
  if p.saved.contains product.stage.name then p.save product s else s

/-- The run is to stop after a stage. -/
def stopsAfter (p : Pipeline) (stage : Stage) : Bool := p.stopAfter == some stage.name

/-- The artifact of a stage is to be saved, but the file's name is no
path. -/
def isStuck (p : Pipeline) (disk : Disk) (stage : Stage) : Bool :=
  p.saved.contains stage.name && (p.artifactPath disk stage).toList.contains '\x00'

/-- Goes on after a stage: records what it gave, and unless that fails or
ends the run does the rest. -/
def andThen (p : Pipeline) (product : Product) (s : Progress)
    (rest : Progress → Except Failure Product × Progress) : Except Failure Product × Progress :=
  let recorded := p.record product s
  if p.isStuck s.disk product.stage then
    (.error (Failure.unforeseen DiskError.embeddedNul.description).settle, recorded)
  else if p.stopsAfter product.stage then (.ok product, recorded)
  else rest recorded

/-- Runs the stages in order. -/
def run (p : Pipeline) (disk : Disk) : Except Failure Product × Progress :=
  let s : Progress := ⟨[], [], disk, ""⟩
  match tokensOf p.source with
  | .error f => (.error f.settle, s)
  | .ok tokens =>
    p.andThen (.tokens tokens) s fun s =>
      match programOf tokens with
      | .error f => (.error f.settle, s)
      | .ok program =>
        p.andThen (.tree program) s fun s =>
          match program.document p.library with
          | .error f => (.error f.settle, s)
          | .ok svg => p.andThen (.document svg) s fun s => (.ok (.document svg), s)

end Pipeline

end ShapeScript
