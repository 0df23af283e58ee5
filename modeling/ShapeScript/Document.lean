/-
ShapeScript.Document — from a source to an SVG document.

A program is registered on the builtin library, the body of `main` runs
with an empty stack and scope, and the text it gives is put between the
tags of an `svg` element. Compiling a source scans, parses and runs it;
the first stage that fails decides the failure. A host is answered with a
document or with the place and message of a problem.
-/
import ShapeScript.Library
import ShapeScript.Session

namespace ShapeScript

/-- The opening tag of a document. -/
def openingTag : String :=
  "<svg width=\"100%\" height=\"100%\" xmlns=\"http://www.w3.org/2000/svg\">"

/-- The closing tag of a document. -/
def closingTag : String := "</svg>"

/-- A document with a given content. -/
def documentOf (content : String) : String := openingTag ++ content ++ closingTag

/-- A session in which nothing was called yet. -/
def Registry.session (r : Registry) : Session := ⟨r, stackLimit, [], []⟩

/-- Runs the body of `main`. A registry that a program was registered in
always has one. -/
def Registry.runMain (r : Registry) : Except Failure String :=
  match r.find? mainName with
  | none => .error (.unforeseen "'main'")
  | some shape => (r.session.runBlock shape.body).1

/-- The document of a program, with the library that a text gives. -/
def Program.document (p : Program) (library : LibraryText) : Except Failure String :=
  match library.load with
  | .error f => .error f
  | .ok base =>
    match base.register p true with
    | .error e => .error (.ofEval e)
    | .ok registry => registry.runMain.map documentOf

/-- The program that a token list writes. -/
def programOf (ts : List Token) : Except Failure Program :=
  (parseProgram ts).mapError fun e => .problem (.parse e)

/-- Compiles a source to a document. -/
def compile (library : LibraryText) (source : String) : Except Failure String :=
  Except.mapError Failure.settle <|
    match tokensOf source with
    | .error f => .error f
    | .ok tokens =>
      match programOf tokens with
      | .error f => .error f
      | .ok program => program.document library

/-! ## For a host -/

/-- What a host is told of a source that has no document: where the
problem lies, and its message. -/
structure HostError where
  line : Int
  column : Int
  message : String
  deriving DecidableEq, Repr

/-- The answer to a host, with fields for a document and for an error. -/
structure HostAnswer where
  svg : Option String
  error : Option HostError
  deriving DecidableEq, Repr

/-- A problem as a host is told of it. -/
def Problem.toHost (p : Problem) : HostError := ⟨p.pos.line, p.pos.column, p.message⟩

/-- Compiles a source for a host. A problem of the source is an answer;
the other failures are not, and are passed on. -/
def compileForHost (library : LibraryText) (source : String) : Except Failure HostAnswer :=
  match compile library source with
  | .ok svg => .ok ⟨some svg, none⟩
  | .error (.problem p) => .ok ⟨none, some p.toHost⟩
  | .error f => .error f

end ShapeScript
