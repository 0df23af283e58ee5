/-
ShapeScript.Library — loading the builtin shapes.

The library is a text that is scanned, parsed and registered like any
other; a step that fails is named in the problem, which lies at the
origin because the text is not the user's. What was loaded once is kept.
-/
import ShapeScript.Failure
import ShapeScript.Registry
import ShapeScript.Program.Parser
import ShapeScript.Library.Source

namespace ShapeScript

/-- What reading the library's text gives: the text, an error of the
system, or an unforeseen failure. -/
inductive LibraryText where
  | source (text : String)
  | unreadable
  | failing (message : String)
  deriving Repr

/-- The text that the library is shipped with. -/
def LibraryText.builtin : LibraryText := .source builtinSource

/-- The problem of a library whose loading failed at a step. -/
def notLoaded (stage : LoadStage) : Failure :=
  .problem (.eval ⟨.libraryNotLoaded stage, .origin⟩)

/-- Loads the library from what reading it gives. -/
def LibraryText.load : LibraryText → Except Failure Registry
  | unreadable => .error (notLoaded .reading)
  | failing message => .error (.unforeseen message)
  | source text =>
    match tokensOf text with
    | .error (.problem _) => .error (notLoaded .lexing)
    | .error f => .error f
    | .ok tokens =>
      match parseProgram tokens with
      | .error _ => .error (notLoaded .parsing)
      | .ok program =>
        match Registry.empty.register program false with
        | .error _ => .error (notLoaded .registering)
        | .ok registry => .ok registry

/-- What loading has kept: the library, once it was loaded. -/
structure LibraryCache where
  kept : Option Registry

namespace LibraryCache

/-- Nothing was loaded yet. -/
def fresh : LibraryCache := ⟨none⟩

/-- Gives the library that is kept, or loads it and keeps it. A failure
is not kept. -/
def load (cache : LibraryCache) (text : LibraryText) :
    Except Failure Registry × LibraryCache :=
  match cache.kept with
  | some registry => (.ok registry, cache)
  | none =>
    match text.load with
    | .ok registry => (.ok registry, ⟨some registry⟩)
    | .error f => (.error f, cache)

end LibraryCache

end ShapeScript
