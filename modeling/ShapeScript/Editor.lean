/-
ShapeScript.Editor — a language server's answers.

An editor opens documents and changes them, and each time is told what
is wrong: a document that does not compile has one diagnostic, one
character long, where its problem lies. It can ask what the word under
the cursor means and which calls it may offer.
-/
import ShapeScript.Document
import ShapeScript.Editor.Signature
import ShapeScript.Editor.Word

namespace ShapeScript.Editor

/-- A message about a stretch of a document, with how serious it is, in the
words of the protocol, and who gives it. -/
structure Diagnostic where
  span : Span
  message : String
  severity : String
  source : String
  deriving DecidableEq, Repr

/-- What a host is told of, as a diagnostic of one character. -/
def Diagnostic.ofError (e : HostError) : Diagnostic where
  span := ⟨⟨e.line, e.column⟩, ⟨e.line, e.column + 1⟩⟩
  message := e.message
  severity := "Error"
  source := "ssc"

/-- What is wrong with a document. A failure that is no problem of the
document is passed on. -/
def diagnostics (library : LibraryText) (document : String) :
    Except Failure (List Diagnostic) :=
  (compileForHost library document).map fun answer =>
    (answer.error.map Diagnostic.ofError).toList

/-! ## Hovering -/

/-- A text shown as code of the language. -/
def codeBlock (code : String) : String := "```shapescript\n" ++ code ++ "\n```"

/-- What is shown about a word: how `svg` works, or a shape's
signature. -/
def hoverText (builtin : Registry) (document word : String) : Option String :=
  if word = svgName then
    some (codeBlock ("(builtin) " ++ svgName ++ "(" ++ svgArgument ++ ")")
      ++ "\n---\nInjects a string verbatim into the output.")
  else ((knownShapes builtin document).find? word).map fun shape => codeBlock shape.signature

/-- What is shown about a place of a document, unless the place lies
beyond its line. -/
def hoverAt (builtin : Registry) (document : String) (place : Place) : Option (Option String) :=
  (wordAt document place.line place.character).map fun word =>
    if word = "" then none else hoverText builtin document word

/-! ## Completion -/

/-- A call that the editor may offer. The kind of the item and the format of
its text are words of the protocol. -/
structure Completion where
  label : String
  kind : String
  detail : String
  documentation : Option String
  snippet : String
  format : String
  deriving DecidableEq, Repr

namespace Completion

/-- What is offered is a function to be called, and its text is a snippet
that asks for the arguments of some names. -/
def ofCall (name detail : String) (documentation : Option String) (names : List String) :
    Completion where
  label := name
  kind := "Function"
  detail := detail
  documentation := documentation
  snippet := callSnippet name names
  format := "Snippet"

end Completion

/-- The completion for the primitive. -/
def svgCompletion : Completion := .ofCall svgName "Builtin" none [svgArgument]

/-- The completion for a shape. -/
def shapeCompletion (builtin : Registry) (shape : Shape) : Completion :=
  .ofCall shape.name
    (if builtin.contains shape.name then "Builtin Shape" else "User-Defined Shape")
    (some shape.signature) shape.requiredNames

/-- The calls that may be offered in a document. -/
def completions (builtin : Registry) (document : String) : List Completion :=
  svgCompletion :: (knownShapes builtin document).shapes.map (shapeCompletion builtin)

/-! ## Open documents -/

/-- The documents that are open, by the names that the editor gives
them. -/
abbrev Documents := List (String × String)

namespace Documents

/-- A document's text, if it is open. -/
def text? (ds : Documents) (uri : String) : Option String := ds.lookup uri

/-- The documents with one of them opened or changed. -/
def put (ds : Documents) (uri text : String) : Documents :=
  (uri, text) :: ds.filter (·.1 != uri)

end Documents

end ShapeScript.Editor
