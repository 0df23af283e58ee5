/-
ShapeScript.Proofs.Artifact — an artifact determines what it was made
from.

The functions here take an artifact apart again: they go through the
fields in the order in which they are written, tell the kinds of tokens
and of expressions by their names, and give up on anything else. They
undo the writing (`ofArtifact?_artifact`), and since no artifact has two
fields of one name in one object, nothing is lost in its text either.
-/
import ShapeScript.Pipeline
import ShapeScript.Proofs.Json.RoundTrip

namespace ShapeScript.Artifact

/-! ## Reading -/

/-- What the items of an array are read as. -/
def toList? {α : Type} (item? : Json → Option α) : Json → Option (List α)
  | .array items => items.mapM item?
  | _ => none

/-- A position. -/
def toPosition? : Json → Option Position
  | .object [("line", .int line), ("column", .int column)] => some ⟨line, column⟩
  | _ => none

/-- A span. -/
def toSpan? : Json → Option Span
  | .object [("start", start), ("end", finish)] => do
    return ⟨← toPosition? start, ← toPosition? finish⟩
  | _ => none

/-- The kind that a label names. -/
def kindOfLabel? (label : String) : Option LexemeKind := LexemeKind.all.find? (·.label == label)

/-- The lexeme of a kind and a value. -/
def toLexeme? : LexemeKind → Json → Option Lexeme
  | .number, .number x => some (.number x)
  | .identifier, .string name => some (.identifier name)
  | .string, .string text => some (.string text)
  | .openParen, .null => some .openParen
  | .closeParen, .null => some .closeParen
  | .openBrace, .null => some .openBrace
  | .closeBrace, .null => some .closeBrace
  | .times, .null => some .times
  | .divide, .null => some .divide
  | .plus, .null => some .plus
  | .minus, .null => some .minus
  | .assign, .null => some .assign
  | .compare, .null => some .compare
  | .colon, .null => some .colon
  | .comma, .null => some .comma
  | _, _ => none

/-- A token. -/
def toToken? : Json → Option Token
  | .object [("type", .string label), ("value", value), ("span", span)] => do
    return ⟨← toLexeme? (← kindOfLabel? label) value, ← toSpan? span⟩
  | _ => none

/-- An expression. -/
def toExpr? : Json → Option Expr
  | .object [("span", span), ("kind", .string "number"), ("value", .number x)] => do
    return .number x (← toSpan? span)
  | .object [("span", span), ("kind", .string "string"), ("value", .string text)] => do
    return .string text (← toSpan? span)
  | .object [("span", span), ("kind", .string "identifier"), ("name", .string name)] => do
    return .name name (← toSpan? span)
  | .object [("span", span), ("kind", .string "binary"), ("left", left), ("op", .string op),
      ("right", right), ("op_pos", pos)] => do
    return .binary (← toExpr? left) (← BinaryOp.ofSymbol? op) (← toExpr? right)
      (← toPosition? pos) (← toSpan? span)
  | .object [("span", span), ("kind", .string "unary"), ("op", .string "-"), ("operand", operand),
      ("op_pos", pos)] => do
    return .negation (← toExpr? operand) (← toPosition? pos) (← toSpan? span)
  | .object [("span", span), ("kind", .string "grouping"), ("inner", inner)] => do
    return .grouping (← toExpr? inner) (← toSpan? span)
  | _ => none

/-- An argument. -/
def toArgument? : Json → Option Argument
  | .object [("span", span), ("name", .string name), ("value", value)] => do
    return ⟨name, ← toExpr? value, ← toSpan? span⟩
  | _ => none

/-- A call. -/
def toCall? : Json → Option Call
  | .object [("span", span), ("function", .string callee), ("args", args)] => do
    return ⟨callee, ← toList? toArgument? args, ← toSpan? span⟩
  | _ => none

/-- A block. -/
def toBlock? : Json → Option Block
  | .object [("span", span), ("calls", calls)] => do
    return ⟨← toList? toCall? calls, ← toSpan? span⟩
  | _ => none

/-- A default, which may be missing. -/
def toFallback? : Json → Option (Option Expr)
  | .null => some none
  | v => (toExpr? v).map some

/-- A parameter. -/
def toParameter? : Json → Option Parameter
  | .object [("span", span), ("name", .string name), ("default", fallback)] => do
    return ⟨name, ← toFallback? fallback, ← toSpan? span⟩
  | _ => none

/-- A declaration. -/
def toShape? : Json → Option Shape
  | .object [("span", span), ("name", .string name), ("params", params), ("body", body)] => do
    return ⟨name, ← toList? toParameter? params, ← toBlock? body, ← toSpan? span⟩
  | _ => none

/-- A program. -/
def toProgram? : Json → Option Program
  | .object [("shapes", shapes), ("end", finish)] => do
    return ⟨← toList? toShape? shapes, ← toPosition? finish⟩
  | _ => none

end ShapeScript.Artifact

namespace ShapeScript

/-- What an artifact was made from: a token list if it is an array, a tree
if it is an object, and a document if it is a string. -/
def Product.ofArtifact? : Json → Option Product
  | .array items => (Artifact.toList? Artifact.toToken? (.array items)).map .tokens
  | .object members => (Artifact.toProgram? (.object members)).map .tree
  | .string svg => some (.document svg)
  | _ => none

end ShapeScript

namespace ShapeScript.Artifact

/-! ## What was written is read -/

/-- An array is read item by item. -/
theorem toList?_map {α : Type} {item : α → Json} {item? : Json → Option α}
    (h : ∀ a, item? (item a) = some a) (as : List α) :
    toList? item? (.array (as.map item)) = some as := by
  rw [toList?, List.mapM_map]
  induction as with
  | nil => rfl
  | cons a as ih => simp [List.mapM_cons, h, ih]

@[simp] theorem toPosition?_ofPosition (p : Position) : toPosition? (ofPosition p) = some p := rfl

@[simp] theorem toSpan?_ofSpan (s : Span) : toSpan? (ofSpan s) = some s := rfl

/-- No two kinds of tokens have one label. -/
theorem kindOfLabel?_label (kind : LexemeKind) : kindOfLabel? kind.label = some kind := by
  cases kind <;> rfl

theorem toLexeme?_ofLexemeValue (l : Lexeme) : toLexeme? l.kind (ofLexemeValue l) = some l := by
  cases l <;> rfl

theorem toToken?_ofToken (t : Token) : toToken? (ofToken t) = some t := by
  simp [ofToken, toToken?, kindOfLabel?_label, Token.kind, toLexeme?_ofLexemeValue]

theorem ofSymbol?_symbol (op : BinaryOp) : BinaryOp.ofSymbol? op.symbol = some op := by
  cases op <;> rfl

/-- The six classes of expressions are told apart by the name of their kind. -/
@[simp] theorem toExpr?_ofExpr (e : Expr) : toExpr? (ofExpr e) = some e := by
  induction e with
  | number x s => simp [ofExpr, toExpr?]
  | string t s => simp [ofExpr, toExpr?]
  | name n s => simp [ofExpr, toExpr?]
  | binary left op right p s ihleft ihright =>
    simp [ofExpr, toExpr?, ihleft, ihright, ofSymbol?_symbol]
  | negation operand p s ih => simp [ofExpr, toExpr?, ih]
  | grouping inner s ih => simp [ofExpr, toExpr?, ih]

theorem toArgument?_ofArgument (a : Argument) : toArgument? (ofArgument a) = some a := by
  simp [ofArgument, toArgument?]

theorem toCall?_ofCall (c : Call) : toCall? (ofCall c) = some c := by
  simp [ofCall, toCall?, toList?_map toArgument?_ofArgument]

@[simp] theorem toBlock?_ofBlock (b : Block) : toBlock? (ofBlock b) = some b := by
  simp [ofBlock, toBlock?, toList?_map toCall?_ofCall]

/-- The artifact of an expression is never that of a missing one. -/
theorem toFallback?_ofExpr (e : Expr) : toFallback? (ofExpr e) = some (some e) := by
  have hexpr := toExpr?_ofExpr e
  cases e <;> simp [ofExpr, toFallback?] at hexpr ⊢ <;> exact hexpr

theorem toParameter?_ofParameter (p : Parameter) : toParameter? (ofParameter p) = some p := by
  obtain ⟨name, fallback, span⟩ := p
  cases fallback with
  | none => simp [ofParameter, toParameter?, toFallback?]
  | some e => simp [ofParameter, toParameter?, toFallback?_ofExpr]

/-- A declaration is read with its parameters and its body. -/
theorem toShape?_ofShape (s : Shape) : toShape? (ofShape s) = some s := by
  simp [ofShape, toShape?, toList?_map toParameter?_ofParameter]

theorem toProgram?_ofProgram (p : Program) : toProgram? (ofProgram p) = some p := by
  simp [ofProgram, toProgram?, toList?_map toShape?_ofShape]

/-! ## No object has two fields of one name -/

/-- An array has no fields of its own. -/
theorem distinct_array {α : Type} {item : α → Json} (h : ∀ a, (item a).Distinct) (as : List α) :
    (Json.array (as.map item)).Distinct := by
  refine .array fun v hv => ?_
  obtain ⟨a, _, rfl⟩ := List.mem_map.mp hv
  exact h a

theorem distinct_ofPosition (p : Position) : (ofPosition p).Distinct :=
  .object (by simp) (by simp [Json.Distinct.int])

theorem distinct_ofSpan (s : Span) : (ofSpan s).Distinct :=
  .object (by simp) (by simp [distinct_ofPosition])

theorem distinct_ofLexemeValue (l : Lexeme) : (ofLexemeValue l).Distinct := by
  cases l <;> constructor

theorem distinct_ofToken (t : Token) : (ofToken t).Distinct :=
  .object (by simp) (by simp [Json.Distinct.string, distinct_ofLexemeValue, distinct_ofSpan])

/-- Whatever the class of an expression, its fields have different names. -/
theorem distinct_ofExpr (e : Expr) : (ofExpr e).Distinct := by
  induction e <;>
  · rw [ofExpr]
    exact .object (by simp) (by simp [Json.Distinct.string, Json.Distinct.number, distinct_ofSpan,
      distinct_ofPosition, *])

theorem distinct_ofArgument (a : Argument) : (ofArgument a).Distinct :=
  .object (by simp) (by simp [Json.Distinct.string, distinct_ofSpan, distinct_ofExpr])

theorem distinct_ofCall (c : Call) : (ofCall c).Distinct :=
  .object (by simp) (by
    simp [Json.Distinct.string, distinct_ofSpan, distinct_array distinct_ofArgument])

theorem distinct_ofBlock (b : Block) : (ofBlock b).Distinct :=
  .object (by simp) (by simp [distinct_ofSpan, distinct_array distinct_ofCall])

theorem distinct_ofParameter (p : Parameter) : (ofParameter p).Distinct := by
  obtain ⟨name, fallback, span⟩ := p
  refine .object (by simp) ?_
  cases fallback with
  | none => simp [Json.Distinct.string, Json.Distinct.null, distinct_ofSpan]
  | some e => simp [Json.Distinct.string, distinct_ofSpan, distinct_ofExpr]

theorem distinct_ofShape (s : Shape) : (ofShape s).Distinct :=
  .object (by simp) (by
    simp [Json.Distinct.string, distinct_ofSpan, distinct_array distinct_ofParameter,
      distinct_ofBlock])

theorem distinct_ofProgram (p : Program) : (ofProgram p).Distinct :=
  .object (by simp) (by simp [distinct_ofPosition, distinct_array distinct_ofShape])

end ShapeScript.Artifact

namespace ShapeScript

/-! ## Products -/

namespace Product

/-- No artifact has an object with two fields of one name. -/
theorem distinct_artifact (x : Product) : x.artifact.Distinct := by
  cases x with
  | tokens ts => exact Artifact.distinct_array Artifact.distinct_ofToken ts
  | tree p => exact Artifact.distinct_ofProgram p
  | document svg => exact .string svg

/-- Token lists, trees and documents are told apart by what kind of value their
artifact is. -/
theorem ofArtifact?_artifact (x : Product) : ofArtifact? x.artifact = some x := by
  cases x with
  | tokens ts =>
    exact congrArg (Option.map tokens) (Artifact.toList?_map Artifact.toToken?_ofToken ts)
  | tree p => exact congrArg (Option.map tree) (Artifact.toProgram?_ofProgram p)
  | document svg => rfl

/-- Saved artifacts are indented by white space. -/
theorem artifactLayout_isBlank : artifactLayout.IsBlank := by
  change ∀ c ∈ ("  " : String).toList, Json.isSpace c = true
  simp [Json.isSpace]

/-- A string of characters that need an escape, and a number that is
written as a word. -/
def escapedTokens : List Token :=
  [⟨.string "\\\n\u000b\u00e9😀", ⟨.origin, ⟨1, 4⟩⟩⟩, ⟨.number (1.0 / 0.0), ⟨⟨1, 5⟩, ⟨1, 405⟩⟩⟩]

/-- Nothing is lost in an artifact's text, on one line or indented by any
white space: encoding what a stage gave comes to its artifact, the text is
read as the artifact, which is taken apart into what it was made from, and
no other token list, tree or document has that text, in this layout or
another. -/
theorem artifact_lossless (x : Product) {layout : Json.Layout} (hlayout : layout.IsBlank) :
    x.data.encode = .ok x.artifact ∧
    Json.parse? (x.artifact.text layout) = some x.artifact ∧
      ofArtifact? x.artifact = some x ∧
        ∀ (y : Product) (other : Json.Layout), other.IsBlank →
          y.artifact.text other = x.artifact.text layout → y = x := by
  have hx := Json.parse?_text x.distinct_artifact hlayout
  refine ⟨x.encode_data, hx, x.ofArtifact?_artifact, fun y other hother htext => ?_⟩
  have hy := Json.parse?_text y.distinct_artifact hother
  rw [htext, hx] at hy
  have hsome : some y = some x := by
    rw [← ofArtifact?_artifact y, ← ofArtifact?_artifact x, Option.some.inj hy]
  exact Option.some.inj hsome

theorem escapedTokens_lossless :
    artifactLayout.IsBlank ∧
      (tokens escapedTokens).data.encode = .ok (tokens escapedTokens).artifact ∧
      Json.parse? ((tokens escapedTokens).artifact.text artifactLayout) =
        some (tokens escapedTokens).artifact ∧
      ofArtifact? (tokens escapedTokens).artifact = some (tokens escapedTokens) ∧
      ∀ (y : Product) (other : Json.Layout), other.IsBlank →
        y.artifact.text other = (tokens escapedTokens).artifact.text artifactLayout →
          y = tokens escapedTokens :=
  ⟨artifactLayout_isBlank, (tokens escapedTokens).artifact_lossless artifactLayout_isBlank⟩

end Product

end ShapeScript
