/-
ShapeScript.Proofs.Document.LineEnds — compiling a text with unified line
ends.

Unifying the line ends of a source changes the texts of its strings and
nothing else that the stages look at. So the source and the unified source
both have a document, or they fail with the same problem at the same
position (`failure?_compile_unified`). The documents can differ where a
string has a CR in it. If none does, they are the same
(`compile_unified_of_keepsLineEnds`).
-/
import ShapeScript.Proofs.Document.Literals
import ShapeScript.Proofs.Program.Texts

namespace ShapeScript

/-! ## Other texts -/

section Blank

variable {g : String → String}

/-- The texts of strings are blanked anyhow. -/
theorem Expr.blank_mapText (e : Expr) : (e.mapText g).blank = e.blank := by
  induction e with
  | number => rfl
  | string => rfl
  | name => rfl
  | binary left op right opPos span ihl ihr => rw [mapText, blank, ihl, ihr, blank]
  | negation operand opPos span ih => rw [mapText, blank, ih, blank]
  | grouping inner span ih => rw [mapText, blank, ih, blank]

theorem Call.blank_mapText (c : Call) : (c.mapText g).blank = c.blank := by
  simp [Call.mapText, Call.blank, Argument.mapText, Argument.blank, Expr.blank_mapText,
    Function.comp_def]

theorem Parameter.blank_mapText (p : Parameter) : (p.mapText g).blank = p.blank := by
  simp [Parameter.mapText, Parameter.blank, Expr.blank_mapText, Function.comp_def]

theorem Shape.blank_mapText (s : Shape) : (s.mapText g).blank = s.blank := by
  simp [Shape.mapText, Shape.blank, Parameter.blank_mapText, Block.mapText, Block.blank,
    Call.blank_mapText, Function.comp_def]

theorem Program.blank_mapText (p : Program) : (p.mapText g).blank = p.blank := by
  simp [Program.mapText, Program.blank, Shape.blank_mapText, Function.comp_def]

end Blank

/-! ## Compiling -/

variable (library : LibraryText) (source : String)

/-- A source and the source with unified line ends fail alike. -/
theorem failure?_compile_unified :
    failure? (compile library (Text.unified source)) = failure? (compile library source) := by
  have hunified := scan_unified source
  cases hscan : scan source with
  | error f =>
    rw [hscan] at hunified
    rw [compile_of_scan_error hunified, compile_of_scan_error hscan]
  | ok ts =>
    rw [hscan] at hunified
    have hmapped := @parseProgram_mapText Text.unified ts
    cases hparse : parseProgram ts with
    | error e =>
      rw [hparse] at hmapped
      rw [compile_of_parse_error hunified hmapped, compile_of_parse_error hscan hparse]
    | ok p =>
      rw [hparse] at hmapped
      rw [compile_of_program hunified hmapped, compile_of_program hscan hparse,
        failure?_mapError, failure?_mapError, failure?_document, failure?_document,
        p.blank_mapText]

/-- The compilations of the two both fail, and with the same, or both give a
document. -/
theorem compile_unified_cases :
    (∃ f, compile library source = .error f ∧ compile library (Text.unified source) = .error f) ∨
      ∃ svg svg', compile library source = .ok svg ∧
        compile library (Text.unified source) = .ok svg' := by
  have hfailure := failure?_compile_unified library source
  cases hsource : compile library source with
  | error f =>
    rw [hsource] at hfailure
    cases hunified : compile library (Text.unified source) with
    | error f' =>
      rw [hunified] at hfailure
      obtain rfl := Option.some.inj hfailure
      exact .inl ⟨f', rfl, rfl⟩
    | ok svg =>
      rw [hunified] at hfailure
      cases hfailure
  | ok svg =>
    cases hunified : compile library (Text.unified source) with
    | error f =>
      rw [hsource, hunified] at hfailure
      cases hfailure
    | ok svg' => exact .inr ⟨svg, svg', rfl, rfl⟩

/-- Without a CR in a string the two are compiled to the same. -/
theorem compile_unified_of_keepsLineEnds
    (h : ∀ ts, scan source = .ok ts → KeepsLineEnds ts) :
    compile library (Text.unified source) = compile library source := by
  have hsame : scan (Text.unified source) = scan source := by
    rw [scan_unified]
    cases hscan : scan source with
    | error f => rfl
    | ok ts => exact congrArg Except.ok (h ts hscan).map_mapText
  simp only [compile, tokensOf, hsame]

end ShapeScript
