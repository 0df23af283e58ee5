/-
ShapeScript.Proofs.Editor.Signature — a signature is the head of a
declaration.

With an empty body behind it the signature of a shape is a declaration of
its own, and what is read from it is the shape without its calls, up to
positions (`signature_rereads`). This holds of the shapes whose signatures
show all there is (`Parameter.isShown`): a default that is neither a string
nor a finite number is shown as dots, and these are no lexeme.

Two things are special about a default that was read. A string has no
quote in it, so it can stand between quotes again. A number has no minus
sign, so its display text is digits and a point at most
(`denotes_displayNumber`), however the source has written it.
-/
import ShapeScript.Proofs.Editor.KnownShapes
import ShapeScript.Proofs.Number.Display
import ShapeScript.Proofs.Problem
import ShapeScript.Proofs.Program.Names
import ShapeScript.Proofs.Program.Rereading

namespace ShapeScript

open Number

/-! ## Definitions -/

/-- The parameter has no default, or one that a signature shows as it is. -/
def Parameter.isShown (q : Parameter) : Bool :=
  match q.fallback with
  | none => true
  | some (.number x _) => isFinite x
  | some (.string _ _) => true
  | some _ => false

/-- The lexemes of the parameter can be written. -/
structure Parameter.IsWritten (q : Parameter) : Prop where
  isName : IsName q.name
  lexemes : ∀ l ∈ q.lexemes, ∃ w, Denotes w l

/-- The shape without its calls. -/
def Shape.emptied (s : Shape) : Shape := { s with body := { s.body with calls := [] } }

/-- The signature of the shape with an empty body behind it. -/
def Shape.declaration (s : Shape) : String := s.signature ++ " \x7b\x7d"

/-! ## Parameters -/

section Parameters

variable {q : Parameter} {text : List Char} {ls : List Lexeme}

/-- A default is written behind a blank, an equals sign and a blank. -/
theorem scans_default {n : String} {w : List Char} {l : Lexeme} (hname : IsName n)
    (hw : Denotes w l) (h : Scans text ls) (htext : Separates text) :
    Scans (n.toList ++ ' ' :: '=' :: ' ' :: (w ++ text)) (.identifier n :: .assign :: l :: ls) := by
  have hassign := ((h.word hw htext).gap (c := ' ') rfl).word .assign (by rintro _ ⟨⟩; decide)
  exact (hassign.gap (c := ' ') rfl).word hname.denotes (by rintro _ ⟨⟩; decide)

theorem scans_parameter (hwritten : q.IsWritten) (hshown : q.isShown) (h : Scans text ls)
    (htext : Separates text) : Scans (q.signature.toList ++ text) (q.lexemes ++ ls) := by
  obtain ⟨hname, hlexemes⟩ := hwritten
  obtain ⟨n, fallback, span⟩ := q
  cases fallback with
  | none => exact h.word hname.denotes htext
  | some e =>
    cases e with
    | number x s =>
      obtain ⟨w, hw⟩ := hlexemes (.number x) (by simp [Parameter.lexemes, Expr.lexemes])
      have hscans := scans_default hname (denotes_displayNumber hw hshown) h htext
      simpa [Parameter.signature, Parameter.lexemes, Expr.lexemes] using hscans
    | string t s =>
      obtain ⟨w, hw⟩ := hlexemes (.string t) (by simp [Parameter.lexemes, Expr.lexemes])
      have hscans := scans_default hname ((denotes_string hw).1 ▸ hw) h htext
      simpa [Parameter.signature, Parameter.lexemes, Expr.lexemes] using hscans
    | _ => cases hshown

/-- A default that is shown is a literal, so it is read as one operand. -/
theorem readable_of_isShown (hfree : isReserved q.name = false) (hshown : q.isShown) :
    q.Readable := by
  obtain ⟨n, fallback, span⟩ := q
  suffices h : ∀ e ∈ fallback, e.WellFormed ∧ e.NamesFree from
    ⟨hfree, fun e he => (h e he).1, fun e he => (h e he).2⟩
  rintro e ⟨⟩
  cases e with
  | number => exact ⟨trivial, trivial⟩
  | string => exact ⟨trivial, trivial⟩
  | _ => cases hshown

end Parameters

/-! ## Shapes -/

section Shapes

variable {s : Shape}

theorem toList_declaration (s : Shape) :
    s.declaration.toList = shapeKeyword.toList ++ ' ' :: (s.name.toList ++ '(' ::
      ([',', ' '].intercalate (s.parameters.map (·.signature.toList)) ++
        ')' :: ' ' :: '{' :: ['}'])) := by
  simp [Shape.declaration, Shape.signature, shapeKeyword, toList_joinTexts, Function.comp_def]

theorem denotes_shapeKeyword : Denotes shapeKeyword.toList (.identifier shapeKeyword) :=
  @Denotes.identifier 's' ['h', 'a', 'p', 'e'] rfl (List.all_eq_true.mp rfl)

theorem scans_declaration (hname : IsName s.name)
    (hparameters : ∀ q ∈ s.parameters, q.IsWritten ∧ q.isShown) :
    Scans s.declaration.toList s.emptied.lexemes := by
  have hbody := ((Scans.nil.mark (c := '}') (l := .closeBrace) rfl).mark (c := '{')
    (l := .openBrace) rfl).gap (c := ' ') rfl
  have hlist := hbody.enclosed fun q hq _ _ h htext =>
    scans_parameter (hparameters q hq).1 (hparameters q hq).2 h htext
  have hhead := (hlist.word hname.denotes (by rintro _ ⟨⟩; decide)).gap (c := ' ') rfl
  have hscans := hhead.word denotes_shapeKeyword (by rintro _ ⟨⟩; decide)
  rw [toList_declaration]
  simpa [Shape.emptied, Shape.lexemes, Block.lexemes, enclosedLexemes] using hscans

/-- The text has no blanks around it. -/
theorem strip_declaration (s : Shape) :
    Text.strip s.declaration.toList = s.declaration.toList := by
  refine strip_eq_self ⟨'s', ?_, by decide⟩ ⟨'}', ?_, by decide⟩
  · rw [toList_declaration]
    rfl
  · rw [Shape.declaration, String.toList_append]
    exact List.mem_getLast?_append_of_mem_getLast? rfl

theorem readable_emptied (hfree : isReserved s.name = false)
    (hparameters : ∀ q ∈ s.parameters, q.Readable) : s.emptied.Readable :=
  ⟨hfree, hparameters, List.forall_mem_nil _⟩

/-- The parameters of a shape that was read are written in its source. -/
theorem isWritten_of_parse {source : String} {ts : List Token} {p : Program}
    (hscan : scan source = .ok ts) (hparse : parseProgram ts = .ok p) (hs : s ∈ p.shapes) :
    ∀ q ∈ s.parameters, q.IsWritten := by
  intro q hq
  refine ⟨isName_of_parse hscan hparse s hs q.name ?_, fun l hl => denotes_of_scan hscan ?_⟩
  · exact List.mem_cons_of_mem _ (Shape.mem_parameterNames.mpr ⟨q, hq, rfl⟩)
  · have hlist := mem_enclosedLexemes (List.mem_map_of_mem (f := Parameter.lexemes) hq) hl
    rw [← lexemes_of_parseProgram hparse]
    refine List.mem_flatMap.mpr ⟨s, hs, ?_⟩
    exact List.mem_cons_of_mem _ (List.mem_cons_of_mem _ (List.mem_append_left _ hlist))

/-- The signature of a shape whose defaults it shows, with an empty body
behind it, is a program again: one shape of the same name, with the same
parameters in the same order and the same defaults, and without calls. -/
theorem signature_rereads {source : String} {p : Program} (hp : Writes source p)
    (hs : s ∈ p.shapes) (hshown : ∀ q ∈ s.parameters, q.isShown) :
    ∃ p' s', Writes s.declaration p' ∧ p'.shapes = [s'] ∧ s'.name = s.name ∧
      List.Forall₂ (Parameter.Alike AnyPositions) s'.parameters s.parameters ∧
        s'.body.calls = [] := by
  obtain ⟨ts, hscan, hparse⟩ := hp
  have hname := isName_of_parse hscan hparse s hs s.name List.mem_cons_self
  have hwritten := isWritten_of_parse hscan hparse hs
  have hreadable := readable_emptied hname.free fun q hq =>
    readable_of_isShown (hwritten q hq).isName.free (hshown q hq)
  have hscans := scans_declaration hname fun q hq => ⟨hwritten q hq, hshown q hq⟩
  obtain ⟨ts', hscan', hlexemes⟩ := hscans.scan_eq (strip_declaration s)
  have hprogram : ts'.map Token.lexeme = (Program.mk [s.emptied] .origin).lexemes := by
    rw [hlexemes, Program.lexemes, List.flatMap_singleton]
  obtain ⟨p', hparse', halike⟩ :=
    parseProgram_rereads (List.forall_mem_singleton.mpr hreadable) hprogram
  obtain ⟨s', hs', hshape⟩ : ∃ s', p'.shapes = [s'] ∧ s'.Alike AnyPositions s.emptied := by
    obtain ⟨s', rest, hhead, hrest, hshapes⟩ := List.forall₂_cons_right_iff.mp halike.shapes
    rw [List.forall₂_nil_right_iff.mp hrest] at hshapes
    exact ⟨s', hshapes, hhead⟩
  exact ⟨p', s', ⟨ts', hscan', hparse'⟩, hs', hshape.name, hshape.parameters,
    List.forall₂_nil_right_iff.mp hshape.body.calls⟩

/-! ## One signature -/

/-- A shape with a number, a string and nothing as defaults, and a call. -/
def labelSource : String :=
  "shape label(size = 0.50, text = \"a\nπ\", at) \x7b svg(value: text) \x7d shape main() \x7b\x7d"

def labelChars : { cs : List Char // labelSource = .ofList cs } := ⟨_, rfl⟩

/-- Its signature, with an empty body. -/
def labelDeclaration : String := "shape label(size = 0.5, text = \"a\nπ\", at) \x7b\x7d"

def isLabel (s : Shape) : Bool :=
  s.name == "label" && s.parameterNames == ["size", "text", "at"] &&
    s.parameters.all Parameter.isShown && s.declaration == labelDeclaration

theorem label_isLabel : (programOfChars labelChars.1).any (·.shapes.any isLabel) = true := by
  decide +kernel

/-- The number is written shorter than in the source, and read as the same. -/
theorem labelDeclaration_rereads :
    ∃ p s, Writes labelSource p ∧ s ∈ p.shapes ∧ (∀ q ∈ s.parameters, q.isShown) ∧
      s.declaration = labelDeclaration ∧
      ∃ p' s', Writes labelDeclaration p' ∧ p'.shapes = [s'] ∧ s'.name = "label" ∧
        s'.parameterNames = ["size", "text", "at"] ∧
        List.Forall₂ (Parameter.Alike AnyPositions) s'.parameters s.parameters ∧
          s'.body.calls = [] := by
  obtain ⟨p, hp, hchecked⟩ := (Option.any_eq_true _ _).mp label_isLabel
  obtain ⟨s, hs, hlabel⟩ := List.any_eq_true.mp hchecked
  simp only [isLabel, Bool.and_eq_true, beq_iff_eq, List.all_eq_true] at hlabel
  obtain ⟨⟨⟨hname, hnames⟩, hshown⟩, hdeclaration⟩ := hlabel
  have hwrites : Writes labelSource p := by
    rw [Writes, labelChars.2]
    exact parse_ofList hp
  obtain ⟨p', s', hwrites', hs', hname', hparameters, hcalls⟩ :=
    signature_rereads hwrites hs hshown
  rw [hdeclaration] at hwrites'
  exact ⟨p, s, hwrites, hs, hshown, hdeclaration, p', s', hwrites', hs', hname'.trans hname,
    (map_eq_map_of_alike hparameters fun _ _ h => h.name).trans hnames, hparameters, hcalls⟩

end Shapes

end ShapeScript
