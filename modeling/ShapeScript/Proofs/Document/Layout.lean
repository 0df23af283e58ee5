/-
ShapeScript.Proofs.Document.Layout — layout never changes meaning.

Two texts that write the same lexemes with different gaps give tokens
that differ in their spans only, so `Alike` carries them through the
parser and the evaluator: the trees have the same outlines, and what is
run on them comes to the same document or to the same fault.
-/
import ShapeScript.Problem.Report
import ShapeScript.Proofs.Alike.Evaluation
import ShapeScript.Proofs.Alike.Parsing
import ShapeScript.Proofs.Document
import ShapeScript.Proofs.Library.Builtin
import ShapeScript.Proofs.Token.Layout

namespace ShapeScript

/-- Both outcomes are values, related by `V`, or both are failures from
the same fault. -/
def SameOutcome {φ α β : Type} (V : α → α → Prop) (failure : Located φ → β)
    (x x' : Except β α) : Prop :=
  (∃ a a', x = .ok a ∧ x' = .ok a' ∧ V a a') ∨
    ∃ e e', x = .error (failure e) ∧ x' = .error (failure e') ∧ e.fault = e'.fault

theorem Agree.sameOutcome {φ α : Type} {V : α → α → Prop} {Q : Position → Position → Prop}
    {x x' : Except (Located φ) α} (h : Agree Q V x x') : SameOutcome V id x x' := by
  cases h with
  | ok hv => exact .inl ⟨_, _, rfl, rfl, hv⟩
  | error hfault _ => exact .inr ⟨_, _, rfl, rfl, hfault⟩

theorem alike_of_lexemes {ts ts' : List Token}
    (h : ts.map Token.lexeme = ts'.map Token.lexeme) :
    List.Forall₂ (Token.Alike AnyPositions) ts ts' := by
  induction ts generalizing ts' with
  | nil =>
    rw [List.map_nil, eq_comm, List.map_eq_nil_iff] at h
    rw [h]
    exact .nil
  | cons t ts ih =>
    rw [List.map_cons, eq_comm, List.map_eq_cons_iff] at h
    obtain ⟨t', more, rfl, ht, hmore⟩ := h
    exact .cons ⟨ht.symm, trivial⟩ (ih hmore.symm)

/-- Both failures are problems of evaluation, from the same fault. -/
def SameEvalFault (f f' : Failure) : Prop :=
  ∃ e e', f = .problem (.eval e) ∧ f' = .problem (.eval e') ∧ e.fault = e'.fault

/-- Programs that are alike have the same document. -/
theorem document_alike {library : LibraryText} {base : Registry} {p p' : Program}
    (hload : library.load = .ok base) (hp : p.Alike AnyPositions p') :
    SameOutcome Eq (fun e => Failure.problem (.eval e)) (p.document library)
      (p'.document library) := by
  have hbase : base.Alike AnyPositions base :=
    List.forall₂_same.mpr fun s _ => s.alike_refl fun _ => trivial
  obtain ⟨r, r', hr, hr', hregistry⟩ | ⟨e, e', he, he', hfault⟩ :=
    (register_alike hp hbase true).sameOutcome
  · have hdocuments : Corresponds SameEvalFault Eq (p.document library) (p'.document library) :=
      (simulation_alike hregistry).document hload hr hr' (hregistry.find? mainName)
        (fun _ _ hm => hm.body.calls) rfl (fun e e' he => ⟨e, e', rfl, rfl, he.1⟩)
        (fun _ _ ht => by rw [ht])
    obtain hvalues | ⟨_, _, hx, hx', e, e', rfl, rfl, hfault⟩ := hdocuments.outcomes
    · exact .inl hvalues
    · exact .inr ⟨e, e', hx, hx', hfault⟩
  · exact .inr ⟨e, e', document_of_register_error hload he,
      document_of_register_error hload he', hfault⟩

/-- Two texts compile to the same document or fail with the same code and
details. -/
def CompileAlike (library : LibraryText) (text text' : String) : Prop :=
  (∃ svg, compile library text = .ok svg ∧ compile library text' = .ok svg) ∨
    ∃ q q', compile library text = .error (.problem q) ∧
      compile library text' = .error (.problem q') ∧ q.code = q'.code ∧ q.details = q'.details

section Stages

variable {library : LibraryText} {text text' : String} {ts ts' : List Token}

theorem compileAlike_of_parse_error {e e' : ParseError} (hscan : scan text = .ok ts)
    (hscan' : scan text' = .ok ts') (hparse : parseProgram ts = .error e)
    (hparse' : parseProgram ts' = .error e') (hfault : e.fault = e'.fault) :
    CompileAlike library text text' :=
  .inr ⟨_, _, compile_of_parse_error hscan hparse, compile_of_parse_error hscan' hparse',
    congrArg ParseFault.code hfault, congrArg ParseFault.details hfault⟩

theorem compileAlike_of_document {p p' : Program} (hscan : scan text = .ok ts)
    (hscan' : scan text' = .ok ts') (hparse : parseProgram ts = .ok p)
    (hparse' : parseProgram ts' = .ok p')
    (h : SameOutcome Eq (fun e => Failure.problem (.eval e)) (p.document library)
      (p'.document library)) :
    CompileAlike library text text' := by
  rw [CompileAlike, compile_of_program hscan hparse, compile_of_program hscan' hparse']
  obtain ⟨svg, _, hsvg, hsvg', rfl⟩ | ⟨e, e', he, he', hfault⟩ := h
  · rw [hsvg, hsvg']
    exact .inl ⟨svg, rfl, rfl⟩
  · rw [he, he']
    exact .inr ⟨.eval e, .eval e', rfl, rfl, congrArg EvalFault.code hfault,
      congrArg EvalFault.details hfault⟩

end Stages

/-- Layout never changes meaning. If a text is scanned, and another
writes the same lexemes with gaps between them, then the other is scanned
too and gives the same lexemes; both are parsed, to programs that are
equal up to positions, or fail with the same syntactic fault; and the two
programs have the same document or fail with the same fault. So the two
texts compile to the same document, or fail with the same code and
details. -/
theorem layout_keeps_meaning {text text' : String} {ts : List Token}
    (hscan : scan text = .ok ts) (hlayout : LaidOut (ts.map Token.lexeme) text'.toList) :
    ∃ ts', scan text' = .ok ts' ∧ ts'.map Token.lexeme = ts.map Token.lexeme ∧
      SameOutcome
        (fun p p' => p.shapes.map Outline.ofShape = p'.shapes.map Outline.ofShape ∧
          SameOutcome Eq (fun e => Failure.problem (.eval e)) (p.document .builtin)
            (p'.document .builtin))
        id (parseProgram ts) (parseProgram ts') ∧
      CompileAlike .builtin text text' := by
  obtain ⟨ts', hscan', hlexemes⟩ := scan_of_laidOut hlayout
  obtain ⟨base, hload, _⟩ := builtin_load
  have halike := parseProgram_alike (alike_of_lexemes hlexemes.symm) trivial
  refine ⟨ts', hscan', hlexemes, ?_⟩
  obtain ⟨p, p', hparse, hparse', hp⟩ | ⟨e, e', hparse, hparse', hfault⟩ := halike.sameOutcome
  · have hdocument := document_alike hload hp
    exact ⟨.inl ⟨p, p', hparse, hparse', hp.outlines, hdocument⟩,
      compileAlike_of_document hscan hscan' hparse hparse' hdocument⟩
  · exact ⟨.inr ⟨e, e', hparse, hparse', hfault⟩,
      compileAlike_of_parse_error hscan hscan' hparse hparse' hfault⟩

/-- The lexemes of a program that draws nothing. -/
def emptyMain : List Lexeme :=
  [.identifier shapeKeyword, .identifier mainName, .openParen, .closeParen, .openBrace,
    .closeBrace]

theorem laidOut_emptyMain {gap : List Char} (hgap : ∀ c ∈ gap, isGap c) (hne : gap ≠ []) :
    LaidOut emptyMain (['s', 'h', 'a', 'p', 'e'] ++ (gap ++ (['m', 'a', 'i', 'n'] ++
      (gap ++ (['('] ++ (gap ++ ([')'] ++ (gap ++ (['\x7b'] ++ (gap ++ (['\x7d'] ++
        gap))))))))))) := by
  have hsep : ∀ (ls : List Lexeme) (text : List Char), ls ≠ [] →
      ∃ c ∈ (gap ++ text).head?, isGap c := by
    intro ls text _
    obtain ⟨c, more, rfl⟩ := List.exists_cons_of_ne_nil hne
    exact ⟨c, rfl, hgap c List.mem_cons_self⟩
  have hshape : Denotes ['s', 'h', 'a', 'p', 'e'] (.identifier shapeKeyword) :=
    .identifier rfl (List.all_eq_true.mp rfl)
  have hmain : Denotes ['m', 'a', 'i', 'n'] (.identifier mainName) :=
    .identifier rfl (List.all_eq_true.mp rfl)
  show LaidOut emptyMain ([] ++ (['s', 'h', 'a', 'p', 'e'] ++ _))
  exact .cons nofun hshape (hsep _ _) (.cons hgap hmain (hsep _ _)
    (.cons hgap (.mark rfl) (hsep _ _) (.cons hgap (.mark rfl) (hsep _ _)
      (.cons hgap (.mark rfl) (hsep _ _) (.cons hgap (.mark rfl) nofun (.nil hgap))))))

/-- With blanks or with line ends as gaps, that program compiles to the
same. -/
theorem emptyMain_layouts :
    ∃ ts, scan "shape main ( ) \x7b \x7d " = .ok ts ∧
      LaidOut (ts.map Token.lexeme) "shape\r\nmain\r\n(\r\n)\r\n\x7b\r\n\x7d\r\n".toList ∧
        CompileAlike .builtin "shape main ( ) \x7b \x7d "
          "shape\r\nmain\r\n(\r\n)\r\n\x7b\r\n\x7d\r\n" := by
  have hblanks : LaidOut emptyMain "shape main ( ) \x7b \x7d ".toList :=
    laidOut_emptyMain (List.all_eq_true.mp rfl) (List.cons_ne_nil ' ' [])
  have hlines : LaidOut emptyMain "shape\r\nmain\r\n(\r\n)\r\n\x7b\r\n\x7d\r\n".toList :=
    laidOut_emptyMain (List.all_eq_true.mp rfl) (List.cons_ne_nil '\r' ['\n'])
  obtain ⟨ts, hscan, hlexemes⟩ := scan_of_laidOut hblanks
  rw [← hlexemes] at hlines
  obtain ⟨_, _, _, _, hcompile⟩ := layout_keeps_meaning hscan hlines
  exact ⟨ts, hscan, hlines, hcompile⟩

end ShapeScript
