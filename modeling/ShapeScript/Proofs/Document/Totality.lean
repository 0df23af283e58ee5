/-
ShapeScript.Proofs.Document.Totality — compiling always has an answer.

Whatever the source is, a host gets a document or the place and message
of a problem, and never both or neither: `compileForHost_total`. What
could go wrong inside is excluded one stage after the other. The scanner
asks for a number only where a digit stands, registering a program makes
sure that there is a `main`, the builtin library loads, and the details
of every problem fill the template of its message. What a program hands
over to be evaluated are expressions (`Program.HandsOver`), no operator and
no display text fails on them, and every call gives the text that its
block asks for.
-/
import ShapeScript.Node
import ShapeScript.Pipeline
import ShapeScript.Proofs.Node.Derivation
import ShapeScript.Proofs.Document
import ShapeScript.Proofs.Library.Builtin
import ShapeScript.Proofs.Problem

namespace ShapeScript

/-- The pipeline that a host runs: nothing is saved, and no stage is the
last one but the last. -/
def Pipeline.forHost (library : LibraryText) (source : String) : Pipeline :=
  ⟨source, none, [], none, library⟩

namespace Pipeline

/-- Such a pipeline compiles its source. -/
theorem run_forHost (library : LibraryText) (source : String) (disk : Disk) :
    ((forHost library source).run disk).1 = (compile library source).map Product.document := by
  unfold run compile
  dsimp only [forHost]
  cases tokensOf source with
  | error f => rfl
  | ok ts =>
    dsimp only
    cases programOf ts with
    | error f => rfl
    | ok p =>
      dsimp only
      cases p.document library <;> rfl

end Pipeline

/-! ## Evaluation -/

/-- The parts of the node are evaluated when it is: it is an argument with
a value, a parameter with a default, or an expression. -/
def Node.evaluatesParts : Node → Bool
  | .argument _ | .parameter _ | .expr _ => true
  | .call _ | .block _ | .shape _ | .program _ => false

/-- The program has the node evaluated: as the value of an argument, as a
default, or as an operand. -/
def Program.HandsOver (p : Program) (n : Node) : Prop :=
  ∃ parent, (Node.program p).Contains parent ∧ parent.evaluatesParts = true ∧ n ∈ parent.children

/-- To evaluate what is no expression is a defect. -/
theorem Node.evaluate_eq_defect_iff {scope : Scope} {n : Node} :
    (∃ message, n.evaluate scope = .error (.defect message)) ↔ ∀ e, n ≠ .expr e := by
  cases n with
  | expr e =>
    refine iff_of_false ?_ fun h => h e rfl
    rintro ⟨message, h⟩
    have hsome := e.evalOnly_run scope _ h
    cases hsome
  | argument | call | block | parameter | shape | program =>
    exact iff_of_true ⟨_, rfl⟩ fun e h => Node.noConfusion h

/-- What a program has evaluated are expressions. -/
theorem Program.HandsOver.exists_eq_expr {p : Program} {n : Node} (h : p.HandsOver n) :
    ∃ e, n = .expr e := by
  obtain ⟨parent, _, hparts, hn⟩ := h
  cases parent with
  | argument a =>
    obtain rfl := List.mem_singleton.mp hn
    exact ⟨_, rfl⟩
  | parameter q =>
    obtain ⟨name, fallback, span⟩ := q
    cases fallback with
    | none => cases hn
    | some e =>
      obtain rfl := List.mem_singleton.mp hn
      exact ⟨e, rfl⟩
  | expr e =>
    cases e with
    | number | string | name => cases hn
    | negation | grouping =>
      obtain rfl := List.mem_singleton.mp hn
      exact ⟨_, rfl⟩
    | binary left op right =>
      obtain rfl | hn := List.mem_cons.mp hn
      · exact ⟨left, rfl⟩
      · obtain rfl := List.mem_singleton.mp hn
        exact ⟨right, rfl⟩
  | call | block | shape | program => cases hparts

/-- Evaluating what a program has evaluated is no defect, and no error of
arithmetic. -/
theorem Program.HandsOver.evaluate_eq_error {p : Program} {n : Node} {scope : Scope} {f : Failure}
    (h : p.HandsOver n) (hf : n.evaluate scope = .error f) : ∃ e, f = .problem (.eval e) := by
  obtain ⟨e, rfl⟩ := h.exists_eq_expr
  rw [Node.evaluate, run_eq_value, mapError_eq_error] at hf
  obtain ⟨err, _, rfl⟩ := hf
  exact ⟨err, rfl⟩

/-- A call gives a text, or fails with a problem of evaluation. -/
theorem Session.runCall_cases (s : Session) (c : Call) :
    (∃ text, (s.runCall c).1 = .ok (.string text)) ∨
      ∃ e, (s.runCall c).1 = .error (.problem (.eval e)) := by
  rw [runCall_eq]
  cases Reference.call ⟨s.registry, s.limit⟩ s.stack s.scope c with
  | ok text => exact .inl ⟨text, rfl⟩
  | error e => exact .inr ⟨e, rfl⟩

theorem Session.runBlock_cases (s : Session) (b : Block) :
    (∃ text, (s.runBlock b).1 = .ok text) ∨
      ∃ e, (s.runBlock b).1 = .error (.problem (.eval e)) := by
  rw [outcome_runBlock]
  cases (s.block b).1 with
  | ok text => exact .inl ⟨text, rfl⟩
  | error e => exact .inr ⟨e, rfl⟩

/-! ## Every source -/

theorem scan_ne_malformedNumber (source text : String) :
    scan source ≠ .error (.malformedNumber text) := by
  intro h
  obtain ⟨_, _, _, _, _, _, hfailure⟩ := (scan_eq_error_iff source _).mp h
  cases hfailure

/-- Compiling for a host always has an answer, with a document or with an
error. The document is what scanning, parsing and evaluating give. The
error is the position and the message of the problem of the first of
these that fails, and the message is that of the filled template. The
pipeline comes to the same. No source reaches an internal error: not the
text of a number without a digit, and not a registry without `main`. It is
a defect to evaluate a node that is no expression, but no program has one
evaluated. In any session a call gives a text, so its block finds no other
value, and calls and blocks fail with problems of evaluation only. -/
theorem compileForHost_total (source : String) :
    (∃ answer, compileForHost .builtin source = .ok answer ∧
      ((∃ svg, answer = ⟨some svg, none⟩ ∧ Compiles .builtin source svg ∧
          ∀ disk, ((Pipeline.forHost .builtin source).run disk).1 = .ok (.document svg)) ∨
        ∃ p, answer = ⟨none, some ⟨p.pos.line, p.pos.column, p.message⟩⟩ ∧
          FirstFailure .builtin source p ∧ p.report.message = .ok p.message ∧
          ∀ disk, ((Pipeline.forHost .builtin source).run disk).1 = .error (.problem p))) ∧
    (∀ text, scan source ≠ .error (.malformedNumber text)) ∧
    (∀ base p r, LibraryText.builtin.load = .ok base → base.register p true = .ok r →
      r.find? mainName ≠ none) ∧
    (∀ scope (n : Node), (∃ message, n.evaluate scope = .error (.defect message)) ↔
      ∀ e, n ≠ .expr e) ∧
    (∀ (p : Program) (n : Node), p.HandsOver n → ∀ scope f, n.evaluate scope = .error f →
      ∃ e, f = .problem (.eval e)) ∧
    (∀ (s : Session) (c : Call), (∃ text, (s.runCall c).1 = .ok (.string text)) ∨
      ∃ e, (s.runCall c).1 = .error (.problem (.eval e))) ∧
    ∀ (s : Session) (b : Block), (∃ text, (s.runBlock b).1 = .ok text) ∨
      ∃ e, (s.runBlock b).1 = .error (.problem (.eval e)) := by
  obtain ⟨base, hload, _⟩ := builtin_load
  refine ⟨?_, scan_ne_malformedNumber source, ?_, fun scope n => Node.evaluate_eq_defect_iff,
    fun p n h scope f => h.evaluate_eq_error, Session.runCall_cases, Session.runBlock_cases⟩
  · obtain ⟨svg, hcompile, hsvg⟩ | ⟨p, hcompile, hp⟩ := compile_outcome hload source
    · refine ⟨⟨some svg, none⟩, ?_, .inl ⟨svg, rfl, hsvg, fun disk => ?_⟩⟩
      · rw [compileForHost, hcompile]
      · rw [Pipeline.run_forHost, hcompile]
        rfl
    · refine ⟨⟨none, some p.toHost⟩, ?_, .inr ⟨p, rfl, hp, message_report p, fun disk => ?_⟩⟩
      · rw [compileForHost, hcompile]
      · rw [Pipeline.run_forHost, hcompile]
        rfl
  · intro base p r _ hreg hnone
    obtain ⟨m, _, hfind⟩ := Registry.find?_mainName hreg
    rw [hnone] at hfind
    cases hfind

end ShapeScript
