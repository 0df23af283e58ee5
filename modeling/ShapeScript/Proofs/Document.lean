/-
ShapeScript.Proofs.Document — which stage decides a compilation.

`Compiles` and `FirstFailure` say what the three stages make of a source
when they run one after the other: a document, or the problem of the
first stage that fails; `compile_outcome` says that compiling comes to
one of the two. Of the last stage, a program that registers runs the body
of its own `main` on an empty stack in an empty scope, and
`document_of_register` puts that in terms of the reference evaluator.
Where the runs of two programs simulate one another, `Simulation.document`
compares their documents.
-/
import ShapeScript.Document
import ShapeScript.Proofs.Registry
import ShapeScript.Proofs.Session.Simulation
import ShapeScript.Proofs.Token.Scanning

namespace ShapeScript

/-! ## The last stage -/

section Document

variable {library : LibraryText} {base r : Registry} {p : Program}

theorem document_of_register_error {e : EvalError} (hload : library.load = .ok base)
    (hreg : base.register p true = .error e) :
    p.document library = .error (.problem (.eval e)) := by
  simp only [Program.document, hload, hreg]
  rfl

/-- The document of a program that registers is made by the body of its
`main`. -/
theorem document_of_register (hload : library.load = .ok base)
    (hreg : base.register p true = .ok r) :
    ∃ m ∈ p.shapes, r.find? mainName = some m ∧
      p.document library =
        ((Reference.block ⟨r, stackLimit⟩ [] [] m.body).mapError .ofEval).map documentOf := by
  obtain ⟨m, hm, hfind⟩ := Registry.find?_mainName hreg
  refine ⟨m, hm, hfind, ?_⟩
  simp only [Program.document, hload, hreg, Registry.runMain, hfind, Session.runBlock_eq,
    Registry.session]

theorem block_of_document_ok {svg : String} (hload : library.load = .ok base)
    (hreg : base.register p true = .ok r) (hdocument : p.document library = .ok svg) :
    ∃ m ∈ p.shapes, r.find? mainName = some m ∧
      ∃ text, Reference.block ⟨r, stackLimit⟩ [] [] m.body = .ok text := by
  obtain ⟨m, hm, hfind, hrun⟩ := document_of_register hload hreg
  refine ⟨m, hm, hfind, ?_⟩
  obtain ⟨text, htext, _⟩ := map_eq_ok.mp (hrun.symm.trans hdocument)
  exact ⟨text, mapError_eq_ok.mp htext⟩

theorem block_of_document_error {e : EvalError} (hload : library.load = .ok base)
    (hreg : base.register p true = .ok r)
    (hdocument : p.document library = .error (.problem (.eval e))) :
    ∃ m ∈ p.shapes, r.find? mainName = some m ∧
      Reference.block ⟨r, stackLimit⟩ [] [] m.body = .error e := by
  obtain ⟨m, hm, hfind, hrun⟩ := document_of_register hload hreg
  refine ⟨m, hm, hfind, ?_⟩
  obtain ⟨e', he', he⟩ := mapError_eq_error.mp (map_eq_error.mp (hrun.symm.trans hdocument))
  cases he
  exact he'

/-- A program has a document or a problem of evaluation, once the library
is loaded. -/
theorem document_outcome (hload : library.load = .ok base) (p : Program) :
    (∃ svg, p.document library = .ok svg) ∨
      ∃ e, p.document library = .error (.problem (.eval e)) := by
  cases hreg : base.register p true with
  | error e => exact .inr ⟨e, document_of_register_error hload hreg⟩
  | ok r =>
    obtain ⟨m, _, _, hdoc⟩ := document_of_register hload hreg
    rw [hdoc]
    cases Reference.block ⟨r, stackLimit⟩ [] [] m.body with
    | error e => exact .inr ⟨e, rfl⟩
    | ok text => exact .inl ⟨documentOf text, rfl⟩

/-- Programs whose runs are alike have corresponding documents or
corresponding problems. -/
theorem Simulation.document {E : EvalError → EvalError → Prop} {S : Scope → Scope → Prop}
    {T W : String → String → Prop} {R : Call → Call → Prop} {F : Failure → Failure → Prop}
    {V : Shape → Shape → Prop} {p' : Program} {r' : Registry} (h : Simulation E S T R r r')
    (hload : library.load = .ok base) (hreg : base.register p true = .ok r)
    (hreg' : base.register p' true = .ok r')
    (hmain : Option.Rel V (r.find? mainName) (r'.find? mainName))
    (hcalls : ∀ m m', V m m' → List.Forall₂ R m.body.calls m'.body.calls) (hscope : S [] [])
    (hE : ∀ e e', E e e' → F (.problem (.eval e)) (.problem (.eval e')))
    (hT : ∀ text text', T text text' → W (documentOf text) (documentOf text')) :
    Corresponds F W (p.document library) (p'.document library) := by
  obtain ⟨m, _, hfind, hdoc⟩ := document_of_register hload hreg
  obtain ⟨m', _, hfind', hdoc'⟩ := document_of_register hload hreg'
  rw [hfind, hfind'] at hmain
  rw [hdoc, hdoc']
  cases hmain with
  | some hm => exact ((h.block stackLimit [] hscope (hcalls m m' hm)).mapError hE).map hT

end Document

/-! ## All stages -/

/-- The three stages, one after the other, give a document. -/
def Compiles (library : LibraryText) (source svg : String) : Prop :=
  ∃ ts p, scan source = .ok ts ∧ parseProgram ts = .ok p ∧ p.document library = .ok svg

/-- The first of the three stages that fails on the source fails with the
problem. -/
inductive FirstFailure (library : LibraryText) (source : String) : Problem → Prop
  | lex {e : LexError} (hscan : scan source = .error (.problem e)) :
      FirstFailure library source (.lex e)
  | parse {ts : List Token} {e : ParseError} (hscan : scan source = .ok ts)
      (hparse : parseProgram ts = .error e) : FirstFailure library source (.parse e)
  | eval {ts : List Token} {p : Program} {e : EvalError} (hscan : scan source = .ok ts)
      (hparse : parseProgram ts = .ok p)
      (hdocument : p.document library = .error (.problem (.eval e))) :
      FirstFailure library source (.eval e)

section Stages

variable {library : LibraryText} {source : String} {ts : List Token}

theorem tokensOf_of_ok (h : scan source = .ok ts) : tokensOf source = .ok ts := by
  rw [tokensOf, h]
  rfl

theorem compile_of_scan_error {f : ScanFailure} (h : scan source = .error f) :
    compile library source = .error f.toFailure := by
  have htokens : tokensOf source = .error f.toFailure := by
    rw [tokensOf, h]
    rfl
  simp only [compile, htokens]
  cases f <;> rfl

theorem compile_of_parse_error {e : ParseError} (hscan : scan source = .ok ts)
    (hparse : parseProgram ts = .error e) :
    compile library source = .error (.problem (.parse e)) := by
  have hprogram : programOf ts = .error (.problem (.parse e)) := by
    rw [programOf, hparse]
    rfl
  simp only [compile, tokensOf_of_ok hscan, hprogram]
  rfl

theorem compile_of_program {p : Program} (hscan : scan source = .ok ts)
    (hparse : parseProgram ts = .ok p) :
    compile library source = (p.document library).mapError Failure.settle := by
  have hprogram : programOf ts = .ok p := by
    rw [programOf, hparse]
    rfl
  simp only [compile, tokensOf_of_ok hscan, hprogram]

/-- With a library that loads, compiling gives what the stages give or the
problem of the first that fails. -/
theorem compile_outcome {base : Registry} (hload : library.load = .ok base) (source : String) :
    (∃ svg, compile library source = .ok svg ∧ Compiles library source svg) ∨
      ∃ p, compile library source = .error (.problem p) ∧ FirstFailure library source p := by
  obtain ⟨ts, hscan, _⟩ | ⟨q, x, hscan, _⟩ := scan_outcome source
  · cases hparse : parseProgram ts with
    | error e => exact .inr ⟨.parse e, compile_of_parse_error hscan hparse, .parse hscan hparse⟩
    | ok p =>
      have hcompile := @compile_of_program library source ts p hscan hparse
      obtain ⟨svg, hsvg⟩ | ⟨e, he⟩ := document_outcome hload p
      · rw [hsvg] at hcompile
        exact .inl ⟨svg, hcompile, ts, p, hscan, hparse, hsvg⟩
      · rw [he] at hcompile
        exact .inr ⟨.eval e, hcompile, .eval hscan hparse he⟩
  · exact .inr ⟨_, compile_of_scan_error hscan, .lex hscan⟩

end Stages

end ShapeScript
