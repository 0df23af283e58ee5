/-
ShapeScript.Proofs.Document.CallGraph — the depth of calls.

Whether a program overflows its stack can be read off from which shape's
body calls which name. A call path is a chain of such calls that starts
in the body of `main`; a call of `svg` runs no body, so nothing comes
after it. The stack of a run is a call path at every moment, and every
call path is the stack at some moment of a run that gives a document:
a body is run to its end, whatever the values are.

The two lemmas about calls go in opposite directions. `length_of_call`
follows a given path through a run that succeeds, by induction on the
path; `Fails.frames_of_overflow` follows a failure to the place where it
came about, by induction on its derivation. `main` itself is not on the
stack, `svg` is, and a call finds the stack full before it looks up its
name, so a stack of exactly `stackLimit` names is still allowed.
-/
import Mathlib.Data.List.Chain
import Mathlib.Logic.Relation
import ShapeScript.Proofs.Document
import ShapeScript.Proofs.Library.Builtin
import ShapeScript.Proofs.Session.Outcomes

namespace ShapeScript

open Relation (ReflTransGen TransGen)

/-! ## The graph -/

/-- The block calls the name. -/
def Block.Calls (b : Block) (name : String) : Prop := ∃ c ∈ b.calls, c.callee = name

namespace Registry

/-- The body of the shape registered as `f` calls `g`; calls of `svg` run
no body. -/
def Calls (r : Registry) (f g : String) : Prop :=
  f ≠ svgName ∧ ∃ shape, r.find? f = some shape ∧ shape.body.Calls g

/-- The body of `main` calls the name. -/
def MainCalls (r : Registry) (f : String) : Prop :=
  ∃ m, r.find? mainName = some m ∧ m.body.Calls f

/-- The first name is called by `main`, and each of the others in the body
of the one before it. -/
def CallPath (r : Registry) (path : List String) : Prop :=
  (∀ f ∈ path.head?, r.MainCalls f) ∧ path.IsChain r.Calls

/-- Calls that start in `main` come to a name that calls itself, directly
or through others. -/
def ReachesCycle (r : Registry) : Prop :=
  ∃ f g, r.MainCalls f ∧ ReflTransGen r.Calls f g ∧ TransGen r.Calls g g

/-! ## Cycles have paths of any length -/

variable {r : Registry} {f g : String}

/-- What calls itself calls something that calls itself. -/
theorem exists_calls_of_cycle (h : TransGen r.Calls f f) :
    ∃ g, r.Calls f g ∧ TransGen r.Calls g g := by
  obtain ⟨g, hfg, hgf⟩ := TransGen.head'_iff.mp h
  exact ⟨g, hfg, TransGen.tail' hgf hfg⟩

theorem exists_chain_of_cycle (h : TransGen r.Calls f f) (n : Nat) :
    ∃ path, path.length = n ∧ (f :: path).IsChain r.Calls := by
  induction n generalizing f with
  | zero => exact ⟨[], rfl, .singleton f⟩
  | succ n ih =>
    obtain ⟨g, hfg, hg⟩ := exists_calls_of_cycle h
    obtain ⟨path, hlength, hchain⟩ := ih hg
    exact ⟨g :: path, congrArg (· + 1) hlength, .cons_cons hfg hchain⟩

theorem exists_chain_of_reaches (hreach : ReflTransGen r.Calls f g)
    (hcycle : TransGen r.Calls g g) (n : Nat) :
    ∃ path, n ≤ path.length ∧ (f :: path).IsChain r.Calls := by
  induction hreach using ReflTransGen.head_induction_on with
  | refl =>
    obtain ⟨path, hlength, hchain⟩ := exists_chain_of_cycle hcycle n
    exact ⟨path, hlength.ge, hchain⟩
  | head hcall _ ih =>
    obtain ⟨path, hlength, hchain⟩ := ih
    exact ⟨_ :: path, Nat.le_succ_of_le hlength, .cons_cons hcall hchain⟩

theorem exists_callPath_of_cycle (h : r.ReachesCycle) (n : Nat) :
    ∃ path, n < path.length ∧ r.CallPath path := by
  obtain ⟨f, g, hmain, hreach, hcycle⟩ := h
  obtain ⟨path, hlength, hchain⟩ := exists_chain_of_reaches hreach hcycle n
  refine ⟨f :: path, Nat.lt_succ_of_le hlength, ?_, hchain⟩
  intro f' hf'
  obtain rfl : f = f' := Option.some.inj hf'
  exact hmain

end Registry

/-! ## Paths and stacks -/

namespace Reference

variable {g : Setting} {frames : List String} {scope : Scope} {c : Call}

/-- A path that starts with a call that succeeds finds room on the
stack. -/
theorem length_of_call {path : List String} {text : String}
    (h : call g frames scope c = .ok text)
    (hpath : (c.callee :: path).IsChain g.registry.Calls) :
    frames.length + (c.callee :: path).length ≤ g.limit := by
  induction path generalizing frames scope c text with
  | nil =>
    have hfits := (call_eq_ok h).1
    rw [List.length_singleton]
    omega
  | cons f path ih =>
    obtain ⟨⟨hsvg, shape, hfind, inner, hinner, rfl⟩, hrest⟩ := List.isChain_cons_cons.mp hpath
    obtain ⟨_, hsvg' | ⟨shape', bound, hfind', _, hbody⟩⟩ := call_eq_ok h
    · exact absurd hsvg' hsvg
    · obtain rfl : shape = shape' := Option.some.inj (hfind.symm.trans hfind')
      obtain ⟨t, ht⟩ := hbody inner hinner
      have hlength := ih ht hrest
      simp only [List.length_append, List.length_cons, List.length_nil] at hlength ⊢
      omega

/-- The frames that an overflow names are those of the stack it started
from and a path, one more than there is room for. -/
theorem Fails.frames_of_overflow {e : EvalError} {all : List String} (h : Fails g frames scope c e)
    (he : e.fault = .stackOverflow all) (hroom : frames.length ≤ g.limit) :
    ∃ path, all = frames ++ c.callee :: path ∧ all.length = g.limit + 1 ∧
      (c.callee :: path).IsChain g.registry.Calls := by
  induction h with
  | @overflow frames scope c hfull =>
    -- the stack was not over the limit before, so it holds exactly so many names
    obtain rfl : frames ++ [c.callee] = all := EvalFault.stackOverflow.inj he
    refine ⟨[], rfl, ?_, .singleton _⟩
    rw [List.length_append, List.length_singleton]
    omega
  | svg _ _ hsvg =>
    have hother := isOverflow_svg hsvg
    rw [he] at hother
    cases hother
  | undefined => cases he
  | arguments _ _ _ hbind =>
    have hother := hbind.isOverflow_eq_false
    rw [he] at hother
    cases hother
  | @body frames scope bound c inner shape e hfits hsvg hfind _ hinner _ ih =>
    have hentered : (frames ++ [c.callee]).length ≤ g.limit := by
      rw [List.length_append, List.length_singleton]
      omega
    obtain ⟨path, rfl, hlength, hchain⟩ := ih he hentered
    refine ⟨inner.callee :: path, List.append_assoc _ _ _, hlength, ?_⟩
    exact .cons_cons ⟨hsvg, shape, hfind, inner, hinner, rfl⟩ hchain

end Reference

/-! ## Programs -/

section Programs

variable {library : LibraryText} {base r : Registry} {p : Program}

/-- Call paths of a program with a document fit on the stack. -/
theorem length_of_document {svg : String} {path : List String}
    (hload : library.load = .ok base) (hreg : base.register p true = .ok r)
    (hdoc : p.document library = .ok svg) (hpath : r.CallPath path) :
    path.length ≤ stackLimit := by
  cases path with
  | nil => exact Int.natCast_nonneg 256
  | cons f path =>
    obtain ⟨m, _, hfind, text, hblock⟩ := block_of_document_ok hload hreg hdoc
    obtain ⟨m', hfind', c, hc, rfl⟩ := hpath.1 f rfl
    obtain rfl : m = m' := Option.some.inj (hfind.symm.trans hfind')
    obtain ⟨t, ht⟩ := Reference.block_eq_ok hblock c hc
    have hlength := Reference.length_of_call ht hpath.2
    simpa using hlength

/-- The frames of an overflow are a call path that is one name too long. -/
theorem callPath_of_overflow {frames : List String} {pos : Position}
    (hload : library.load = .ok base) (hreg : base.register p true = .ok r)
    (hdoc : p.document library = .error (.problem (.eval ⟨.stackOverflow frames, pos⟩))) :
    frames.length = stackLimit + 1 ∧ r.CallPath frames := by
  obtain ⟨m, _, hfind, hblock⟩ := block_of_document_error hload hreg hdoc
  obtain ⟨c, hc, hfails⟩ := Reference.fails_of_block hblock
  obtain ⟨path, rfl, hlength, hchain⟩ :=
    hfails.frames_of_overflow rfl (Int.natCast_nonneg 256)
  refine ⟨hlength, ?_, hchain⟩
  intro f hf
  obtain rfl : c.callee = f := Option.some.inj hf
  exact ⟨m, hfind, c, hc, rfl⟩

/-- Overflow is decided by the call graph. A program with a document has
no call path longer than the limit and reaches no cycle; the frames of an
overflow are a call path that is longer by one. So a program whose call
paths fit on the stack never overflows it, and one that reaches a cycle
never has a document. -/
theorem overflow_decided_by_callGraph (hload : library.load = .ok base)
    (hreg : base.register p true = .ok r) :
    (∀ svg, p.document library = .ok svg →
      (∀ path, r.CallPath path → path.length ≤ 256) ∧ ¬ r.ReachesCycle) ∧
    (∀ frames pos,
      p.document library = .error (.problem (.eval ⟨.stackOverflow frames, pos⟩)) →
        frames.length = 257 ∧ r.CallPath frames) ∧
    ((∀ path, r.CallPath path → path.length ≤ 256) → ∀ frames pos,
      p.document library ≠ .error (.problem (.eval ⟨.stackOverflow frames, pos⟩))) ∧
    (r.ReachesCycle → ∀ svg, p.document library ≠ .ok svg) := by
  have hpaths : ∀ svg, p.document library = .ok svg →
      ∀ path, r.CallPath path → path.length ≤ 256 := by
    intro svg hdoc path hpath
    exact Int.ofNat_le.mp (length_of_document hload hreg hdoc hpath)
  have hframes : ∀ frames pos,
      p.document library = .error (.problem (.eval ⟨.stackOverflow frames, pos⟩)) →
        frames.length = 257 ∧ r.CallPath frames := by
    intro frames pos hdoc
    obtain ⟨hlength, hpath⟩ := callPath_of_overflow hload hreg hdoc
    exact ⟨Int.ofNat.inj hlength, hpath⟩
  have hcycle : r.ReachesCycle → ∀ svg, p.document library ≠ .ok svg := by
    intro hcycle svg hdoc
    obtain ⟨path, hlong, hpath⟩ := Registry.exists_callPath_of_cycle hcycle 256
    exact absurd (hpaths svg hdoc path hpath) (Nat.not_le.mpr hlong)
  refine ⟨fun svg hdoc => ⟨hpaths svg hdoc, fun h => hcycle h svg hdoc⟩, hframes, ?_, hcycle⟩
  intro hshort frames pos hdoc
  obtain ⟨hlength, hpath⟩ := hframes frames pos hdoc
  have hfits := hshort frames hpath
  omega

/-- A program whose `main` calls itself. -/
def selfCaller : Program :=
  ⟨[⟨mainName, [], ⟨[⟨mainName, [], .origin⟩], .origin⟩, .origin⟩], .origin⟩

/-- On the builtin library it registers and reaches a cycle, so it has no
document. -/
theorem selfCaller_has_no_document :
    ∃ base r, LibraryText.builtin.load = .ok base ∧ base.register selfCaller true = .ok r ∧
      r.ReachesCycle ∧ ∀ svg, selfCaller.document .builtin ≠ .ok svg := by
  obtain ⟨base, hload, hnames, _⟩ := builtin_load
  obtain ⟨r, hreg⟩ : ∃ r, base.register selfCaller true = .ok r :=
    register_of_builtin hnames rfl (by decide) rfl
  obtain ⟨m, hm, hfind⟩ := Registry.find?_mainName hreg
  have hcalls : m.body.Calls mainName := by
    obtain rfl := List.mem_singleton.mp hm
    exact ⟨_, List.mem_singleton.mpr rfl, rfl⟩
  have hself : r.Calls mainName mainName := ⟨by decide, m, hfind, hcalls⟩
  have hcycle : r.ReachesCycle :=
    ⟨mainName, mainName, ⟨m, hfind, hcalls⟩, .refl, .single hself⟩
  exact ⟨base, r, hload, hreg, hcycle,
    (overflow_decided_by_callGraph hload hreg).2.2.2 hcycle⟩

end Programs

end ShapeScript
