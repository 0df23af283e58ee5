/-
ShapeScript.Proofs.Document.WellFormed — programs whose names are right.

Whether the names in a program are right can be seen without running it: a
call fits the shape that it names, and an argument contains only parameters
of the shape in whose body it stands. `Shape.WellScoped` says this of one
shape. The invariant that connects it with running is that a body runs in a
scope which binds exactly its shape's parameters.

`Fails.fault_of_wellScoped` goes forward: where every shape that can be
called is well scoped, a call fails only over the type of a value or for want
of stack, by induction on how the failure comes about. `entered_of_runs` goes
back, by induction on how a shape is reached: a run that gives a text enters
every shape that it reaches, and all calls in an entered body are made and
all their arguments evaluated, so no name in them can be wrong.
-/
import ShapeScript.Proofs.Document.CallGraph

namespace ShapeScript

open Relation (ReflTransGen)

/-! ## Definitions -/

/-- The call gives the shape arguments of different names, which are those of
parameters, and leaves out no parameter without a default. -/
structure Call.Supplies (c : Call) (s : Shape) : Prop where
  distinct : (c.arguments.map Argument.name).Nodup
  declared : ∀ a ∈ c.arguments, a.name ∈ s.parameterNames
  required : ∀ n ∈ s.requiredNames, ∃ a ∈ c.arguments, a.name = n

/-- The call is one of `svg` with its one argument, or supplies a shape. -/
inductive Call.Fits (r : Registry) (c : Call) : Prop
  | svg {a : Argument} (hsvg : c.callee = svgName) (harguments : c.arguments = [a])
      (hname : a.name = svgArgument) : Call.Fits r c
  | shape {s : Shape} (hsvg : c.callee ≠ svgName) (hfind : r.find? c.callee = some s)
      (hsupplies : c.Supplies s) : Call.Fits r c

/-- The calls in the shape's body fit, and the identifiers in their arguments
are parameters of the shape. -/
structure Shape.WellScoped (r : Registry) (s : Shape) : Prop where
  calls : ∀ c ∈ s.body.calls, c.Fits r
  names : ∀ c ∈ s.body.calls, ∀ a ∈ c.arguments, ∀ n ∈ a.value.names, n ∈ s.parameterNames

/-- No default contains an identifier. -/
def Shape.ClosedDefaults (s : Shape) : Prop :=
  ∀ p ∈ s.parameters, ∀ e, p.fallback = some e → e.names = []

/-- The program registers, and its shapes are well scoped and have closed
defaults. -/
def Program.WellFormed (base : Registry) (p : Program) : Prop :=
  ∃ r, base.register p true = .ok r ∧ ∀ s ∈ p.shapes, s.WellScoped r ∧ s.ClosedDefaults

namespace Registry

/-- Calls that start in the body of `main` come to the name. -/
def Reaches (r : Registry) (f : String) : Prop :=
  ∃ g, r.MainCalls g ∧ ReflTransGen r.Calls g f

/-- The shape is `main`, or calls from there reach it. -/
def Runs (r : Registry) (s : Shape) : Prop :=
  r.find? mainName = some s ∨ ∃ f, f ≠ svgName ∧ r.Reaches f ∧ r.find? f = some s

end Registry

/-- The fault lies in the type of a value or in the depth of calls. -/
def EvalFault.isTypeOrOverflow : EvalFault → Bool
  | typeMismatch .. | svgExpectsString .. | stackOverflow .. => true
  | _ => false

theorem Shape.mem_requiredNames {s : Shape} {n : String} :
    n ∈ s.requiredNames ↔ ∃ p ∈ s.parameters, p.fallback = none ∧ p.name = n := by
  simp [requiredNames, and_assoc]

/-! ## Painters -/

theorem Expr.names_of_isLiteral {x : Expr} (h : x.isLiteral) : x.names = [] := by
  cases x with
  | number y span => rfl
  | string s span => rfl
  | _ => cases h

theorem Expr.names_of_isConcatenation {names : List String} {x : Expr}
    (h : x.isConcatenation names) : ∀ n ∈ x.names, n ∈ names := by
  fun_induction Expr.isConcatenation names x with
  | case1 s span =>
    intro n hn
    cases hn
  | case2 left right opPos span ih =>
    rw [Bool.and_eq_true] at h
    intro n hn
    rcases List.mem_append.mp hn with hn | hn
    · exact ih h.1 n hn
    · cases right with
      | string s span => cases hn
      | name m span =>
        obtain rfl := List.mem_singleton.mp hn
        exact List.contains_iff_mem.mp h.2
      | _ => cases h.2
  | case3 => cases h

theorem Shape.wellScoped_of_isPainter {s : Shape} (r : Registry) (h : s.isPainter) :
    s.WellScoped r ∧ s.ClosedDefaults := by
  obtain ⟨c, a, hcalls, hsvg, harguments, hname, hvalue⟩ := s.body_of_isPainter h
  refine ⟨⟨?_, ?_⟩, ?_⟩
  · intro c' hc'
    rw [hcalls, List.mem_singleton] at hc'
    subst hc'
    exact .svg hsvg harguments hname
  · intro c' hc' a' ha'
    rw [hcalls, List.mem_singleton] at hc'
    subst hc'
    rw [harguments, List.mem_singleton] at ha'
    subst ha'
    exact Expr.names_of_isConcatenation hvalue
  · intro p hp e he
    obtain ⟨x, hx, hliteral⟩ := s.fallback_of_isPainter h hp
    obtain rfl := Option.some.inj (he.symm.trans hx)
    exact Expr.names_of_isLiteral hliteral

/-! ## Well scoped shapes fail over types and stack only -/

namespace Reference

variable {g : Setting} {frames : List String} {scope : Scope} {c : Call} {shape : Shape}

theorem isTypeOrOverflow_of_value {x : Expr} {e : EvalError} (h : value scope x = .error e)
    (hbound : ∀ n ∈ x.names, (scope.find? n).isSome) : e.fault.isTypeOrOverflow := by
  rw [fault_of_value h hbound]
  rfl

theorem BindFails.isTypeOrOverflow {e : EvalError} (h : BindFails scope shape c e)
    (hsupplies : c.Supplies shape) (hclosed : shape.ClosedDefaults)
    (hbound : ∀ a ∈ c.arguments, ∀ n ∈ a.value.names, (scope.find? n).isSome) :
    e.fault.isTypeOrOverflow := by
  cases h with
  | undeclared ha hname => exact absurd (hsupplies.declared _ ha) hname
  | repeated _ hrepeated => exact absurd hsupplies.distinct hrepeated
  | @missing p hp hchosen =>
    obtain ⟨hother, hfallback⟩ := chosenExpr_eq_none.mp hchosen
    have hrequired := Shape.mem_requiredNames.mpr ⟨p, hp, hfallback, rfl⟩
    obtain ⟨a, ha, hname⟩ := hsupplies.required _ hrequired
    exact absurd hname (hother a ha)
  | @value p x e hp hchosen he =>
    refine isTypeOrOverflow_of_value he ?_
    rcases chosenExpr_eq_some hchosen with ⟨a, ha, _, rfl⟩ | ⟨_, hfallback⟩
    · exact hbound a ha
    · rw [hclosed p hp x hfallback]
      exact fun n hn => nomatch hn

/-- Names are no reason for a call to fail when it fits, its arguments are
bound, and every shape is well scoped. -/
theorem Fails.fault_of_wellScoped {e : EvalError}
    (hshapes : ∀ s ∈ g.registry.shapes, s.WellScoped g.registry ∧ s.ClosedDefaults)
    (h : Fails g frames scope c e) (hfits : c.Fits g.registry)
    (hbound : ∀ a ∈ c.arguments, ∀ n ∈ a.value.names, (scope.find? n).isSome) :
    e.fault.isTypeOrOverflow := by
  induction h with
  | overflow => rfl
  | svg _ hsvg he =>
    cases hfits with
    | @svg a _ harguments hname =>
      rcases svg_eq_error harguments hname he with hvalue | rfl
      · refine isTypeOrOverflow_of_value hvalue (hbound a ?_)
        rw [harguments]
        exact List.mem_singleton.mpr rfl
      · rfl
    | shape hother => exact absurd hsvg hother
  | undefined _ hsvg hfind =>
    cases hfits with
    | svg hsvg' => exact absurd hsvg' hsvg
    | shape _ hfind' =>
      rw [hfind] at hfind'
      cases hfind'
  | @arguments frames scope c shape e _ hsvg hfind he =>
    cases hfits with
    | svg hsvg' => exact absurd hsvg' hsvg
    | shape _ hfind' hsupplies =>
      obtain rfl := Option.some.inj (hfind.symm.trans hfind')
      have hclosed := (hshapes shape (Registry.mem_of_find?_eq_some hfind).1).2
      exact he.isTypeOrOverflow hsupplies hclosed hbound
  | @body frames scope bound c inner shape e _ hsvg hfind hbind hinner _ ih =>
    have hscoped := (hshapes shape (Registry.mem_of_find?_eq_some hfind).1).1
    refine ih (hscoped.calls inner hinner) fun a ha n hn => ?_
    exact (binds_of_bindAll hbind n).mpr (hscoped.names inner hinner a ha n hn)

/-! ## What a run that succeeds says of names -/

theorem supplies_of_bindAll {bound : Scope} (h : bindAll scope shape c = .ok bound) :
    c.Supplies shape := by
  obtain ⟨hdistinct, hdeclared⟩ := checkArguments_eq_ok.mp (bindAll_eq_ok h).1
  refine ⟨hdistinct, fun a ha => (hdeclared a ha).1, ?_⟩
  intro n hn
  obtain ⟨p, hp, hfallback, rfl⟩ := Shape.mem_requiredNames.mp hn
  obtain ⟨e, _, hchosen, _⟩ := chosen_of_bindAll h p hp
  rcases chosenExpr_eq_some hchosen with ⟨a, ha, hname, _⟩ | ⟨_, hdefault⟩
  · exact ⟨a, ha, hname⟩
  · rw [hfallback] at hdefault
    cases hdefault

/-- A call that gives a text fits, and since all its arguments are evaluated,
what they contain is bound. -/
theorem fits_of_call {text : String} (h : call g frames scope c = .ok text) :
    c.Fits g.registry ∧ ∀ a ∈ c.arguments, ∀ n ∈ a.value.names, (scope.find? n).isSome := by
  obtain ⟨hroom, hcallee⟩ := call_eq_ok h
  by_cases hsvg : c.callee = svgName
  · rw [call_of_svg hroom hsvg] at h
    obtain ⟨a, harguments, hname, hvalue⟩ := svg_eq_ok h
    refine ⟨.svg hsvg harguments hname, ?_⟩
    intro a' ha'
    rw [harguments, List.mem_singleton] at ha'
    subst ha'
    exact isSome_find?_of_value hvalue
  · obtain ⟨shape, bound, hfind, hbind, _⟩ := hcallee.resolve_left hsvg
    have hsupplies := supplies_of_bindAll hbind
    refine ⟨.shape hsvg hfind hsupplies, ?_⟩
    intro a ha
    obtain ⟨p, hp, hname⟩ := Shape.mem_parameterNames.mp (hsupplies.declared a ha)
    obtain ⟨e, v, hchosen, hvalue⟩ := chosen_of_bindAll hbind p hp
    rw [chosenExpr_of_mem hsupplies.distinct ha hname.symm] at hchosen
    obtain rfl := Option.some.inj hchosen
    exact isSome_find?_of_value hvalue

/-- A shape is entered when its parameters are bound and every call in its
body gives a text. -/
def Entered (g : Setting) (s : Shape) : Prop :=
  ∃ frames scope, Scope.Binds scope s.parameterNames ∧
    ∀ c ∈ s.body.calls, ∃ text, call g frames scope c = .ok text

theorem Entered.wellScoped (h : Entered g shape) : shape.WellScoped g.registry := by
  obtain ⟨frames, scope, hbinds, hcalls⟩ := h
  constructor
  · intro c hc
    obtain ⟨text, htext⟩ := hcalls c hc
    exact (fits_of_call htext).1
  · intro c hc a ha n hn
    obtain ⟨text, htext⟩ := hcalls c hc
    exact (hbinds n).mp ((fits_of_call htext).2 a ha n hn)

/-- What an entered shape calls is entered. -/
theorem Entered.callee {s : Shape} (h : Entered g shape) (hc : c ∈ shape.body.calls)
    (hsvg : c.callee ≠ svgName) (hfind : g.registry.find? c.callee = some s) : Entered g s := by
  obtain ⟨frames, scope, _, hcalls⟩ := h
  obtain ⟨text, htext⟩ := hcalls c hc
  obtain ⟨_, hsvg' | ⟨s', bound, hfind', hbind, hbody⟩⟩ := call_eq_ok htext
  · exact absurd hsvg' hsvg
  · obtain rfl : s = s' := Option.some.inj (hfind.symm.trans hfind')
    exact ⟨frames ++ [c.callee], bound, binds_of_bindAll hbind, hbody⟩

/-- Calls from an entered `main` enter every shape that they reach. -/
theorem entered_of_runs {m s : Shape} (hmain : g.registry.find? mainName = some m)
    (hentered : Entered g m) (hs : g.registry.Runs s) : Entered g s := by
  rcases hs with hs | ⟨f, hsvg, ⟨f₀, hcalls, hreach⟩, hfind⟩
  · obtain rfl : m = s := Option.some.inj (hmain.symm.trans hs)
    exact hentered
  · induction hreach generalizing s with
    | refl =>
      obtain ⟨m', hmain', c, hc, rfl⟩ := hcalls
      obtain rfl : m = m' := Option.some.inj (hmain.symm.trans hmain')
      exact hentered.callee hc hsvg hfind
    | tail _ hcall ih =>
      obtain ⟨hsvg', shape, hfind', c, hc, rfl⟩ := hcall
      exact (ih hsvg' hfind').callee hc hsvg hfind

end Reference

/-! ## Programs -/

/-- Programs do not go wrong by name. A well-formed one has a document, or
fails over the type of a value or for want of stack. And if a program has a
document, then `main` and every shape that calls from there reach are well
scoped. -/
theorem names_decided_statically {base : Registry} (hload : LibraryText.builtin.load = .ok base)
    (p : Program) :
    (p.WellFormed base →
      (∃ svg, p.document .builtin = .ok svg) ∨
        ∃ e, p.document .builtin = .error (.problem (.eval e)) ∧ e.fault.isTypeOrOverflow) ∧
    ∀ svg, p.document .builtin = .ok svg →
      ∃ r, base.register p true = .ok r ∧ ∀ s, r.Runs s → s.WellScoped r := by
  constructor
  · rintro ⟨r, hreg, hscoped⟩
    obtain ⟨base', hload', _, hpainters⟩ := builtin_load
    obtain rfl : base = base' := Except.ok.inj (hload.symm.trans hload')
    have hshapes : ∀ s ∈ r.shapes, s.WellScoped r ∧ s.ClosedDefaults := by
      intro s hs
      rw [(Registry.register_eq_ok hreg).1] at hs
      rcases List.mem_append.mp hs with hs | hs
      · exact Shape.wellScoped_of_isPainter r (hpainters s hs)
      · exact hscoped s hs
    rcases document_outcome hload p with hok | ⟨e, he⟩
    · exact .inl hok
    · obtain ⟨m, hm, hfind, hblock⟩ := block_of_document_error hload hreg he
      obtain ⟨c, hc, hfails⟩ := Reference.fails_of_block hblock
      have hmain := (hscoped m hm).1
      refine .inr ⟨e, he, hfails.fault_of_wellScoped hshapes (hmain.calls c hc) ?_⟩
      intro a ha n hn
      have hparameter := hmain.names c hc a ha n hn
      rw [Shape.parameterNames, Registry.parameters_of_main hreg hfind] at hparameter
      cases hparameter
  · intro svg hdoc
    cases hreg : base.register p true with
    | error e =>
      rw [document_of_register_error hload hreg] at hdoc
      cases hdoc
    | ok r =>
      obtain ⟨m, _, hfind, text, hblock⟩ := block_of_document_ok hload hreg hdoc
      have hentered : Reference.Entered ⟨r, stackLimit⟩ m := by
        refine ⟨[], [], ?_, Reference.block_eq_ok hblock⟩
        rw [Shape.parameterNames, Registry.parameters_of_main hreg hfind]
        exact Scope.binds_nil
      refine ⟨r, rfl, fun s hs => ?_⟩
      exact (Reference.entered_of_runs hfind hentered hs).wellScoped

/-- `shape tag(text, unit = "px") { svg(value: text + unit) }`. -/
def tagShape : Shape :=
  ⟨"tag", [⟨"text", none, .origin⟩, ⟨"unit", some (.string "px" .origin), .origin⟩],
    ⟨[⟨svgName, [⟨svgArgument,
      .binary (.name "text" .origin) .plus (.name "unit" .origin) .origin .origin, .origin⟩],
      .origin⟩], .origin⟩, .origin⟩

/-- `shape main() { tag(text: "12") }`. -/
def tagMain : Shape :=
  ⟨mainName, [], ⟨[⟨"tag", [⟨"text", .string "12" .origin, .origin⟩], .origin⟩], .origin⟩,
    .origin⟩

/-- The program of the two. -/
def tagProgram : Program := ⟨[tagShape, tagMain], .origin⟩

theorem tagShape_wellScoped (r : Registry) : tagShape.WellScoped r ∧ tagShape.ClosedDefaults := by
  refine ⟨⟨?_, by decide⟩, ?_⟩
  · intro c hc
    obtain rfl := List.mem_singleton.mp hc
    exact .svg rfl rfl rfl
  · intro p hp e he
    simp only [tagShape, List.mem_cons, List.not_mem_nil, or_false] at hp
    rcases hp with rfl | rfl
    · cases he
    · obtain rfl := Option.some.inj he
      rfl

theorem tagMain_wellScoped {r : Registry} (hfind : r.find? "tag" = some tagShape) :
    tagMain.WellScoped r ∧ tagMain.ClosedDefaults := by
  refine ⟨⟨?_, by decide⟩, fun p hp => nomatch hp⟩
  intro c hc
  obtain rfl := List.mem_singleton.mp hc
  exact .shape (by decide) hfind ⟨by decide, by decide, by decide⟩

theorem block_tagMain {r : Registry} (hfind : r.find? "tag" = some tagShape) :
    Reference.block ⟨r, stackLimit⟩ [] [] tagMain.body = .ok "12px" := by
  have hmain : ([] : List String).length < stackLimit := by decide
  have htag : (["tag"] : List String).length < stackLimit := by decide
  let bound : Scope := [("text", .string "12"), ("unit", .string "px")]
  rw [Reference.block_singleton rfl, Reference.call_of_shape hmain (by decide) hfind]
  show Reference.block ⟨r, stackLimit⟩ ["tag"] bound tagShape.body = .ok "12px"
  rw [Reference.block_singleton rfl, Reference.call_of_svg htag rfl]
  rfl

theorem document_of_tagMain {library : LibraryText} {base r : Registry} {p : Program}
    (hload : library.load = .ok base) (hreg : base.register p true = .ok r)
    (hmain : r.find? mainName = some tagMain) (htag : r.find? "tag" = some tagShape) :
    p.document library = .ok (documentOf "12px") := by
  obtain ⟨m, _, hfind, hdoc⟩ := document_of_register hload hreg
  obtain rfl : tagMain = m := Option.some.inj (hmain.symm.trans hfind)
  rw [hdoc, block_tagMain htag]
  rfl

/-- With the builtin library that program is well formed; it has a document,
and the shape that its `main` calls runs. -/
theorem tagProgram_names_decided :
    ∃ base, LibraryText.builtin.load = .ok base ∧ tagProgram.WellFormed base ∧
      ((∃ svg, tagProgram.document .builtin = .ok svg) ∨
        ∃ e, tagProgram.document .builtin = .error (.problem (.eval e)) ∧
          e.fault.isTypeOrOverflow) ∧
      tagProgram.document .builtin = .ok (documentOf "12px") ∧
      ∃ r, base.register tagProgram true = .ok r ∧ r.Runs tagShape ∧ tagShape.WellScoped r := by
  obtain ⟨base, hload, hnames, _⟩ := builtin_load
  obtain ⟨r, hreg⟩ : ∃ r, base.register tagProgram true = .ok r :=
    register_of_builtin hnames rfl (by decide) rfl
  have htag : r.find? "tag" = some tagShape :=
    Registry.find?_of_register hreg tagShape List.mem_cons_self
  have hmain : r.find? mainName = some tagMain :=
    Registry.find?_of_register hreg tagMain (List.mem_cons_of_mem _ List.mem_cons_self)
  have hwellFormed : tagProgram.WellFormed base := by
    refine ⟨r, hreg, fun s hs => ?_⟩
    simp only [tagProgram, List.mem_cons, List.not_mem_nil, or_false] at hs
    rcases hs with rfl | rfl
    · exact tagShape_wellScoped r
    · exact tagMain_wellScoped htag
  have hdoc := document_of_tagMain hload hreg hmain htag
  have hdecided := names_decided_statically hload tagProgram
  obtain ⟨r', hreg', hruns⟩ := hdecided.2 _ hdoc
  obtain rfl : r = r' := Except.ok.inj (hreg.symm.trans hreg')
  have htagRuns : r.Runs tagShape := by
    refine .inr ⟨"tag", by decide, ⟨"tag", ⟨tagMain, hmain, ?_⟩, .refl⟩, htag⟩
    exact ⟨_, List.mem_singleton.mpr rfl, rfl⟩
  exact ⟨base, hload, hwellFormed, hdecided.1 hwellFormed, hdoc, r, hreg, htagRuns,
    hruns tagShape htagRuns⟩

end ShapeScript
