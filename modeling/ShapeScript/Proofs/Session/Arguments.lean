/-
ShapeScript.Proofs.Session.Arguments — what binding a call's arguments
comes to.

Binding can fail in four ways, and several reasons to fail may be present at
once. `Binding` says which of them counts. The arguments are looked at
first, in the order of the call, and the first that is rejected ends it:
`Shape.Rejects` knows nothing of scopes and values. Then the parameters take
their expressions, in the order of the declaration, and the first without
one, or whose expression fails in the caller's scope, ends it. Otherwise
every parameter's name is bound, once, and if several parameters have it,
to what the last of them takes.

`bindArguments_eq_iff` says that this is what binding does and that the
rules leave no choice. They never mention the default of a parameter that
is supplied, and `bindArguments_sameFor` draws the conclusion: any default
may stand there.
-/
import Mathlib.Data.List.Dedup
import Mathlib.Data.List.Induction
import ShapeScript.Proofs.Session.Declarations

namespace ShapeScript

/-! ## Definitions -/

/-- The arguments have different names, all of them names of parameters. -/
structure Shape.Accepts (s : Shape) (arguments : List Argument) : Prop where
  distinct : (arguments.map Argument.name).Nodup
  declared : ∀ a ∈ arguments, a.name ∈ s.parameterNames

/-- The first of the arguments that is rejected is rejected with the
error. -/
inductive Shape.Rejects (s : Shape) : List Argument → EvalError → Prop
  | undeclared {before after : List Argument} {a : Argument} (hbefore : s.Accepts before)
      (hname : a.name ∉ s.parameterNames) :
      s.Rejects (before ++ a :: after) ⟨.invalidArgumentName s.name a.name, a.pos⟩
  | repeated {before after : List Argument} {a : Argument} (hbefore : s.Accepts before)
      (hname : a.name ∈ before.map Argument.name) :
      s.Rejects (before ++ a :: after) ⟨.unexpectedArgument s.name a.name, a.pos⟩

/-- The call supplies the parameter. -/
def Call.SuppliesParameter (c : Call) (p : Parameter) : Prop :=
  ∃ a ∈ c.arguments, a.name = p.name

/-- The expression that a parameter takes: its argument if it is supplied,
or else its default. -/
inductive Call.Takes (c : Call) (p : Parameter) : Expr → Prop
  | argument {a : Argument} (ha : a ∈ c.arguments) (hname : a.name = p.name) : c.Takes p a.value
  | fallback {e : Expr} (hother : ¬ c.SuppliesParameter p) (he : p.fallback = some e) :
      c.Takes p e

/-- The parameter takes an expression that has the value in the caller's
scope. -/
def Call.Gives (c : Call) (scope : Scope) (p : Parameter) (v : Value) : Prop :=
  ∃ e, c.Takes p e ∧ e.evaluate scope = .ok v

/-- The names of the parameters, each once, in the order in which they are
first declared. -/
def declaredNames (parameters : List Parameter) : List String :=
  (parameters.map Parameter.name).reverse.dedup.reverse

/-- The entry binds the name to what the last of the parameters with that
name is given. -/
def Call.Binds (c : Call) (scope : Scope) (parameters : List Parameter) (n : String)
    (entry : String × Value) : Prop :=
  entry.1 = n ∧ ∃ p, lastNamed parameters n = some p ∧ c.Gives scope p entry.2

/-- What binding the arguments of a call to the parameters of a shape comes
to, in the scope of the caller. -/
inductive Binding (scope : Scope) (shape : Shape) (c : Call) : Except EvalError Scope → Prop
  | rejected {e : EvalError} (h : shape.Rejects c.arguments e) : Binding scope shape c (.error e)
  | missing {before after : List Parameter} {p : Parameter}
      (haccepted : shape.Accepts c.arguments) (hsplit : shape.parameters = before ++ p :: after)
      (hbefore : ∀ q ∈ before, ∃ v, c.Gives scope q v) (hother : ¬ c.SuppliesParameter p)
      (hfallback : p.fallback = none) :
      Binding scope shape c (.error ⟨.missingRequiredArgument shape.name p.name, c.pos⟩)
  | fails {before after : List Parameter} {p : Parameter} {x : Expr} {e : EvalError}
      (haccepted : shape.Accepts c.arguments) (hsplit : shape.parameters = before ++ p :: after)
      (hbefore : ∀ q ∈ before, ∃ v, c.Gives scope q v) (hx : c.Takes p x)
      (he : x.evaluate scope = .error e) : Binding scope shape c (.error e)
  | bound {bound : Scope} (haccepted : shape.Accepts c.arguments)
      (hgiven : ∀ p ∈ shape.parameters, ∃ v, c.Gives scope p v)
      (hbound : List.Forall₂ (c.Binds scope shape.parameters) (declaredNames shape.parameters)
        bound) : Binding scope shape c (.ok bound)

/-- The shapes differ, if at all, in the defaults of parameters that the
call supplies, and in their bodies. -/
structure Shape.SameFor (c : Call) (s s' : Shape) : Prop where
  name : s.name = s'.name
  parameters : List.Forall₂
    (fun p p' => p.name = p'.name ∧ (¬ c.SuppliesParameter p → p.fallback = p'.fallback))
    s.parameters s'.parameters

/-! ## Arguments -/

section Arguments

variable {s : Shape} {arguments : List Argument}

theorem checkArguments_eq_ok_iff : checkArguments s arguments [] = .ok () ↔ s.Accepts arguments := by
  rw [checkArguments_eq_ok]
  constructor
  · intro ⟨hdistinct, hdeclared⟩
    exact ⟨hdistinct, fun a ha => (hdeclared a ha).1⟩
  · intro h
    exact ⟨h.distinct, fun a ha => ⟨h.declared a ha, List.not_mem_nil⟩⟩

/-- Behind arguments that are accepted the check goes on with their names
seen. -/
theorem checkArguments_append {before rest : List Argument} {seen : List String}
    (h : checkArguments s before seen = .ok ()) :
    checkArguments s (before ++ rest) seen =
      checkArguments s rest ((before.map Argument.name).reverse ++ seen) := by
  induction before generalizing seen with
  | nil => rfl
  | cons a before ih =>
    rw [checkArguments] at h
    rw [List.cons_append, checkArguments]
    split at h
    · cases h
    · rename_i hdeclared
      split at h
      · cases h
      · rename_i hseen
        rw [if_neg hdeclared, if_neg hseen, ih h]
        simp

theorem checkArguments_of_rejects {e : EvalError} (h : s.Rejects arguments e) :
    checkArguments s arguments [] = .error e := by
  cases h with
  | @undeclared before after a hbefore hname =>
    rw [checkArguments_append (checkArguments_eq_ok_iff.mpr hbefore), checkArguments]
    simp [Bool.eq_false_iff.mpr (mt Shape.any_parameters.mp hname)]
  | @repeated before after a hbefore hname =>
    have hdeclared : a.name ∈ s.parameterNames := by
      obtain ⟨b, hb, hsame⟩ := List.mem_map.mp hname
      exact hsame ▸ hbefore.declared b hb
    have hseen : a.name ∈ (before.map Argument.name).reverse ++ [] := by
      rwa [List.append_nil, List.mem_reverse]
    rw [checkArguments_append (checkArguments_eq_ok_iff.mpr hbefore), checkArguments,
      Shape.any_parameters.mpr hdeclared, List.contains_iff_mem.mpr hseen]
    rfl

/-- Of arguments that are not accepted there is a first that is
rejected. -/
theorem exists_rejects (h : ¬ s.Accepts arguments) : ∃ e, s.Rejects arguments e := by
  obtain ⟨before, a, after, rfl, hbefore, ha⟩ :=
    exists_first_of_not (A := s.Accepts) ⟨.nil, nofun⟩ h
  by_cases hname : a.name ∈ s.parameterNames
  · by_cases hseen : a.name ∈ before.map Argument.name
    · exact ⟨_, .repeated hbefore hseen⟩
    · refine absurd ⟨?_, ?_⟩ ha
      · rw [List.map_append]
        exact hbefore.distinct.append (List.nodup_singleton _) (by simpa using hseen)
      · simp only [List.forall_mem_append, List.forall_mem_singleton]
        exact ⟨hbefore.declared, hname⟩
  · exact ⟨_, .undeclared hbefore hname⟩

end Arguments

/-! ## Parameters -/

section Parameters

variable {scope : Scope} {shape : Shape} {c : Call} {p : Parameter}

theorem takes_iff (haccepted : shape.Accepts c.arguments) {x : Expr} :
    chosenExpr c.arguments p = some x ↔ c.Takes p x := by
  constructor
  · intro h
    rcases chosenExpr_eq_some h with ⟨a, ha, hname, rfl⟩ | ⟨hother, hfallback⟩
    · exact .argument ha hname
    · exact .fallback (fun ⟨a, ha, hname⟩ => hother a ha hname) hfallback
  · intro h
    cases h with
    | argument ha hname => exact chosenExpr_of_mem haccepted.distinct ha hname
    | fallback hother hfallback =>
      have hnone : c.arguments.find? (·.name == p.name) = none := by
        simpa [Call.SuppliesParameter] using hother
      rw [chosenExpr, hnone, hfallback]

theorem takesNothing_iff :
    chosenExpr c.arguments p = none ↔ ¬ c.SuppliesParameter p ∧ p.fallback = none := by
  simp [chosenExpr_eq_none, Call.SuppliesParameter]

theorem gives_iff (haccepted : shape.Accepts c.arguments) {v : Value} :
    c.Gives scope p v ↔
      ∃ x, chosenExpr c.arguments p = some x ∧ Reference.value scope x = .ok v := by
  simp only [Call.Gives, takes_iff haccepted, evaluate_eq_value]

/-- What a parameter is given is one value. -/
theorem Call.Gives.unique (haccepted : shape.Accepts c.arguments) {v w : Value}
    (hv : c.Gives scope p v) (hw : c.Gives scope p w) : v = w := by
  obtain ⟨x, hx, hv⟩ := (gives_iff haccepted).mp hv
  obtain ⟨y, hy, hw⟩ := (gives_iff haccepted).mp hw
  obtain rfl := Option.some.inj (hx.symm.trans hy)
  exact Except.ok.inj (hv.symm.trans hw)

/-! ### Names -/

theorem declaredNames_concat (parameters : List Parameter) (p : Parameter) :
    declaredNames (parameters ++ [p]) =
      if p.name ∈ parameters.map Parameter.name then declaredNames parameters
      else declaredNames parameters ++ [p.name] := by
  simp only [declaredNames, List.map_append, List.map_singleton, List.reverse_append,
    List.reverse_singleton, List.singleton_append]
  split
  · rename_i hmem
    rw [List.dedup_cons_of_mem (List.mem_reverse.mpr hmem)]
  · rename_i hmem
    rw [List.dedup_cons_of_notMem (mt List.mem_reverse.mp hmem), List.reverse_cons]

theorem mem_declaredNames {parameters : List Parameter} {n : String} :
    n ∈ declaredNames parameters ↔ n ∈ parameters.map Parameter.name := by
  rw [declaredNames, List.mem_reverse, List.mem_dedup, List.mem_reverse]

theorem nodup_declaredNames (parameters : List Parameter) : (declaredNames parameters).Nodup :=
  List.nodup_reverse.mpr (List.nodup_dedup _)

theorem lastNamed_concat (parameters : List Parameter) (p : Parameter) (n : String) :
    lastNamed (parameters ++ [p]) n = if p.name = n then some p else lastNamed parameters n := by
  rw [lastNamed, List.reverse_append, List.reverse_singleton, List.singleton_append,
    List.find?_cons, lastNamed]
  by_cases hn : p.name = n
  · rw [if_pos hn, beq_iff_eq.mpr hn]
  · rw [if_neg hn, beq_eq_false_iff_ne.mpr hn]

/-! ### One parameter more -/

/-- Binding a name that is bound changes its entry, and binding another adds
one at the end. -/
theorem Scope.forall₂_bind {R R' : String → String × Value → Prop} {names : List String}
    {bound : Scope} {n : String} {v : Value} (h : List.Forall₂ R names bound)
    (hnames : names.Nodup) (hkey : ∀ m entry, R m entry → entry.1 = m)
    (hother : ∀ m entry, m ≠ n → R m entry → R' m entry) (hn : R' n (n, v)) :
    List.Forall₂ R' (if n ∈ names then names else names ++ [n]) (bound.bind n v) := by
  induction h with
  | nil => exact .cons hn .nil
  | @cons m entry names bound hentry hrest ih =>
    obtain ⟨hm, hnames⟩ := List.nodup_cons.mp hnames
    have hhead := hkey m entry hentry
    rw [bind]
    by_cases hmn : m = n
    · subst hmn
      have hothers : List.Forall₂ R' names bound :=
        forall₂_imp_of_mem hrest fun k hk entry' hR =>
          hother k entry' (fun hsame => hm (hsame ▸ hk)) hR
      rw [if_pos hhead, if_pos List.mem_cons_self, hhead]
      exact .cons hn hothers
    · have hhead : entry.1 ≠ n := hhead ▸ hmn
      have hmem : n ∈ m :: names ↔ n ∈ names := by simp [Ne.symm hmn]
      have hrest := ih hnames
      rw [if_neg hhead]
      simp only [hmem]
      split
      · rename_i hn'
        rw [if_pos hn'] at hrest
        exact .cons (hother m entry hmn hentry) hrest
      · rename_i hn'
        rw [if_neg hn'] at hrest
        exact .cons (hother m entry hmn hentry) hrest

/-- When the parameters before it are bound, one parameter more is. -/
theorem Call.binds_concat {parameters : List Parameter} {bound : Scope} {v : Value}
    (h : List.Forall₂ (c.Binds scope parameters) (declaredNames parameters) bound)
    (hv : c.Gives scope p v) :
    List.Forall₂ (c.Binds scope (parameters ++ [p])) (declaredNames (parameters ++ [p]))
      (bound.bind p.name v) := by
  rw [declaredNames_concat]
  simp only [← mem_declaredNames]
  refine Scope.forall₂_bind h (nodup_declaredNames parameters) (fun _ _ hbinds => hbinds.1) ?_ ?_
  · intro m entry hne ⟨hkey, q, hlast, hgives⟩
    exact ⟨hkey, q, by rw [lastNamed_concat, if_neg (Ne.symm hne), hlast], hgives⟩
  · exact ⟨rfl, p, by rw [lastNamed_concat, if_pos rfl], hv⟩

/-- Entries that are bound under the same names are the same. -/
theorem Call.binds_unique (haccepted : shape.Accepts c.arguments) {parameters : List Parameter}
    {names : List String} {bound bound' : Scope}
    (h : List.Forall₂ (c.Binds scope parameters) names bound)
    (h' : List.Forall₂ (c.Binds scope parameters) names bound') : bound = bound' := by
  induction h generalizing bound' with
  | nil => cases h'; rfl
  | @cons n entry names bound hentry _ ih =>
    cases h' with
    | @cons _ entry' _ bound'' hentry' hrest' =>
      obtain ⟨hkey, p, hlast, hgives⟩ := hentry
      obtain ⟨hkey', p', hlast', hgives'⟩ := hentry'
      obtain rfl := Option.some.inj (hlast.symm.trans hlast')
      have hvalue := hgives.unique haccepted hgives'
      rw [ih hrest', Prod.ext (hkey.trans hkey'.symm) hvalue]

/-! ### All parameters -/

namespace Reference

variable {before : Scope} {parameters : List Parameter}

theorem bindParameter_of_gives (haccepted : shape.Accepts c.arguments) {v : Value}
    (hv : c.Gives scope p v) :
    bindParameter scope shape c before p = .ok (before.bind p.name v) := by
  obtain ⟨x, hx, hvalue⟩ := (gives_iff haccepted).mp hv
  simp only [bindParameter, hx, hvalue]
  rfl

theorem gives_of_foldlM {bound : Scope} (haccepted : shape.Accepts c.arguments)
    (h : parameters.foldlM (bindParameter scope shape c) before = .ok bound) :
    ∀ q ∈ parameters, ∃ v, c.Gives scope q v := by
  intro q hq
  obtain ⟨_, _, hstep⟩ := foldlM_eq_ok h q hq
  obtain ⟨x, v, hx, hv, _⟩ := bindParameter_eq_ok hstep
  exact ⟨v, (gives_iff haccepted).mpr ⟨x, hx, hv⟩⟩

/-- Parameters that are all given a value are bound to them. -/
theorem foldlM_of_gives (haccepted : shape.Accepts c.arguments)
    (hgiven : ∀ q ∈ parameters, ∃ v, c.Gives scope q v) :
    ∃ bound, parameters.foldlM (bindParameter scope shape c) [] = .ok bound ∧
      List.Forall₂ (c.Binds scope parameters) (declaredNames parameters) bound := by
  induction parameters using List.reverseRecOn with
  | nil => exact ⟨[], rfl, .nil⟩
  | append_singleton init p ih =>
    obtain ⟨hinit, hp⟩ := List.forall_mem_append.mp hgiven
    obtain ⟨v, hv⟩ := hp p (List.mem_singleton.mpr rfl)
    obtain ⟨before, hfold, hbefore⟩ := ih hinit
    refine ⟨before.bind p.name v, ?_, Call.binds_concat hbefore hv⟩
    rw [List.foldlM_append, bind_eq_ok]
    refine ⟨before, hfold, ?_⟩
    rw [List.foldlM_cons, bindParameter_of_gives haccepted hv]
    rfl

theorem bindAll_of_accepts (haccepted : shape.Accepts c.arguments) :
    bindAll scope shape c = shape.parameters.foldlM (bindParameter scope shape c) [] := by
  rw [bindAll, checkArguments_eq_ok_iff.mpr haccepted]
  rfl

end Reference

end Parameters

/-! ## Binding -/

section Outcome

variable {scope : Scope} {shape : Shape} {c : Call} {p : Parameter}

/-- Whatever the rules give is what binding comes to. -/
theorem Binding.eq_bindArguments {r : Except EvalError Scope} (h : Binding scope shape c r) :
    bindArguments scope shape c = r := by
  rw [bindArguments_eq_bindAll]
  cases h with
  | rejected h =>
    rw [Reference.bindAll, checkArguments_of_rejects h]
    rfl
  | missing haccepted hsplit hbefore hother hfallback =>
    obtain ⟨bound, hfold, _⟩ := Reference.foldlM_of_gives haccepted hbefore
    rw [Reference.bindAll_of_accepts haccepted, foldlM_eq_error_iff]
    refine ⟨_, _, _, bound, hsplit, hfold, ?_⟩
    rw [Reference.bindParameter, takesNothing_iff.mpr ⟨hother, hfallback⟩]
  | fails haccepted hsplit hbefore hx he =>
    obtain ⟨bound, hfold, _⟩ := Reference.foldlM_of_gives haccepted hbefore
    rw [Reference.bindAll_of_accepts haccepted, foldlM_eq_error_iff]
    refine ⟨_, _, _, bound, hsplit, hfold, ?_⟩
    rw [evaluate_eq_value] at he
    simp only [Reference.bindParameter, (takes_iff haccepted).mpr hx, he]
    rfl
  | bound haccepted hgiven hbound =>
    obtain ⟨bound', hfold, hbound'⟩ := Reference.foldlM_of_gives haccepted hgiven
    rw [Reference.bindAll_of_accepts haccepted, hfold, Call.binds_unique haccepted hbound' hbound]

/-- Whatever binding comes to, the rules give. -/
theorem binding_bindArguments (scope : Scope) (shape : Shape) (c : Call) :
    Binding scope shape c (bindArguments scope shape c) := by
  rw [bindArguments_eq_bindAll]
  by_cases haccepted : shape.Accepts c.arguments
  · rw [Reference.bindAll_of_accepts haccepted]
    cases hfold : shape.parameters.foldlM (Reference.bindParameter scope shape c) [] with
    | ok bound =>
      have hgiven := Reference.gives_of_foldlM haccepted hfold
      obtain ⟨bound', hfold', hbound⟩ := Reference.foldlM_of_gives haccepted hgiven
      obtain rfl := Except.ok.inj (hfold'.symm.trans hfold)
      exact .bound haccepted hgiven hbound
    | error e =>
      obtain ⟨before, p, after, bound, hsplit, hbefore, hstep⟩ := foldlM_eq_error_iff.mp hfold
      have hgiven := Reference.gives_of_foldlM haccepted hbefore
      rcases Reference.bindParameter_eq_error hstep with ⟨hnone, rfl⟩ | ⟨x, hx, he⟩
      · obtain ⟨hother, hfallback⟩ := takesNothing_iff.mp hnone
        exact .missing haccepted hsplit hgiven hother hfallback
      · rw [← evaluate_eq_value] at he
        exact .fails haccepted hsplit hgiven ((takes_iff haccepted).mp hx) he
  · obtain ⟨e, he⟩ := exists_rejects haccepted
    rw [Reference.bindAll, checkArguments_of_rejects he]
    exact .rejected he

/-- Binding comes to what the rules give, and to nothing else. -/
theorem bindArguments_eq_iff {r : Except EvalError Scope} :
    bindArguments scope shape c = r ↔ Binding scope shape c r := by
  constructor
  · intro h
    exact h ▸ binding_bindArguments scope shape c
  · exact Binding.eq_bindArguments

/-- What a parameter takes does not depend on its default if it is
supplied. -/
theorem chosenExpr_of_supplied {p p' : Parameter} (hname : p.name = p'.name)
    (hfallback : ¬ c.SuppliesParameter p → p.fallback = p'.fallback) :
    chosenExpr c.arguments p = chosenExpr c.arguments p' := by
  rw [chosenExpr, chosenExpr, ← hname]
  cases hfound : c.arguments.find? (·.name == p.name) with
  | some a => rfl
  | none => exact hfallback (by simpa [Call.SuppliesParameter] using hfound)

/-- The defaults of parameters that are supplied are not evaluated: others
may stand in their place. -/
theorem bindArguments_sameFor {shape' : Shape} (h : shape.SameFor c shape') (scope : Scope) :
    bindArguments scope shape c = bindArguments scope shape' c := by
  have hcheck := checkArguments_related (E := Eq) h.name
    (h.parameters.imp fun _ _ hp => hp.1)
    (List.forall₂_same.mpr fun a _ => ⟨rfl, fun _ => rfl⟩ :
      List.Forall₂ _ c.arguments c.arguments) []
  have hfold : Corresponds Eq Eq
      (shape.parameters.foldlM (Reference.bindParameter scope shape c) [])
      (shape'.parameters.foldlM (Reference.bindParameter scope shape' c) []) := by
    refine .foldlM h.parameters (fun bound bound' p p' hbound hp => ?_) rfl
    rw [hbound, Reference.bindParameter, Reference.bindParameter,
      chosenExpr_of_supplied hp.1 hp.2, h.name, hp.1]
    exact .refl (fun _ => rfl) (fun _ => rfl) _
  rw [bindArguments_eq_bindAll, bindArguments_eq_bindAll, Reference.bindAll, Reference.bindAll,
    hcheck.eq, hfold.eq]

end Outcome

/-- How a call binds its arguments, from any session. Binding comes to what
its rules give: the first argument that is rejected is reported, whatever
values there are; or else the first parameter that has no expression, or
whose expression fails in the caller's scope; or else exactly the
parameters' names are bound. Defaults of parameters that are supplied make
no difference. A call whose arguments cannot be bound fails with that error
and leaves the session as it was; with the others bound, the body runs on
top of the caller's stack, and then the session is as it was. -/
theorem Session.call_binds_arguments (s : Session) (shape : Shape) (c : Call) :
    (∀ r, bindArguments s.scope shape c = r ↔ Binding s.scope shape c r) ∧
    (∀ shape', shape.SameFor c shape' →
      bindArguments s.scope shape c = bindArguments s.scope shape' c) ∧
    (s.stack.length < s.limit → c.callee ≠ svgName → s.registry.find? c.callee = some shape →
      (∀ e, bindArguments s.scope shape c = .error e → s.call c = (.error e, s)) ∧
      ∀ bound, bindArguments s.scope shape c = .ok bound →
        s.call c = (((s.entered c.callee bound).block shape.body).1, s)) := by
  refine ⟨fun r => bindArguments_eq_iff, fun shape' h => bindArguments_sameFor h s.scope, ?_⟩
  intro hroom hsvg hfind
  have hcall := call_eq_runShape hroom hsvg hfind
  refine ⟨fun e hbind => ?_, fun bound hbind => ?_⟩
  · rw [hcall, runShape, hbind]
  · rw [hcall, runShape, hbind]

/-- `shape f(a = 1, b, a = unit) { }`: two parameters of one name. -/
def repeating : Shape :=
  ⟨"f", [⟨"a", some (.number 1 .origin), .origin⟩, ⟨"b", none, .origin⟩,
    ⟨"a", some (.name "unit" .origin), .origin⟩], ⟨[], .origin⟩, .origin⟩

/-- A session that can call it, with a caller that knows `unit`. -/
def repeatingSession : Session := ⟨⟨[repeating]⟩, stackLimit, [], [("unit", .string "px")]⟩

/-- `f(b: "x")`. -/
def repeatingCall : Call := ⟨"f", [⟨"b", .string "x" .origin, .origin⟩], .origin⟩

/-- The name that two parameters have is bound once, to the default of the
second. -/
theorem repeating_binds_last :
    Binding repeatingSession.scope repeating repeatingCall
        (.ok [("a", .string "px"), ("b", .string "x")]) ∧
      repeatingSession.call repeatingCall = (.ok "", repeatingSession) := by
  have hbind : bindArguments repeatingSession.scope repeating repeatingCall =
      .ok [("a", .string "px"), ("b", .string "x")] := by
    rw [bindArguments_eq_bindAll]
    rfl
  obtain ⟨hrules, _, hcall⟩ := repeatingSession.call_binds_arguments repeating repeatingCall
  refine ⟨(hrules _).mp hbind, ?_⟩
  rw [(hcall (by decide) (by decide) rfl).2 _ hbind]
  rfl

end ShapeScript
