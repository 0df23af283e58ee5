/-
ShapeScript.Proofs.Session.Binding — what binding a callee's parameters
comes to.

Binding first checks the arguments, without evaluating anything, and
`checkArguments_eq_ok` says which ones it accepts. Then it goes through the
parameters. `find?_of_bindAll` says what the callee's scope holds after
that: nothing but the parameters, and each of them the value that its chosen
expression has in the scope of the caller. Where several parameters have one
name, the last of them is the one that counts. `checkArguments_related` and
`chosenExpr_related` compare how two calls are bound.
-/
import Mathlib.Data.List.Nodup
import ShapeScript.Editor.Signature
import ShapeScript.Proofs.Expr.Names

namespace ShapeScript

/-! ## Scopes -/

theorem Scope.find?_cons (name : String) (v : Value) (rest : Scope) (n : String) :
    Scope.find? ((name, v) :: rest) n = if n = name then some v else rest.find? n := by
  unfold find?
  rw [List.lookup_cons]
  by_cases hn : n = name
  · rw [if_pos hn, beq_iff_eq.mpr hn]
  · rw [if_neg hn, beq_eq_false_iff_ne.mpr hn]

theorem Scope.find?_bind (scope : Scope) (name : String) (v : Value) (n : String) :
    (scope.bind name v).find? n = if n = name then some v else scope.find? n := by
  induction scope with
  | nil => exact find?_cons name v [] n
  | cons entry rest ih =>
    obtain ⟨m, w⟩ := entry
    rw [bind]
    split
    · rename_i hm
      rw [find?_cons, find?_cons, hm]
      split <;> rfl
    · rename_i hm
      rw [find?_cons, find?_cons, ih]
      split
      · rename_i hn
        rw [if_neg (hn ▸ hm)]
      · rfl

/-! ## Parameters of a name -/

theorem Shape.mem_parameterNames {s : Shape} {n : String} :
    n ∈ s.parameterNames ↔ ∃ p ∈ s.parameters, p.name = n := by
  simp [parameterNames]

theorem Shape.any_parameters {s : Shape} {n : String} :
    s.parameters.any (·.name == n) = true ↔ n ∈ s.parameterNames := by
  simp [parameterNames]

/-- The last of the parameters with a name. -/
def lastNamed (parameters : List Parameter) (n : String) : Option Parameter :=
  parameters.reverse.find? (·.name == n)

theorem lastNamed_cons (p : Parameter) (parameters : List Parameter) (n : String) :
    lastNamed (p :: parameters) n =
      (lastNamed parameters n).or (if n = p.name then some p else none) := by
  rw [lastNamed, List.reverse_cons, List.find?_append, List.find?_singleton, lastNamed]
  by_cases hn : n = p.name
  · rw [if_pos hn, if_pos (beq_iff_eq.mpr hn.symm)]
  · rw [if_neg hn, if_neg (mt beq_iff_eq.mp (Ne.symm hn))]

theorem lastNamed_eq_none {parameters : List Parameter} {n : String} :
    lastNamed parameters n = none ↔ ∀ p ∈ parameters, p.name ≠ n := by
  simp [lastNamed]

theorem lastNamed_eq_some {parameters : List Parameter} {n : String} {p : Parameter}
    (h : lastNamed parameters n = some p) : p ∈ parameters ∧ p.name = n := by
  have hmem := List.mem_of_find?_eq_some h
  have hname := List.find?_some h
  exact ⟨List.mem_reverse.mp hmem, beq_iff_eq.mp hname⟩

/-! ## Arguments that are accepted -/

/-- Arguments are accepted when no name is given twice and each is that of
a parameter. -/
theorem checkArguments_eq_ok {shape : Shape} {arguments : List Argument} {seen : List String} :
    checkArguments shape arguments seen = .ok () ↔
      (arguments.map Argument.name).Nodup ∧
        ∀ a ∈ arguments, a.name ∈ shape.parameterNames ∧ a.name ∉ seen := by
  induction arguments generalizing seen with
  | nil => simp [checkArguments]
  | cons a rest ih =>
    rw [checkArguments]
    by_cases hname : a.name ∈ shape.parameterNames
    · by_cases hseen : a.name ∈ seen
      · simp [Shape.any_parameters.mpr hname, hseen]
      · have hrest : (∀ b ∈ rest, b.name ∈ shape.parameterNames ∧ b.name ∉ a.name :: seen) ↔
            a.name ∉ rest.map Argument.name ∧
              ∀ b ∈ rest, b.name ∈ shape.parameterNames ∧ b.name ∉ seen := by
          simp only [List.mem_map, List.mem_cons]
          grind
        simp only [Shape.any_parameters.mpr hname, hseen, Bool.not_true, Bool.false_eq_true, if_false,
          List.contains_eq_mem, decide_false, ih, hrest, List.map_cons, List.nodup_cons,
          List.forall_mem_cons]
        grind
    · simp [Bool.eq_false_iff.mpr (mt Shape.any_parameters.mp hname), hname]

/-- An argument that is rejected is not that of a parameter, or its name is
given twice. -/
theorem checkArguments_eq_error {shape : Shape} {arguments : List Argument} {seen : List String}
    {e : EvalError} (h : checkArguments shape arguments seen = .error e) :
    ∃ a ∈ arguments,
      a.name ∉ shape.parameterNames ∧ e = ⟨.invalidArgumentName shape.name a.name, a.pos⟩ ∨
      (a.name ∈ seen ∨ ¬ (arguments.map Argument.name).Nodup) ∧
        e = ⟨.unexpectedArgument shape.name a.name, a.pos⟩ := by
  induction arguments generalizing seen with
  | nil => cases h
  | cons a rest ih =>
    rw [checkArguments] at h
    split at h
    · rename_i hundeclared
      rw [Bool.not_eq_true', Bool.eq_false_iff, ne_eq, Shape.any_parameters] at hundeclared
      exact ⟨a, List.mem_cons_self, .inl ⟨hundeclared, (Except.error.inj h).symm⟩⟩
    · split at h
      · rename_i hseen
        exact ⟨a, List.mem_cons_self,
          .inr ⟨.inl (List.contains_iff_mem.mp hseen), (Except.error.inj h).symm⟩⟩
      · obtain ⟨b, hb, hundeclared | ⟨hrepeated, he⟩⟩ := ih h
        · exact ⟨b, List.mem_cons_of_mem a hb, .inl hundeclared⟩
        · refine ⟨b, List.mem_cons_of_mem a hb, .inr ⟨?_, he⟩⟩
          rw [List.map_cons, List.nodup_cons]
          rcases hrepeated with hmem | hrest
          · rcases List.mem_cons.mp hmem with hname | hseen
            · exact .inr fun hnodup => hnodup.1 (hname ▸ List.mem_map_of_mem hb)
            · exact .inl hseen
          · exact .inr fun hnodup => hrest hnodup.2

/-- The check looks at names, and reports the places of arguments. -/
theorem checkArguments_related {E : EvalError → EvalError → Prop} {s s' : Shape}
    {arguments arguments' : List Argument} (hname : s.name = s'.name)
    (hparameters : List.Forall₂ (fun p p' => p.name = p'.name) s.parameters s'.parameters)
    (h : List.Forall₂ (fun a a' => a.name = a'.name ∧ ∀ fault, E ⟨fault, a.pos⟩ ⟨fault, a'.pos⟩)
      arguments arguments') (seen : List String) :
    Corresponds E Eq (checkArguments s arguments seen) (checkArguments s' arguments' seen) := by
  induction h generalizing seen with
  | nil => exact .ok rfl
  | @cons a a' _ _ ha _ ih =>
    have hdeclared : s.parameters.any (·.name == a.name) = s'.parameters.any (·.name == a'.name) :=
      any_related hparameters fun p p' hp => by rw [hp, ha.1]
    rw [checkArguments, checkArguments, ← hdeclared, ← ha.1, ← hname]
    split
    · exact .error (ha.2 _)
    · split
      · exact .error (ha.2 _)
      · exact ih _

/-- An argument that is accepted is the one that its parameter takes. -/
theorem chosenExpr_of_mem {arguments : List Argument} {a : Argument} {p : Parameter}
    (hdistinct : (arguments.map Argument.name).Nodup) (ha : a ∈ arguments)
    (hname : a.name = p.name) : chosenExpr arguments p = some a.value := by
  unfold chosenExpr
  cases hfound : arguments.find? (·.name == p.name) with
  | none =>
    have hnone := List.find?_eq_none.mp hfound a ha
    exact absurd (beq_iff_eq.mpr hname) hnone
  | some b =>
    have hb := List.find?_some hfound
    have hb : b.name = a.name := (beq_iff_eq.mp hb).trans hname.symm
    have hsame : b = a :=
      List.inj_on_of_nodup_map hdistinct (List.mem_of_find?_eq_some hfound) ha hb
    rw [hsame]

/-- What a parameter takes is an argument of its name or, without one, its
default. -/
theorem chosenExpr_eq_some {arguments : List Argument} {p : Parameter} {e : Expr}
    (h : chosenExpr arguments p = some e) :
    (∃ a ∈ arguments, a.name = p.name ∧ a.value = e) ∨
      ((∀ a ∈ arguments, a.name ≠ p.name) ∧ p.fallback = some e) := by
  unfold chosenExpr at h
  cases hfound : arguments.find? (·.name == p.name) with
  | some a =>
    rw [hfound] at h
    have hname := List.find?_some hfound
    exact .inl ⟨a, List.mem_of_find?_eq_some hfound, beq_iff_eq.mp hname, Option.some.inj h⟩
  | none =>
    rw [hfound] at h
    refine .inr ⟨fun a ha hname => ?_, h⟩
    exact List.find?_eq_none.mp hfound a ha (beq_iff_eq.mpr hname)

theorem chosenExpr_eq_none {arguments : List Argument} {p : Parameter} :
    chosenExpr arguments p = none ↔
      (∀ a ∈ arguments, a.name ≠ p.name) ∧ p.fallback = none := by
  unfold chosenExpr
  cases hfound : arguments.find? (·.name == p.name) with
  | some a =>
    have hname := List.find?_some hfound
    simp only [reduceCtorEq, false_iff, not_and]
    exact fun h => absurd (beq_iff_eq.mp hname) (h a (List.mem_of_find?_eq_some hfound))
  | none =>
    have hother : ∀ a ∈ arguments, a.name ≠ p.name := by simpa using hfound
    exact ⟨fun h => ⟨hother, h⟩, fun h => h.2⟩

/-- From related arguments, or else related defaults, parameters of one
name take related expressions. -/
theorem chosenExpr_related {V : Expr → Expr → Prop} {arguments arguments' : List Argument}
    {p p' : Parameter}
    (h : List.Forall₂ (fun a a' => a.name = a'.name ∧ V a.value a'.value) arguments arguments')
    (hname : p.name = p'.name) (hfallback : Option.Rel V p.fallback p'.fallback) :
    Option.Rel V (chosenExpr arguments p) (chosenExpr arguments' p') := by
  have hfound : Option.Rel (fun a a' : Argument => a.name = a'.name ∧ V a.value a'.value)
      (arguments.find? (·.name == p.name)) (arguments'.find? (·.name == p'.name)) :=
    find?_related h fun a a' ha => by rw [ha.1, hname]
  unfold chosenExpr
  generalize arguments.find? (·.name == p.name) = found at hfound
  generalize arguments'.find? (·.name == p'.name) = found' at hfound
  cases hfound with
  | none => exact hfallback
  | some ha => exact .some ha.2

/-! ## What is bound -/

namespace Reference

variable {scope scope' bound before : Scope} {shape : Shape} {c : Call}
  {parameters : List Parameter}

theorem bindParameter_eq_ok {p : Parameter} {next : Scope}
    (h : bindParameter scope shape c before p = .ok next) :
    ∃ e v, chosenExpr c.arguments p = some e ∧ value scope e = .ok v ∧
      next = before.bind p.name v := by
  unfold bindParameter at h
  split at h
  · cases h
  · rename_i e he
    obtain ⟨v, hv, hnext⟩ := bind_eq_ok.mp h
    exact ⟨e, v, he, hv, (Except.ok.inj hnext).symm⟩

theorem bindParameter_eq_error {p : Parameter} {err : EvalError}
    (h : bindParameter scope shape c before p = .error err) :
    (chosenExpr c.arguments p = none ∧
        err = ⟨.missingRequiredArgument shape.name p.name, c.pos⟩) ∨
      ∃ e, chosenExpr c.arguments p = some e ∧ value scope e = .error err := by
  unfold bindParameter at h
  split at h
  · rename_i hnone
    exact .inl ⟨hnone, (Except.error.inj h).symm⟩
  · rename_i e he
    obtain hv | ⟨v, _, hbind⟩ := bind_eq_error.mp h
    · exact .inr ⟨e, he, hv⟩
    · cases hbind

/-- Binding parameters changes only their names, and gives each the value
that its expression has in the caller's scope. -/
theorem find?_of_foldlM (h : parameters.foldlM (bindParameter scope shape c) before = .ok bound)
    (n : String) :
    match lastNamed parameters n with
    | none => bound.find? n = before.find? n
    | some p => ∃ e v, chosenExpr c.arguments p = some e ∧ value scope e = .ok v ∧
        bound.find? n = some v := by
  induction parameters generalizing before with
  | nil =>
    obtain rfl : before = bound := Except.ok.inj h
    rfl
  | cons p rest ih =>
    rw [List.foldlM_cons, bind_eq_ok] at h
    obtain ⟨next, hnext, h⟩ := h
    obtain ⟨e, v, he, hv, rfl⟩ := bindParameter_eq_ok hnext
    have hrest := ih h
    rw [lastNamed_cons]
    cases hlast : lastNamed rest n with
    | some q =>
      rw [hlast] at hrest
      exact hrest
    | none =>
      rw [hlast] at hrest
      simp only [Scope.find?_bind] at hrest
      by_cases hn : n = p.name
      · rw [if_pos hn] at hrest ⊢
        exact ⟨e, v, he, hv, hrest⟩
      · rw [if_neg hn] at hrest ⊢
        exact hrest

theorem bindAll_eq_ok (h : bindAll scope shape c = .ok bound) :
    checkArguments shape c.arguments [] = .ok () ∧
      shape.parameters.foldlM (bindParameter scope shape c) [] = .ok bound :=
  let ⟨_, hcheck, hbind⟩ := bind_eq_ok.mp h
  ⟨hcheck, hbind⟩

/-- The callee's scope holds its parameters and nothing else. -/
theorem find?_of_bindAll (h : bindAll scope shape c = .ok bound) (n : String) :
    match lastNamed shape.parameters n with
    | none => bound.find? n = none
    | some p => ∃ e v, chosenExpr c.arguments p = some e ∧ value scope e = .ok v ∧
        bound.find? n = some v :=
  find?_of_foldlM (bindAll_eq_ok h).2 n

theorem binds_of_bindAll (h : bindAll scope shape c = .ok bound) :
    bound.Binds shape.parameterNames := by
  intro n
  have hfind := find?_of_bindAll h n
  rw [Shape.mem_parameterNames]
  cases hlast : lastNamed shape.parameters n with
  | none =>
    rw [hlast] at hfind
    have hother := lastNamed_eq_none.mp hlast
    simpa [hfind] using hother
  | some p =>
    rw [hlast] at hfind
    obtain ⟨e, v, _, _, hv⟩ := hfind
    simp only [hv, Option.isSome_some, true_iff]
    exact ⟨p, lastNamed_eq_some hlast⟩

/-- Every parameter of a callee that is entered has an expression with a
value in the caller's scope. -/
theorem chosen_of_bindAll (h : bindAll scope shape c = .ok bound) :
    ∀ p ∈ shape.parameters, ∃ e v, chosenExpr c.arguments p = some e ∧ value scope e = .ok v := by
  intro p hp
  obtain ⟨before, next, hnext⟩ := foldlM_eq_ok (bindAll_eq_ok h).2 p hp
  obtain ⟨e, v, he, hv, _⟩ := bindParameter_eq_ok hnext
  exact ⟨e, v, he, hv⟩

/-- Binding looks at the caller's scope only through the values of the
chosen expressions. -/
theorem bindAll_congr (h : ∀ p ∈ shape.parameters, ∀ e, chosenExpr c.arguments p = some e →
    value scope e = value scope' e) : bindAll scope shape c = bindAll scope' shape c := by
  have hparameter : ∀ p ∈ shape.parameters, ∀ before,
      bindParameter scope shape c before p = bindParameter scope' shape c before p := by
    intro p hp before
    unfold bindParameter
    split
    · rfl
    · rename_i e he
      rw [h p hp e he]
  rw [bindAll, bindAll, foldlM_congr hparameter]

end Reference

end ShapeScript
