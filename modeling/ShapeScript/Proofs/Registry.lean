/-
ShapeScript.Proofs.Registry — what registering a program comes to.

A program that registers has its shapes put behind those of the registry
it is registered on, under different names that were not taken there, and
it declares a `main` of its own; `register_eq_ok_iff` says that nothing
else is asked of it. So what is found under a name is what the registry or
the program declares under it, in whichever order, and the `main` that is
found has no parameters.

Registering looks at names, at positions and at whether there are
parameters. `register_related` says for any relation between declarations
that keeps these apart from positions that related programs register
alike.
-/
import Mathlib.Data.List.Nodup
import ShapeScript.Proofs.Fallible
import ShapeScript.Registry

namespace ShapeScript

namespace Registry

theorem contains_eq_false {r : Registry} {name : String} :
    r.contains name = false ↔ ∀ s ∈ r.shapes, s.name ≠ name := by
  simp [contains]

/-- What is found under a name is registered and has that name. -/
theorem mem_of_find?_eq_some {r : Registry} {name : String} {s : Shape}
    (h : r.find? name = some s) : s ∈ r.shapes ∧ s.name = name := by
  refine ⟨List.mem_of_find?_eq_some h, ?_⟩
  have hname := List.find?_some h
  exact beq_iff_eq.mp hname

/-- Where no two shapes have one name, each is found under its own. -/
theorem find?_of_mem {r : Registry} (hnames : (r.shapes.map Shape.name).Nodup) {s : Shape}
    (hs : s ∈ r.shapes) : r.find? s.name = some s := by
  cases hfind : r.find? s.name with
  | none =>
    have hnone := List.find?_eq_none.mp hfind s hs
    exact absurd (beq_iff_eq.mpr rfl) hnone
  | some t =>
    obtain ⟨ht, hname⟩ := mem_of_find?_eq_some hfind
    rw [List.inj_on_of_nodup_map hnames ht hs hname]

theorem contains_insert {r : Registry} {s : Shape} {name : String} :
    (r.insert s).contains name = (r.contains name || s.name == name) := by
  simp [contains, insert]

/-- Declarations are accepted when their names are different and none of
them was taken, and then they go behind what was there. -/
theorem declare_eq_ok_iff {shapes : List Shape} {r r' : Registry} :
    declare shapes r = .ok r' ↔
      r' = ⟨r.shapes ++ shapes⟩ ∧ (shapes.map Shape.name).Nodup ∧
        ∀ s ∈ shapes, r.contains s.name = false := by
  induction shapes generalizing r with
  | nil =>
    rw [declare, Except.ok.injEq, eq_comm]
    simp
  | cons shape shapes ih =>
    rw [declare]
    cases hfree : r.contains shape.name with
    | true => simp [hfree]
    | false =>
      simp only [Bool.false_eq_true, if_false, ih, insert, List.append_assoc, List.singleton_append,
        List.map_cons, List.nodup_cons, List.forall_mem_cons, hfree, true_and]
      have hfresh : (∀ s ∈ shapes, (r.insert shape).contains s.name = false) ↔
          shape.name ∉ shapes.map Shape.name ∧ ∀ s ∈ shapes, r.contains s.name = false := by
        simp only [contains_insert, List.mem_map]
        grind
      rw [insert] at hfresh
      rw [hfresh]
      grind

theorem declare_eq_ok {shapes : List Shape} {r r' : Registry}
    (h : declare shapes r = .ok r') :
    r'.shapes = r.shapes ++ shapes ∧ ∀ s ∈ shapes, r.contains s.name = false := by
  obtain ⟨rfl, _, hnames⟩ := declare_eq_ok_iff.mp h
  exact ⟨rfl, hnames⟩

/-- Whatever was declared is found under its name. -/
theorem find?_of_declare {shapes : List Shape} {r r' : Registry}
    (h : declare shapes r = .ok r') : ∀ s ∈ shapes, r'.find? s.name = some s := by
  induction shapes generalizing r with
  | nil => exact fun s hs => nomatch hs
  | cons shape shapes ih =>
    rw [declare] at h
    split at h
    · cases h
    · rename_i hfree
      intro s hs
      rcases List.mem_cons.mp hs with rfl | hs
      · have hbefore : r.shapes.find? (·.name == s.name) = none := by
          have hnames := contains_eq_false.mp (Bool.eq_false_iff.mpr hfree)
          simpa using hnames
        rw [find?, (declare_eq_ok h).1, insert, List.append_assoc, List.find?_append, hbefore]
        simp
      · exact ih h s hs

/-- A declaration is rejected where a taken name is declared again. -/
theorem declare_eq_error {shapes : List Shape} {r : Registry} {e : EvalError}
    (h : declare shapes r = .error e) :
    ∃ s ∈ shapes, e = ⟨.shapeAlreadyDefined s.name, s.pos⟩ := by
  induction shapes generalizing r with
  | nil => cases h
  | cons shape shapes ih =>
    rw [declare] at h
    split at h
    · exact ⟨shape, List.mem_cons_self, (Except.error.inj h).symm⟩
    · obtain ⟨s, hs, he⟩ := ih h
      exact ⟨s, List.mem_cons_of_mem shape hs, he⟩

theorem register_eq_error {base : Registry} {p : Program} {requireMain : Bool} {e : EvalError}
    (h : base.register p requireMain = .error e) :
    (∃ s ∈ p.shapes, e = ⟨.shapeAlreadyDefined s.name, s.pos⟩) ∨
      e = ⟨.missingMain, p.finish⟩ := by
  rw [register] at h
  split at h
  · rename_i e' hdeclare
    obtain rfl : e' = e := Except.error.inj h
    exact .inl (declare_eq_error hdeclare)
  · split at h
    · exact .inr (Except.error.inj h).symm
    · cases h

/-- A program registers when its names are different and free and it
declares a `main` if it has to, and then its shapes go behind those of the
registry. -/
theorem register_requiring_eq_ok_iff {base r : Registry} {p : Program} {requireMain : Bool} :
    base.register p requireMain = .ok r ↔
      r = ⟨base.shapes ++ p.shapes⟩ ∧ (p.shapes.map Shape.name).Nodup ∧
        (∀ s ∈ p.shapes, base.contains s.name = false) ∧
        (requireMain = true → p.hasMain = true) := by
  rw [register]
  cases hdeclare : declare p.shapes base with
  | error e =>
    constructor
    · nofun
    · rintro ⟨rfl, hnodup, hfree, _⟩
      rw [declare_eq_ok_iff.mpr ⟨rfl, hnodup, hfree⟩] at hdeclare
      cases hdeclare
  | ok r' =>
    obtain ⟨rfl, hnodup, hfree⟩ := declare_eq_ok_iff.mp hdeclare
    have haccepted : r = ⟨base.shapes ++ p.shapes⟩ ↔ ⟨base.shapes ++ p.shapes⟩ = r := eq_comm
    cases requireMain <;> cases p.hasMain <;> simp [haccepted, hnodup] <;> exact fun _ => hfree

theorem register_eq_ok_iff {base r : Registry} {p : Program} :
    base.register p true = .ok r ↔
      r = ⟨base.shapes ++ p.shapes⟩ ∧ (p.shapes.map Shape.name).Nodup ∧
        (∀ s ∈ p.shapes, base.contains s.name = false) ∧ p.hasMain = true := by
  simp only [register_requiring_eq_ok_iff, true_imp_iff]

theorem register_eq_ok {base r : Registry} {p : Program} (h : base.register p true = .ok r) :
    r.shapes = base.shapes ++ p.shapes ∧ (∀ s ∈ p.shapes, base.contains s.name = false) ∧
      p.hasMain = true := by
  obtain ⟨rfl, _, hfree, hmain⟩ := register_eq_ok_iff.mp h
  exact ⟨rfl, hfree, hmain⟩

theorem find?_of_register {base r : Registry} {p : Program} {requireMain : Bool}
    (h : base.register p requireMain = .ok r) : ∀ s ∈ p.shapes, r.find? s.name = some s := by
  rw [register] at h
  split at h
  · cases h
  · rename_i r' hdeclare
    split at h
    · cases h
    · obtain rfl : r' = r := Except.ok.inj h
      exact find?_of_declare hdeclare

/-- Found is what the library declares and what the program declares, and
no name is declared by both. -/
theorem find?_eq_some_iff_of_register {base r : Registry} {p : Program} {name : String}
    {s : Shape} (h : base.register p true = .ok r) :
    r.find? name = some s ↔ base.find? name = some s ∨ (s ∈ p.shapes ∧ s.name = name) := by
  obtain ⟨hshapes, _, _⟩ := register_eq_ok h
  have hfind : r.find? name = (base.find? name).or (p.shapes.find? (·.name == name)) := by
    rw [find?, hshapes, List.find?_append, find?]
  constructor
  · intro hs
    rw [hfind, Option.or_eq_some_iff] at hs
    obtain hbase | ⟨_, hp⟩ := hs
    · exact .inl hbase
    · exact .inr ⟨List.mem_of_find?_eq_some hp, by simpa using List.find?_some hp⟩
  · rintro (hbase | ⟨hs, rfl⟩)
    · rw [hfind, hbase, Option.some_or]
    · exact find?_of_register h s hs

/-- A program that registers declares a `main` without parameters, and that
is the one that is registered. -/
theorem exists_main {base r : Registry} {p : Program} (h : base.register p true = .ok r) :
    ∃ m ∈ p.shapes, r.find? mainName = some m ∧ m.parameters = [] := by
  obtain ⟨_, _, hmain⟩ := register_eq_ok h
  rw [Program.hasMain, List.any_eq_true] at hmain
  obtain ⟨s, hs, hdeclared⟩ := hmain
  rw [Bool.and_eq_true, beq_iff_eq, List.isEmpty_iff] at hdeclared
  obtain ⟨hname, hparameters⟩ := hdeclared
  have hfind := find?_of_register h s hs
  rw [hname] at hfind
  exact ⟨s, hs, hfind, hparameters⟩

/-- A registry in which a program is registered has a `main`, and it is
the program's. -/
theorem find?_mainName {base r : Registry} {p : Program} (h : base.register p true = .ok r) :
    ∃ m ∈ p.shapes, r.find? mainName = some m := by
  obtain ⟨m, hm, hfind, _⟩ := exists_main h
  exact ⟨m, hm, hfind⟩

theorem parameters_of_main {base r : Registry} {p : Program} {m : Shape}
    (h : base.register p true = .ok r) (hfind : r.find? mainName = some m) :
    m.parameters = [] := by
  obtain ⟨m', _, hfind', hparameters⟩ := exists_main h
  obtain rfl : m = m' := Option.some.inj (hfind.symm.trans hfind')
  exact hparameters

/-! ## Two registrations -/

/-- What two declarations have in common that register alike: a name, and
whether there are parameters. What `E` is to hold of failures holds of
those that are reported at the declarations. -/
structure Registering (E : EvalError → EvalError → Prop) (V : Shape → Shape → Prop) : Prop where
  name : ∀ s s', V s s' → s.name = s'.name
  parameters : ∀ s s', V s s' → s.parameters.isEmpty = s'.parameters.isEmpty
  error : ∀ s s', V s s' → ∀ fault, E ⟨fault, s.pos⟩ ⟨fault, s'.pos⟩

/-- Related declarations, in the same order. -/
def Related (V : Shape → Shape → Prop) (r r' : Registry) : Prop :=
  List.Forall₂ V r.shapes r'.shapes

section Related

variable {E : EvalError → EvalError → Prop} {V : Shape → Shape → Prop} {r r' : Registry}

theorem Related.contains (hV : Registering E V) (h : r.Related V r') (name : String) :
    r.contains name = r'.contains name :=
  any_related h fun s s' hs => by rw [hV.name s s' hs]

theorem Related.find? (hV : Registering E V) (h : r.Related V r') (name : String) :
    Option.Rel V (r.find? name) (r'.find? name) :=
  find?_related h fun s s' hs => by rw [hV.name s s' hs]

theorem Related.insert {s s' : Shape} (h : r.Related V r') (hs : V s s') :
    (r.insert s).Related V (r'.insert s') :=
  List.rel_append h (.cons hs .nil)

theorem declare_related (hV : Registering E V) {shapes shapes' : List Shape}
    (hshapes : List.Forall₂ V shapes shapes') (h : r.Related V r') :
    Corresponds E (Related V) (declare shapes r) (declare shapes' r') := by
  induction hshapes generalizing r r' with
  | nil => exact .ok h
  | @cons s s' _ _ hs _ ih =>
    rw [declare, declare, ← hV.name s s' hs, ← h.contains hV]
    split
    · exact .error (hV.error s s' hs _)
    · exact ih (h.insert hs)

theorem hasMain_related (hV : Registering E V) {p p' : Program}
    (hshapes : List.Forall₂ V p.shapes p'.shapes) : p.hasMain = p'.hasMain :=
  any_related hshapes fun s s' hs => by rw [hV.name s s' hs, hV.parameters s s' hs]

/-- Programs of related declarations register alike. -/
theorem register_related (hV : Registering E V) {p p' : Program} {requireMain : Bool}
    (hshapes : List.Forall₂ V p.shapes p'.shapes) (h : r.Related V r')
    (hfinish : ∀ fault, E ⟨fault, p.finish⟩ ⟨fault, p'.finish⟩) :
    Corresponds E (Related V) (r.register p requireMain) (r'.register p' requireMain) := by
  have hdeclare := declare_related hV hshapes h
  rw [register, register, ← hasMain_related hV hshapes]
  generalize declare p.shapes r = x at hdeclare
  generalize declare p'.shapes r' = x' at hdeclare
  cases hdeclare with
  | error herror => exact .error herror
  | ok hr =>
    dsimp only
    split
    · exact .error (hfinish _)
    · exact .ok hr

end Related

end Registry

end ShapeScript
