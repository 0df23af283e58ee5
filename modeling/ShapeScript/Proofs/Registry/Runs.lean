/-
ShapeScript.Proofs.Registry.Runs — programs registered one after another.

A registration is accepted or refused as a whole. `register_accepts_iff`
says when it is accepted: the names of the program are different and free,
and it declares a `main` of its own if one is asked for. Then its
declarations go behind those that were there. `register_refuses_iff` says
why it is refused otherwise, and of several reasons which one is reported:
the first declaration whose name is taken, by the registry or by the
program itself, comes before the lack of a `main`.

A run registers programs one after another, and goes on with the registry
as it was when one is refused. A step keeps the names different and the
declarations that are there, so every registry that a run reaches is as
sound as the one it started with (`register_in_run`).
-/
import ShapeScript.Proofs.Document
import ShapeScript.Proofs.Session.Declarations

namespace ShapeScript

/-! ## Definitions -/

/-- The program declares the shape where evaluation starts, without
parameters. -/
def Program.DeclaresMain (p : Program) : Prop :=
  ∃ s ∈ p.shapes, s.name = mainName ∧ s.parameters = []

namespace Registry

/-- The names that are taken. -/
def names (r : Registry) : List String := r.shapes.map Shape.name

/-- The declarations have different names, and none of these is taken. -/
structure Admits (r : Registry) (shapes : List Shape) : Prop where
  distinct : (shapes.map Shape.name).Nodup
  free : ∀ s ∈ shapes, s.name ∉ r.names

/-- Why a program is not registered: the first of its declarations that
repeats a name, or else that it does not declare a `main` although it
should. -/
inductive Refuses (r : Registry) (p : Program) (requireMain : Bool) : EvalError → Prop
  | taken {before rest : List Shape} {s : Shape} (hsplit : p.shapes = before ++ s :: rest)
      (hbefore : r.Admits before)
      (hname : s.name ∈ r.names ∨ s.name ∈ before.map Shape.name) :
      r.Refuses p requireMain ⟨.shapeAlreadyDefined s.name, s.pos⟩
  | noMain (hrequired : requireMain = true) (hadmitted : r.Admits p.shapes)
      (hmain : ¬ p.DeclaresMain) : r.Refuses p requireMain ⟨.missingMain, p.finish⟩

/-- A program to be registered, and whether it has to declare a `main`. -/
structure Request where
  program : Program
  requireMain : Bool

/-- The registry after a request. One that is refused changes nothing. -/
def after (r : Registry) (q : Request) : Registry :=
  match r.register q.program q.requireMain with
  | .ok r' => r'
  | .error _ => r

/-- The registry after requests that are made one after another. -/
def afterAll (r : Registry) (qs : List Request) : Registry := qs.foldl after r

/-! ## One registration -/

variable {r r' base : Registry} {p : Program} {requireMain : Bool}

theorem hasMain_iff : p.hasMain = true ↔ p.DeclaresMain := by
  simp [Program.hasMain, Program.DeclaresMain]

theorem contains_iff {name : String} : r.contains name = true ↔ name ∈ r.names := by
  simp [contains, names]

theorem admits_iff {shapes : List Shape} :
    r.Admits shapes ↔
      (shapes.map Shape.name).Nodup ∧ ∀ s ∈ shapes, r.contains s.name = false := by
  simp only [← Bool.not_eq_true, contains_iff]
  exact ⟨fun h => ⟨h.distinct, h.free⟩, fun h => ⟨h.1, h.2⟩⟩

theorem declare_iff {shapes : List Shape} :
    declare shapes r = .ok r' ↔ r' = ⟨r.shapes ++ shapes⟩ ∧ r.Admits shapes := by
  rw [declare_eq_ok_iff, admits_iff]

/-- Behind declarations that are accepted the others are declared in the
registry that has them. -/
theorem declare_append {before rest : List Shape} (h : declare before r = .ok r') :
    declare (before ++ rest) r = declare rest r' := by
  induction before generalizing r with
  | nil =>
    obtain rfl := Except.ok.inj h
    rfl
  | cons s before ih =>
    rw [declare] at h
    rw [List.cons_append, declare]
    split at h
    · cases h
    · rename_i hfree
      rw [if_neg hfree, ih h]

theorem declare_of_taken {before rest : List Shape} {s : Shape} (hbefore : r.Admits before)
    (hname : s.name ∈ r.names ∨ s.name ∈ before.map Shape.name) :
    declare (before ++ s :: rest) r = .error ⟨.shapeAlreadyDefined s.name, s.pos⟩ := by
  have htaken : Registry.contains ⟨r.shapes ++ before⟩ s.name = true := by
    rw [contains_iff, names, List.map_append, List.mem_append]
    exact hname
  rw [declare_append (declare_iff.mpr ⟨rfl, hbefore⟩), declare, if_pos htaken]

/-- Of declarations that are not admitted there is a first that repeats a
name. -/
theorem exists_taken {shapes : List Shape} (h : ¬ r.Admits shapes) :
    ∃ before s rest, shapes = before ++ s :: rest ∧ r.Admits before ∧
      (s.name ∈ r.names ∨ s.name ∈ before.map Shape.name) := by
  obtain ⟨before, s, rest, hsplit, hbefore, hs⟩ :=
    exists_first_of_not (A := r.Admits) ⟨.nil, nofun⟩ h
  refine ⟨before, s, rest, hsplit, hbefore, ?_⟩
  by_contra hfresh
  obtain ⟨hfree, hother⟩ := not_or.mp hfresh
  refine hs ⟨?_, ?_⟩
  · rw [List.map_append]
    exact hbefore.distinct.append (List.nodup_singleton _) (by simpa using hother)
  · simp only [List.forall_mem_append, List.forall_mem_singleton]
    exact ⟨hbefore.free, hfree⟩

/-- When a registration is accepted, and what it gives. -/
theorem register_accepts_iff :
    r.register p requireMain = .ok r' ↔
      r' = ⟨r.shapes ++ p.shapes⟩ ∧ r.Admits p.shapes ∧
        (requireMain = true → p.DeclaresMain) := by
  rw [register_requiring_eq_ok_iff, admits_iff, hasMain_iff, and_assoc]

/-- When a registration is refused, and with which problem. -/
theorem register_refuses_iff {e : EvalError} :
    r.register p requireMain = .error e ↔ r.Refuses p requireMain e := by
  constructor
  · intro h
    by_cases hadmitted : r.Admits p.shapes
    · rw [register, declare_iff.mpr ⟨rfl, hadmitted⟩] at h
      dsimp only at h
      split at h
      · rename_i hrejected
        rw [Bool.and_eq_true, Bool.not_eq_true', ← Bool.not_eq_true, hasMain_iff] at hrejected
        obtain rfl := Except.error.inj h
        exact .noMain hrejected.1 hadmitted hrejected.2
      · cases h
    · obtain ⟨before, s, rest, hsplit, hbefore, hname⟩ := exists_taken hadmitted
      rw [register, hsplit, declare_of_taken hbefore hname] at h
      obtain rfl := Except.error.inj h
      exact .taken hsplit hbefore hname
  · intro h
    cases h with
    | taken hsplit hbefore hname => rw [register, hsplit, declare_of_taken hbefore hname]
    | noMain hrequired hadmitted hmain =>
      have hnone : p.hasMain = false := by rwa [← Bool.not_eq_true, hasMain_iff]
      rw [register, declare_iff.mpr ⟨rfl, hadmitted⟩]
      simp [hrequired, hnone]

/-! ## Runs -/

variable {q : Request} {qs : List Request}

theorem after_of_ok (h : r.register q.program q.requireMain = .ok r') : r.after q = r' := by
  rw [after, h]

theorem after_of_error {e : EvalError} (h : r.register q.program q.requireMain = .error e) :
    r.after q = r := by
  rw [after, h]

/-- After a request a registry has what it had, and behind it nothing or
declarations that it admits. -/
theorem after_cases (r : Registry) (q : Request) :
    r.after q = r ∨ ∃ shapes, r.after q = ⟨r.shapes ++ shapes⟩ ∧ r.Admits shapes := by
  cases h : r.register q.program q.requireMain with
  | error e => exact .inl (after_of_error h)
  | ok r' =>
    obtain ⟨rfl, hadmitted, _⟩ := register_accepts_iff.mp h
    exact .inr ⟨q.program.shapes, after_of_ok h, hadmitted⟩

/-- A request keeps the names different. -/
theorem names_nodup_after (h : r.names.Nodup) : (r.after q).names.Nodup := by
  obtain hsame | ⟨shapes, hmore, hadmitted⟩ := after_cases r q
  · rwa [hsame]
  · rw [hmore, names, List.map_append]
    refine h.append hadmitted.distinct ?_
    rw [List.disjoint_right]
    exact List.forall_mem_map.mpr hadmitted.free

/-- A request keeps the declarations that are there. -/
theorem prefix_after (r : Registry) (q : Request) : r.shapes <+: (r.after q).shapes := by
  obtain hsame | ⟨shapes, hmore, _⟩ := after_cases r q
  · simp [hsame]
  · simp [hmore]

theorem names_nodup_afterAll (h : r.names.Nodup) : (r.afterAll qs).names.Nodup := by
  induction qs generalizing r with
  | nil => exact h
  | cons q qs ih => exact ih (names_nodup_after h)

theorem prefix_afterAll (r : Registry) (qs : List Request) :
    r.shapes <+: (r.afterAll qs).shapes := by
  induction qs generalizing r with
  | nil => exact List.prefix_rfl
  | cons q qs ih => exact (prefix_after r q).trans (ih (r.after q))

theorem afterAll_concat (r : Registry) (qs : List Request) (q : Request) :
    r.afterAll (qs ++ [q]) = (r.afterAll qs).after q := by
  rw [afterAll, afterAll, List.foldl_append, List.foldl_cons, List.foldl_nil]

/-- A library that loads is registered on no shapes at all, so its names
are different. -/
theorem names_nodup_of_load {library : LibraryText} (h : library.load = .ok r) :
    r.names.Nodup := by
  cases library with
  | unreadable => cases h
  | failing message => cases h
  | source text =>
    rw [LibraryText.load] at h
    split at h
    · cases h
    · cases h
    · split at h
      · cases h
      · split at h
        · cases h
        · rename_i hregister
          obtain rfl := Except.ok.inj h
          obtain ⟨rfl, hadmitted, _⟩ := register_accepts_iff.mp hregister
          exact hadmitted.distinct

/-- A run starts with declarations of different names. In the registry `r`
that it reaches, the names are different and the declarations it started
with come first. The next request is accepted when `r` admits the
declarations of the program and a `main` is declared if it is asked for,
and then these go behind what `r` has. Otherwise it is refused at the
first repeated name, or else for the lack of a `main`, and `r` stays what
it is. So a program that is registered on a library that loads has a
`main` without parameters, and running it is running the body of that. -/
theorem register_in_run (hbase : base.names.Nodup) (qs : List Request) (q : Request) :
    let r := base.afterAll qs
    (r.names.Nodup ∧ base.shapes <+: r.shapes) ∧
      (∀ r', r.register q.program q.requireMain = .ok r' ↔
        r' = ⟨r.shapes ++ q.program.shapes⟩ ∧ r.Admits q.program.shapes ∧
          (q.requireMain = true → q.program.DeclaresMain)) ∧
      (∀ e, r.register q.program q.requireMain = .error e ↔
        r.Refuses q.program q.requireMain e) ∧
      (∀ r', r.register q.program q.requireMain = .ok r' → base.afterAll (qs ++ [q]) = r') ∧
      (∀ e, r.register q.program q.requireMain = .error e → base.afterAll (qs ++ [q]) = r) ∧
      ∀ (library : LibraryText) (builtin r' : Registry) (p : Program),
        library.load = .ok builtin → builtin.register p true = .ok r' →
          r'.names.Nodup ∧
            ∃ m ∈ p.shapes, r'.find? mainName = some m ∧ m.parameters = [] ∧
              p.document library =
                ((r'.session.block m.body).1.mapError fun e => Failure.problem (.eval e)).map
                  documentOf := by
  intro r
  refine ⟨⟨names_nodup_afterAll hbase, prefix_afterAll base qs⟩, fun r' => register_accepts_iff,
    fun e => register_refuses_iff, ?_, ?_, ?_⟩
  · intro r' hok
    rw [afterAll_concat, after_of_ok hok]
  · intro e herror
    rw [afterAll_concat, after_of_error herror]
  · intro library builtin r' p hload hregister
    have hnodup : (builtin.after ⟨p, true⟩).names.Nodup :=
      names_nodup_after (names_nodup_of_load hload)
    rw [after_of_ok hregister] at hnodup
    obtain ⟨m, hm, hfind, hparameters⟩ := exists_main hregister
    refine ⟨hnodup, m, hm, hfind, hparameters, ?_⟩
    simp only [Program.document, hload, hregister, runMain, hfind, Session.outcome_runBlock]
    rfl

/-- `tag` is declared already, so a program that declares it is refused,
and one that declares `dot` is registered after it. -/
theorem dot_registers_after_refused_tag :
    (Registry.names ⟨[blankShape "tag"]⟩).Nodup ∧
      Registry.register ⟨[blankShape "tag"]⟩ (drawXProgram "tag") true =
        .error ⟨.shapeAlreadyDefined "tag", .origin⟩ ∧
      (Registry.afterAll ⟨[blankShape "tag"]⟩
        [⟨drawXProgram "tag", true⟩, ⟨drawXProgram "dot", true⟩]).names =
          ["tag", "dot", mainName] := by
  have hbase : (Registry.names ⟨[blankShape "tag"]⟩).Nodup := by decide
  obtain ⟨_, _, hrefuses, _⟩ := register_in_run hbase [] ⟨drawXProgram "tag", true⟩
  obtain ⟨_, haccepts, _, hafter, _⟩ :=
    register_in_run hbase [⟨drawXProgram "tag", true⟩] ⟨drawXProgram "dot", true⟩
  have hsplit : (drawXProgram "tag").shapes =
      [] ++ blankShape "tag" :: (drawXProgram "tag").shapes.tail := rfl
  have htaken : (blankShape "tag").name ∈ Registry.names ⟨[blankShape "tag"]⟩ := by decide
  have hrefused := (hrefuses _).mpr (.taken hsplit ⟨.nil, nofun⟩ (.inl htaken))
  have hsame : Registry.afterAll ⟨[blankShape "tag"]⟩ [⟨drawXProgram "tag", true⟩] =
      ⟨[blankShape "tag"]⟩ := after_of_error hrefused
  rw [hsame] at haccepts hafter
  have hadmitted : Admits ⟨[blankShape "tag"]⟩ (drawXProgram "dot").shapes :=
    ⟨by decide, by decide⟩
  have hmain : (drawXProgram "dot").DeclaresMain := hasMain_iff.mp (by decide)
  have haccepted := hafter _ ((haccepts _).mpr ⟨rfl, hadmitted, fun _ => hmain⟩)
  refine ⟨hbase, hrefused, ?_⟩
  rw [List.singleton_append] at haccepted
  rw [haccepted]
  rfl

end Registry

end ShapeScript
