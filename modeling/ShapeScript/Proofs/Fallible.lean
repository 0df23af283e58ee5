/-
ShapeScript.Proofs.Fallible — steps that can fail, one after the other.

A step gives a value or fails. What follows says, for steps in sequence
and for the same step along a list, when the whole gives a value and
which failure is the failure of the whole.

Two runs are compared step by step. `Corresponds` relates an outcome of
one to an outcome of the other: they are values that one relation holds
of, or failures that another does. Steps that keep such a relation keep
it in sequence and along lists, and so does a search.
-/
import Mathlib.Data.List.Forall2

namespace ShapeScript

variable {α β ε ε' : Type}

/-! ## Two steps -/

/-- Both steps of a sequence gave a value. -/
theorem bind_eq_ok {x : Except ε α} {f : α → Except ε β} {b : β} :
    x >>= f = .ok b ↔ ∃ a, x = .ok a ∧ f a = .ok b := by
  cases x with
  | error e => exact ⟨nofun, fun ⟨_, h, _⟩ => nomatch h⟩
  | ok a =>
    constructor
    · exact fun h => ⟨a, rfl, h⟩
    · rintro ⟨_, ⟨⟩, h⟩
      exact h

/-- The first step failed, or it gave a value on which the second did. -/
theorem bind_eq_error {x : Except ε α} {f : α → Except ε β} {e : ε} :
    x >>= f = .error e ↔ x = .error e ∨ ∃ a, x = .ok a ∧ f a = .error e := by
  cases x with
  | error e' =>
    constructor
    · exact fun h => .inl (congrArg Except.error (Except.error.inj h))
    · rintro (⟨⟨⟩⟩ | ⟨_, ⟨⟩, _⟩)
      rfl
  | ok a =>
    constructor
    · exact fun h => .inr ⟨a, rfl, h⟩
    · rintro (⟨⟨⟩⟩ | ⟨_, ⟨⟩, h⟩)
      exact h

theorem map_eq_ok {x : Except ε α} {f : α → β} {b : β} :
    x.map f = .ok b ↔ ∃ a, x = .ok a ∧ f a = b := by
  cases x <;> simp [Except.map]

theorem map_eq_error {x : Except ε α} {f : α → β} {e : ε} :
    x.map f = .error e ↔ x = .error e := by
  cases x <;> simp [Except.map]

theorem isOk_iff {x : Except ε α} : x.isOk = true ↔ ∃ a, x = .ok a := by
  cases x <;> simp [Except.isOk, Except.toBool]

theorem mapError_eq_ok {x : Except ε α} {f : ε → ε'} {a : α} :
    x.mapError f = .ok a ↔ x = .ok a := by
  cases x with
  | error e => exact ⟨nofun, nofun⟩
  | ok b =>
    constructor
    · rintro ⟨⟩
      rfl
    · rintro ⟨⟩
      rfl

theorem mapError_eq_error {x : Except ε α} {f : ε → ε'} {e' : ε'} :
    x.mapError f = .error e' ↔ ∃ e, x = .error e ∧ f e = e' := by
  cases x with
  | ok b => exact ⟨nofun, fun ⟨_, h, _⟩ => nomatch h⟩
  | error e =>
    constructor
    · exact fun h => ⟨e, rfl, Except.error.inj h⟩
    · rintro ⟨_, ⟨⟩, rfl⟩
      rfl

/-- Failures may be renamed step by step. -/
theorem mapError_bind (x : Except ε α) (f : α → Except ε β) (g : ε → ε') :
    (x >>= f).mapError g = x.mapError g >>= fun a => (f a).mapError g := by
  cases x <;> rfl

theorem mapError_map (x : Except ε α) (f : α → β) (g : ε → ε') :
    (x.map f).mapError g = (x.mapError g).map f := by
  cases x <;> rfl

theorem toOption_eq_some {x : Except ε α} {a : α} : x.toOption = some a ↔ x = .ok a := by
  cases x <;> simp [Except.toOption]

/-! ## Along a list -/

theorem mapM_eq_ok {f : α → Except ε β} {as : List α} {bs : List β} (h : as.mapM f = .ok bs) :
    ∀ a ∈ as, ∃ b, f a = .ok b := by
  induction as generalizing bs with
  | nil => exact fun a ha => nomatch ha
  | cons a as ih =>
    rw [List.mapM_cons, bind_eq_ok] at h
    obtain ⟨b, ha, h⟩ := h
    obtain ⟨bs', has, _⟩ := bind_eq_ok.mp h
    intro a' ha'
    rcases List.mem_cons.mp ha' with rfl | ha'
    · exact ⟨b, ha⟩
    · exact ih has a' ha'

/-- The failure of a list is that of one of its items. -/
theorem mapM_eq_error {f : α → Except ε β} {as : List α} {e : ε} (h : as.mapM f = .error e) :
    ∃ a ∈ as, f a = .error e := by
  induction as with
  | nil => cases h
  | cons a as ih =>
    rw [List.mapM_cons, bind_eq_error] at h
    obtain ha | ⟨b, _, h⟩ := h
    · exact ⟨a, List.mem_cons_self, ha⟩
    · obtain has | ⟨bs, _, h⟩ := bind_eq_error.mp h
      · obtain ⟨a', hmem, ha'⟩ := ih has
        exact ⟨a', List.mem_cons_of_mem a hmem, ha'⟩
      · cases h

/-- Folds by steps that agree on the items are equal. -/
theorem foldlM_congr {f f' : β → α → Except ε β} {as : List α}
    (h : ∀ a ∈ as, ∀ b, f b a = f' b a) (b : β) : as.foldlM f b = as.foldlM f' b := by
  induction as generalizing b with
  | nil => rfl
  | cons a as ih =>
    have htail := ih fun a' ha' => h a' (List.mem_cons_of_mem a ha')
    rw [List.foldlM_cons, List.foldlM_cons, h a List.mem_cons_self]
    exact congrArg _ (funext htail)

theorem foldlM_eq_ok {f : β → α → Except ε β} {as : List α} {b b' : β}
    (h : as.foldlM f b = .ok b') : ∀ a ∈ as, ∃ before after, f before a = .ok after := by
  induction as generalizing b with
  | nil => exact fun a ha => nomatch ha
  | cons a as ih =>
    rw [List.foldlM_cons, bind_eq_ok] at h
    obtain ⟨after, ha, h⟩ := h
    intro a' ha'
    rcases List.mem_cons.mp ha' with rfl | ha'
    · exact ⟨b, after, ha⟩
    · exact ih h a' ha'

/-- A fold fails with the failure of a step, and the steps before it were
made. -/
theorem foldlM_eq_error_iff {f : β → α → Except ε β} {as : List α} {b : β} {e : ε} :
    as.foldlM f b = .error e ↔
      ∃ before a after b', as = before ++ a :: after ∧ before.foldlM f b = .ok b' ∧
        f b' a = .error e := by
  constructor
  · intro h
    induction as generalizing b with
    | nil => cases h
    | cons a as ih =>
      rw [List.foldlM_cons, bind_eq_error] at h
      obtain ha | ⟨b', hstep, h⟩ := h
      · exact ⟨[], a, as, b, rfl, rfl, ha⟩
      · obtain ⟨before, a', after, b'', rfl, hbefore, ha'⟩ := ih h
        refine ⟨a :: before, a', after, b'', rfl, ?_, ha'⟩
        rw [List.foldlM_cons]
        exact bind_eq_ok.mpr ⟨b', hstep, hbefore⟩
  · intro ⟨before, a, after, b', hsplit, hbefore, ha⟩
    rw [hsplit, List.foldlM_append]
    refine bind_eq_error.mpr (.inr ⟨b', hbefore, ?_⟩)
    rw [List.foldlM_cons]
    exact bind_eq_error.mpr (.inl ha)

theorem foldlM_eq_error {f : β → α → Except ε β} {as : List α} {b : β} {e : ε}
    (h : as.foldlM f b = .error e) : ∃ a ∈ as, ∃ b', f b' a = .error e := by
  obtain ⟨before, a, after, b', rfl, _, ha⟩ := foldlM_eq_error_iff.mp h
  exact ⟨a, by simp, b', ha⟩

/-- A list that a test of lists rejects has a first item with which it is
rejected. -/
theorem exists_first_of_not {A : List α → Prop} (hnil : A []) {as : List α} (h : ¬ A as) :
    ∃ before a after, as = before ++ a :: after ∧ A before ∧ ¬ A (before ++ [a]) := by
  induction as generalizing A with
  | nil => exact absurd hnil h
  | cons a as ih =>
    by_cases ha : A [a]
    · obtain ⟨before, b, after, rfl, hbefore, hb⟩ := ih (A := fun rest => A (a :: rest)) ha h
      exact ⟨a :: before, b, after, rfl, hbefore, hb⟩
    · exact ⟨[], a, as, rfl, hnil, ha⟩

theorem forall₂_imp_of_mem {V W : α → β → Prop} {as : List α} {bs : List β}
    (h : List.Forall₂ V as bs) (hV : ∀ a ∈ as, ∀ b, V a b → W a b) : List.Forall₂ W as bs :=
  ((List.forall₂_and_left _ _).mpr ⟨hV, h⟩).imp fun _ b ha => ha.1 b ha.2

/-! ## Two runs -/

/-- Both outcomes are values, related by `V`, or both are failures, related
by `E`. -/
inductive Corresponds (E : ε → ε → Prop) (V : α → α → Prop) : Except ε α → Except ε α → Prop
  | ok {a a' : α} (hvalue : V a a') : Corresponds E V (.ok a) (.ok a')
  | error {e e' : ε} (herror : E e e') : Corresponds E V (.error e) (.error e')

namespace Corresponds

variable {E : ε → ε → Prop} {V : α → α → Prop} {W : β → β → Prop} {x x' : Except ε α}

/-- Neither outcome is a value without the other. -/
theorem outcomes (h : Corresponds E V x x') :
    (∃ a a', x = .ok a ∧ x' = .ok a' ∧ V a a') ∨
      ∃ e e', x = .error e ∧ x' = .error e' ∧ E e e' := by
  cases h with
  | ok hvalue => exact .inl ⟨_, _, rfl, rfl, hvalue⟩
  | error herror => exact .inr ⟨_, _, rfl, rfl, herror⟩

theorem bind {f f' : α → Except ε β} (h : Corresponds E V x x')
    (hf : ∀ a a', V a a' → Corresponds E W (f a) (f' a')) :
    Corresponds E W (x >>= f) (x' >>= f') := by
  cases h with
  | ok hvalue => exact hf _ _ hvalue
  | error herror => exact .error herror

theorem map {f f' : α → β} (h : Corresponds E V x x') (hf : ∀ a a', V a a' → W (f a) (f' a')) :
    Corresponds E W (x.map f) (x'.map f') := by
  cases h with
  | ok hvalue => exact .ok (hf _ _ hvalue)
  | error herror => exact .error herror

theorem mapError {F : ε' → ε' → Prop} {f f' : ε → ε'} (h : Corresponds E V x x')
    (hf : ∀ e e', E e e' → F (f e) (f' e')) : Corresponds F V (x.mapError f) (x'.mapError f') := by
  cases h with
  | ok hvalue => exact .ok hvalue
  | error herror => exact .error (hf _ _ herror)

theorem mapM {f f' : α → Except ε β} {as as' : List α} (h : List.Forall₂ V as as')
    (hf : ∀ a a', V a a' → Corresponds E W (f a) (f' a')) :
    Corresponds E (List.Forall₂ W) (as.mapM f) (as'.mapM f') := by
  induction h with
  | nil => exact .ok .nil
  | cons hhead _ ih =>
    rw [List.mapM_cons, List.mapM_cons]
    exact (hf _ _ hhead).bind fun b b' hb => ih.bind fun bs bs' hbs => .ok (.cons hb hbs)

/-- Related items keep what is folded related. -/
theorem foldlM {f f' : β → α → Except ε β} {as as' : List α} {b b' : β}
    (h : List.Forall₂ V as as')
    (hf : ∀ b b' a a', W b b' → V a a' → Corresponds E W (f b a) (f' b' a')) (hb : W b b') :
    Corresponds E W (as.foldlM f b) (as'.foldlM f' b') := by
  induction h generalizing b b' with
  | nil => exact .ok hb
  | cons hhead _ ih =>
    rw [List.foldlM_cons, List.foldlM_cons]
    exact (hf _ _ _ _ hb hhead).bind fun c c' hc => ih hc

theorem refl (hE : ∀ e, E e e) (hV : ∀ a, V a a) (x : Except ε α) : Corresponds E V x x := by
  cases x with
  | error e => exact .error (hE e)
  | ok a => exact .ok (hV a)

theorem eq (h : Corresponds Eq Eq x x') : x = x' := by
  cases h with
  | ok hvalue => rw [hvalue]
  | error herror => rw [herror]

/-- Outcomes whose values are equal are the same value. -/
theorem ok_iff {a : α} (h : Corresponds E Eq x x') : x = .ok a ↔ x' = .ok a := by
  cases h with
  | ok hvalue => rw [hvalue]
  | error herror => exact ⟨nofun, nofun⟩

end Corresponds

/-! ## Searching -/

section Searching

variable {V : α → α → Prop} {f f' : α → Bool} {as as' : List α}

/-- Tests that do not tell related items apart find related items. -/
theorem find?_related (h : List.Forall₂ V as as') (hf : ∀ a a', V a a' → f a = f' a') :
    Option.Rel V (as.find? f) (as'.find? f') := by
  induction h with
  | nil => exact .none
  | @cons a a' _ _ hhead _ ih =>
    rw [List.find?_cons, List.find?_cons, ← hf a a' hhead]
    split
    · exact .some hhead
    · exact ih

theorem any_related (h : List.Forall₂ V as as') (hf : ∀ a a', V a a' → f a = f' a') :
    as.any f = as'.any f' := by
  induction h with
  | nil => rfl
  | cons hhead _ ih => rw [List.any_cons, List.any_cons, hf _ _ hhead, ih]

end Searching

end ShapeScript
