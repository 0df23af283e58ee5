/-
ShapeScript.Proofs.Expr.Names — what an expression needs of a scope.

An expression reads its identifiers and nothing else: scopes that agree on
them give it the same value. When it has a value, each of them is bound, for
all parts of an expression are evaluated. When it has none, one of them is
not bound or an operator was given a string for a number.
-/
import ShapeScript.Proofs.Fallible
import ShapeScript.Proofs.Session.Reference

namespace ShapeScript

/-- The identifiers of an expression. -/
def Expr.names : Expr → List String
  | .number .. | .string .. => []
  | .name n _ => [n]
  | .binary left _ right _ _ => left.names ++ right.names
  | .negation operand _ _ => operand.names
  | .grouping inner _ => inner.names

/-- Exactly the names are bound in the scope. -/
def Scope.Binds (scope : Scope) (names : List String) : Prop :=
  ∀ n, (scope.find? n).isSome ↔ n ∈ names

theorem Scope.binds_nil : Scope.Binds [] [] :=
  fun _ => ⟨nofun, nofun⟩

theorem numberOf_eq_error {v : Value} {e : Expr} {err : EvalError}
    (h : numberOf v e = .error err) : err.fault = .typeMismatch .number .string := by
  cases v with
  | number x => cases h
  | string s =>
    obtain rfl := Except.error.inj h
    rfl

theorem applyBinary_eq_error {op : BinaryOp} {left right : Expr} {lhs rhs : Value}
    {err : EvalError} (h : applyBinary op left right lhs rhs = .error err) :
    err.fault = .typeMismatch .number .string := by
  unfold applyBinary at h
  split at h
  · cases h
  · cases h
  · split at h
    · rename_i hleft
      obtain rfl := Except.error.inj h
      exact numberOf_eq_error hleft
    · split at h
      · rename_i hright
        obtain rfl := Except.error.inj h
        exact numberOf_eq_error hright
      · cases h

namespace Reference

variable {scope scope' : Scope}

theorem value_congr {e : Expr} (h : ∀ n ∈ e.names, scope.find? n = scope'.find? n) :
    value scope e = value scope' e := by
  induction e with
  | number x span => rfl
  | string s span => rfl
  | name n span => simp only [value, h n List.mem_cons_self]
  | negation operand opPos span ih => simp only [value, ih h]
  | grouping inner span ih => simp only [value, ih h]
  | binary left op right opPos span ihl ihr =>
    have hleft := ihl fun n hn => h n (List.mem_append_left _ hn)
    have hright := ihr fun n hn => h n (List.mem_append_right _ hn)
    simp only [value, hleft, hright]

/-- Every identifier of an expression with a value is bound. -/
theorem isSome_find?_of_value {e : Expr} {v : Value} (h : value scope e = .ok v) :
    ∀ n ∈ e.names, (scope.find? n).isSome := by
  induction e generalizing v with
  | number x span => exact fun n hn => nomatch hn
  | string s span => exact fun n hn => nomatch hn
  | name n span =>
    intro m hm
    obtain rfl := List.mem_singleton.mp hm
    rw [value] at h
    cases hfind : scope.find? m with
    | some w => rfl
    | none =>
      rw [hfind] at h
      cases h
  | negation operand opPos span ih =>
    rw [value] at h
    obtain ⟨w, hw, _⟩ := bind_eq_ok.mp h
    exact ih hw
  | grouping inner span ih => exact ih h
  | binary left op right opPos span ihl ihr =>
    rw [value] at h
    obtain ⟨lhs, hlhs, h⟩ := bind_eq_ok.mp h
    obtain ⟨rhs, hrhs, _⟩ := bind_eq_ok.mp h
    intro n hn
    rcases List.mem_append.mp hn with hn | hn
    · exact ihl hlhs n hn
    · exact ihr hrhs n hn

theorem value_eq_error {e : Expr} {err : EvalError} (h : value scope e = .error err) :
    (∃ n ∈ e.names, scope.find? n = none ∧ err.fault = .variableNotDefined n) ∨
      err.fault = .typeMismatch .number .string := by
  induction e generalizing err with
  | number x span => cases h
  | string s span => cases h
  | name n span =>
    rw [value] at h
    cases hfind : scope.find? n with
    | some v =>
      rw [hfind] at h
      cases h
    | none =>
      rw [hfind] at h
      obtain rfl := Except.error.inj h
      exact .inl ⟨n, List.mem_singleton.mpr rfl, hfind, rfl⟩
  | negation operand opPos span ih =>
    rw [value] at h
    obtain hv | ⟨v, _, h⟩ := bind_eq_error.mp h
    · exact ih hv
    · obtain hx | ⟨x, _, h⟩ := bind_eq_error.mp h
      · exact .inr (numberOf_eq_error hx)
      · cases h
  | grouping inner span ih => exact ih h
  | binary left op right opPos span ihl ihr =>
    rw [value] at h
    obtain hl | ⟨lhs, _, h⟩ := bind_eq_error.mp h
    · rcases ihl hl with ⟨n, hn, hfault⟩ | hfault
      · exact .inl ⟨n, List.mem_append_left _ hn, hfault⟩
      · exact .inr hfault
    · obtain hr | ⟨rhs, _, h⟩ := bind_eq_error.mp h
      · rcases ihr hr with ⟨n, hn, hfault⟩ | hfault
        · exact .inl ⟨n, List.mem_append_right _ hn, hfault⟩
        · exact .inr hfault
      · exact .inr (applyBinary_eq_error h)

/-- With every identifier bound, only types can be wrong. -/
theorem fault_of_value {e : Expr} {err : EvalError} (h : value scope e = .error err)
    (hbound : ∀ n ∈ e.names, (scope.find? n).isSome) :
    err.fault = .typeMismatch .number .string := by
  rcases value_eq_error h with ⟨n, hn, hnone, _⟩ | hfault
  · have hsome := hbound n hn
    rw [hnone] at hsome
    cases hsome
  · exact hfault

end Reference

end ShapeScript
