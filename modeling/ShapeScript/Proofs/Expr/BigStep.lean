/-
ShapeScript.Proofs.Expr.BigStep — the rules of evaluation.

`Evaluates` says by rules what an expression means: the left operand comes
first, then the right one, then the operator, and whichever fails first is
the failure of the whole. `Applies` are the rules of the operators: the
left operand's type is looked at before the right one's, and only `plus`
takes strings. Neither speaks of chains.

`evaluate_eq_iff` is the main statement: for every tree, also those that
no text is read as, the evaluator, which walks down the left side and
folds back up, answers exactly what the rules give. The walk itself is
dealt with in `evaluate_eq_value`, for any links to fold; what is left is
one rule for each way a recursive evaluation can go.
-/
import ShapeScript.Proofs.Session.Reference

namespace ShapeScript

/-! ## Rules -/

/-- `Applies op p q lhs rhs r`: applied to these values of operands that
diagnostics point at by `p` and `q`, the operator gives `r`. -/
inductive Applies : BinaryOp → Position → Position → Value → Value → Except EvalError Value → Prop
  | sum (p q : Position) (x y : Float) :
    Applies .plus p q (.number x) (.number y) (.ok (.number (x + y)))
  | stringFirst (p q : Position) (s : String) (rhs : Value) :
    Applies .plus p q (.string s) rhs (.ok (.string (s ++ rhs.display)))
  | stringSecond (p q : Position) (x : Float) (t : String) :
    Applies .plus p q (.number x) (.string t) (.ok (.string (displayNumber x ++ t)))
  | difference (p q : Position) (x y : Float) :
    Applies .minus p q (.number x) (.number y) (.ok (.number (x - y)))
  | product (p q : Position) (x y : Float) :
    Applies .times p q (.number x) (.number y) (.ok (.number (x * y)))
  | quotient (p q : Position) (x y : Float) :
    Applies .divide p q (.number x) (.number y) (.ok (.number (x / y)))
  /-- A string on the left, whatever stands on the right. -/
  | leftString {op : BinaryOp} (hop : op ≠ .plus) (p q : Position) (s : String) (rhs : Value) :
    Applies op p q (.string s) rhs (.error ⟨.typeMismatch .number .string, p⟩)
  | rightString {op : BinaryOp} (hop : op ≠ .plus) (p q : Position) (x : Float) (t : String) :
    Applies op p q (.number x) (.string t) (.error ⟨.typeMismatch .number .string, q⟩)

/-- `Evaluates scope e r`: in the scope, the expression has the value, or
the failure, `r`. -/
inductive Evaluates (scope : Scope) : Expr → Except EvalError Value → Prop
  | number (x : Float) (span : Span) : Evaluates scope (.number x span) (.ok (.number x))
  | string (s : String) (span : Span) : Evaluates scope (.string s span) (.ok (.string s))
  | bound {n : String} {v : Value} (h : scope.find? n = some v) (span : Span) :
    Evaluates scope (.name n span) (.ok v)
  | unbound {n : String} (h : scope.find? n = none) (span : Span) :
    Evaluates scope (.name n span) (.error ⟨.variableNotDefined n, span.start⟩)
  | grouping {inner : Expr} {r : Except EvalError Value} (h : Evaluates scope inner r)
      (span : Span) : Evaluates scope (.grouping inner span) r
  | negation {operand : Expr} {x : Float} (h : Evaluates scope operand (.ok (.number x)))
      (opPos : Position) (span : Span) :
    Evaluates scope (.negation operand opPos span) (.ok (.number (-x)))
  | negationString {operand : Expr} {s : String} (h : Evaluates scope operand (.ok (.string s)))
      (opPos : Position) (span : Span) :
    Evaluates scope (.negation operand opPos span)
      (.error ⟨.typeMismatch .number .string, operand.pos⟩)
  | negationFails {operand : Expr} {err : EvalError} (h : Evaluates scope operand (.error err))
      (opPos : Position) (span : Span) :
    Evaluates scope (.negation operand opPos span) (.error err)
  | leftFails {left : Expr} {err : EvalError} (h : Evaluates scope left (.error err))
      (op : BinaryOp) (right : Expr) (opPos : Position) (span : Span) :
    Evaluates scope (.binary left op right opPos span) (.error err)
  | rightFails {left right : Expr} {lhs : Value} {err : EvalError}
      (hleft : Evaluates scope left (.ok lhs)) (hright : Evaluates scope right (.error err))
      (op : BinaryOp) (opPos : Position) (span : Span) :
    Evaluates scope (.binary left op right opPos span) (.error err)
  | binary {left right : Expr} {op : BinaryOp} {lhs rhs : Value} {r : Except EvalError Value}
      (hleft : Evaluates scope left (.ok lhs)) (hright : Evaluates scope right (.ok rhs))
      (h : Applies op left.pos right.pos lhs rhs r) (opPos : Position) (span : Span) :
    Evaluates scope (.binary left op right opPos span) r

/-! ## Operators -/

/-- There is a rule for every operator and any two values, and it gives
what the evaluator computes. -/
theorem applies_applyBinary (op : BinaryOp) (left right : Expr) (lhs rhs : Value) :
    Applies op left.pos right.pos lhs rhs (applyBinary op left right lhs rhs) := by
  cases lhs with
  | number x =>
    cases rhs with
    | number y =>
      cases op with
      | plus => exact .sum ..
      | minus => exact .difference ..
      | times => exact .product ..
      | divide => exact .quotient ..
    | string t =>
      cases op with
      | plus => exact .stringSecond ..
      | minus | times | divide => exact .rightString (by decide) ..
  | string s =>
    cases op with
    | plus => exact .stringFirst ..
    | minus | times | divide => exact .leftString (by decide) ..

/-- The rules of the operators leave no choice. -/
theorem Applies.eq_applyBinary {op : BinaryOp} {left right : Expr} {lhs rhs : Value}
    {r : Except EvalError Value} (h : Applies op left.pos right.pos lhs rhs r) :
    applyBinary op left right lhs rhs = r := by
  cases h with
  | sum | stringFirst | stringSecond | difference | product | quotient => rfl
  | leftString hop =>
    cases op with
    | plus => exact absurd rfl hop
    | minus | times | divide => rfl
  | rightString hop =>
    cases op with
    | plus => exact absurd rfl hop
    | minus | times | divide => rfl

/-! ## Expressions -/

/-- What plain recursion gives follows from the rules. -/
theorem evaluates_value (scope : Scope) (e : Expr) :
    Evaluates scope e (Reference.value scope e) := by
  induction e with
  | number x span => exact .number x span
  | string s span => exact .string s span
  | name n span =>
    rw [Reference.value]
    cases h : scope.find? n with
    | none => exact .unbound h span
    | some v => exact .bound h span
  | grouping inner span ih => exact .grouping ih span
  | negation operand opPos span ih =>
    rw [Reference.value]
    cases hv : Reference.value scope operand with
    | error err => exact .negationFails (hv ▸ ih) opPos span
    | ok v =>
      rw [hv] at ih
      cases v with
      | number x => exact .negation ih opPos span
      | string s => exact .negationString ih opPos span
  | binary left op right opPos span ihleft ihright =>
    rw [Reference.value]
    cases hl : Reference.value scope left with
    | error err => exact .leftFails (hl ▸ ihleft) op right opPos span
    | ok lhs =>
      cases hr : Reference.value scope right with
      | error err => exact .rightFails (hl ▸ ihleft) (hr ▸ ihright) op opPos span
      | ok rhs =>
        exact .binary (hl ▸ ihleft) (hr ▸ ihright) (applies_applyBinary op left right lhs rhs)
          opPos span

/-- The rules give nothing but what plain recursion does. -/
theorem Evaluates.value_eq {scope : Scope} {e : Expr} {r : Except EvalError Value}
    (h : Evaluates scope e r) : Reference.value scope e = r := by
  induction h with
  | number | string => rfl
  | bound h | unbound h => rw [Reference.value, h]
  | grouping _ _ ih => exact ih
  | negation _ _ _ ih | negationString _ _ _ ih | negationFails _ _ _ ih =>
    rw [Reference.value, ih]
    rfl
  | leftFails _ _ _ _ _ ih =>
    rw [Reference.value, ih]
    rfl
  | rightFails _ _ _ _ _ ihleft ihright =>
    rw [Reference.value, ihleft, ihright]
    rfl
  | binary _ _ happly _ _ ihleft ihright =>
    rw [Reference.value, ihleft, ihright]
    exact happly.eq_applyBinary

/-- The evaluator answers what the rules give, and nothing else: the same
value, or the same fault at the same position. -/
theorem evaluate_eq_iff (scope : Scope) (e : Expr) (r : Except EvalError Value) :
    e.evaluate scope = r ↔ Evaluates scope e r := by
  rw [evaluate_eq_value]
  constructor
  · rintro rfl
    exact evaluates_value scope e
  · exact Evaluates.value_eq

end ShapeScript
