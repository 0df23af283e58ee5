/-
ShapeScript.Expr.Evaluation — the value of an expression in a scope.

`plus` adds two numbers and otherwise concatenates display texts; the
other operators want numbers, the left operand's type being checked
first. Arithmetic is that of doubles: a division by zero gives an infinity
or a NaN.

Chains such as `a + b + c + d` are trees that lean to the left. They are
evaluated by walking down the left side, which collects the operators
and right operands, and folding back up.

`Expr.run` is the evaluator, and an error of arithmetic would end it. None
occurs (`Expr.evalOnly_run`), so `Expr.evaluate` gives its outcome as a
value or a problem of evaluation.
-/
import ShapeScript.Value
import ShapeScript.Failure
import ShapeScript.Expr

namespace ShapeScript

/-- The number that a value is, or a type mismatch at the expression it
came from. -/
def numberOf (v : Value) (e : Expr) : Except EvalError Float :=
  match v with
  | .number x => .ok x
  | .string _ => .error ⟨.typeMismatch .number .string, e.pos⟩

/-- The arithmetic of an operator. -/
def BinaryOp.compute : BinaryOp → Float → Float → Except ArithmeticError Float
  | times, x, y => .ok (x * y)
  | divide, x, y => Number.divide x y
  | plus, x, y => .ok (x + y)
  | minus, x, y => .ok (x - y)

/-- No operator fails on numbers. -/
theorem BinaryOp.isOk_compute (op : BinaryOp) (x y : Float) : (op.compute x y).isOk = true := by
  cases op with
  | divide => exact Number.isOk_divide x y
  | times | plus | minus => rfl

/-- Applies an operator to the values of its operands. -/
def BinaryOp.apply (op : BinaryOp) (left right : Expr) (lhs rhs : Value) : Except Failure Value :=
  match op, lhs, rhs with
  | .plus, .number x, .number y => (op.compute x y).mapError .ofArithmetic |>.map .number
  | .plus, lhs, rhs => do
    let s ← lhs.text.mapError .ofArithmetic
    let t ← rhs.text.mapError .ofArithmetic
    return .string (s ++ t)
  | op, lhs, rhs => do
    let x ← (numberOf lhs left).mapError .ofEval
    let y ← (numberOf rhs right).mapError .ofEval
    (op.compute x y).mapError .ofArithmetic |>.map .number

/-- One link of a chain: an operator between the expression to its left
and an operand. -/
structure Link where
  left : Expr
  op : BinaryOp
  right : Expr

/-- Where a chain starts, and its links from left to right. -/
def chainOf : Expr → List Link → Expr × List Link
  | .binary left op right _ _, links => chainOf left (⟨left, op, right⟩ :: links)
  | e, links => (e, links)

/-- Folds the links of a chain onto the value it starts with, given how
fitting operands are evaluated. -/
def foldLinks {fits : Expr → Prop} (operand : (e : Expr) → fits e → Except Failure Value) :
    (links : List Link) → (∀ link ∈ links, fits link.right) → Value → Except Failure Value
  | [], _, lhs => .ok lhs
  | link :: links, h, lhs => do
    let rhs ← operand link.right (h link List.mem_cons_self)
    let v ← link.op.apply link.left link.right lhs rhs
    foldLinks operand links (fun l m => h l (List.mem_cons_of_mem _ m)) v

/-- A chain starts no larger than the expression it is found in. -/
theorem sizeOf_start_chainOf_le (e : Expr) (links : List Link) :
    sizeOf (chainOf e links).1 ≤ sizeOf e := by
  fun_induction chainOf e links with
  | case1 links left op right p s ih => simp only [Expr.binary.sizeOf_spec]; omega
  | case2 => exact Nat.le_refl _

/-- The operands of a chain are smaller than the expression it is found
in, apart from those that were there before. -/
theorem sizeOf_operand_chainOf_lt (e : Expr) (links : List Link) :
    ∀ link ∈ (chainOf e links).2, sizeOf link.right < sizeOf e ∨ link ∈ links := by
  fun_induction chainOf e links with
  | case1 links left op right p s ih =>
    intro link h
    rcases ih link h with h | h
    · left; simp only [Expr.binary.sizeOf_spec]; omega
    · rcases List.mem_cons.mp h with rfl | h
      · left; simp only [Expr.binary.sizeOf_spec]; omega
      · exact .inr h
  | case2 => exact fun link h => .inr h

/-- The operands of the chain that a binary expression is are smaller
than it. -/
theorem sizeOf_operand_lt (left : Expr) (op : BinaryOp) (right : Expr) (pos : Position)
    (span : Span) :
    ∀ link ∈ (chainOf left [⟨left, op, right⟩]).2,
      sizeOf link.right < sizeOf (Expr.binary left op right pos span) := by
  intro link h
  simp only [Expr.binary.sizeOf_spec]
  rcases sizeOf_operand_chainOf_lt left [⟨left, op, right⟩] link h with h | h
  · omega
  · simp only [List.mem_singleton] at h
    subst h
    dsimp only
    omega

/-- Evaluates an expression in a scope. -/
def Expr.run (scope : Scope) (e : Expr) : Except Failure Value :=
  match e with
  | .number x _ => .ok (.number x)
  | .string s _ => .ok (.string s)
  | .name n span =>
    match scope.find? n with
    | some v => .ok v
    | none => .error (.ofEval ⟨.variableNotDefined n, span.start⟩)
  | .negation operand _ _ => do
    let v ← operand.run scope
    let x ← (numberOf v operand).mapError .ofEval
    return .number (-x)
  | .grouping inner _ => inner.run scope
  | .binary left op right pos span => do
    let chain := chainOf left [⟨left, op, right⟩]
    let v ← chain.1.run scope
    foldLinks (fun e (_ : sizeOf e < sizeOf (Expr.binary left op right pos span)) => e.run scope)
      chain.2 (sizeOf_operand_lt left op right pos span) v
termination_by sizeOf e
decreasing_by
  · simp only [Expr.negation.sizeOf_spec]; omega
  · simp only [Expr.grouping.sizeOf_spec]; omega
  · have := sizeOf_start_chainOf_le left [⟨left, op, right⟩]
    simp only [Expr.binary.sizeOf_spec]; omega
  · assumption

/-! ## What evaluation can fail with -/

theorem BinaryOp.evalOnly_apply (op : BinaryOp) (left right : Expr) (lhs rhs : Value) :
    EvalOnly (op.apply left right lhs rhs) := by
  have hcompute : ∀ x y, EvalOnly
      (((op.compute x y).mapError Failure.ofArithmetic).map Value.number) := fun x y =>
    (evalOnly_of_isOk (op.isOk_compute x y)).map Value.number
  have htext : ∀ v : Value, EvalOnly (v.text.mapError Failure.ofArithmetic) := fun v =>
    evalOnly_of_isOk (v.text_eq ▸ rfl)
  unfold apply
  split
  · exact hcompute _ _
  · exact (htext _).bind fun s => (htext _).bind fun t => evalOnly_ok _
  · exact (evalOnly_mapError _).bind fun x => (evalOnly_mapError _).bind fun y => hcompute x y

theorem evalOnly_foldLinks {fits : Expr → Prop}
    {operand : (e : Expr) → fits e → Except Failure Value}
    (hoperand : ∀ e h, EvalOnly (operand e h)) (links : List Link)
    (h : ∀ link ∈ links, fits link.right) (v : Value) :
    EvalOnly (foldLinks operand links h v) := by
  induction links generalizing v with
  | nil => exact evalOnly_ok v
  | cons link links ih =>
    rw [foldLinks]
    refine (hoperand _ _).bind fun rhs => ?_
    exact (link.op.evalOnly_apply link.left link.right v rhs).bind fun w => ih _ w

/-- Evaluating an expression fails with problems of evaluation only. -/
theorem Expr.evalOnly_run (scope : Scope) (e : Expr) : EvalOnly (e.run scope) := by
  -- the operands of a chain are smaller than it, but no parts of it that a
  -- structural induction would reach
  induction hn : sizeOf e using Nat.strongRecOn generalizing e with
  | ind n ih =>
    subst hn
    cases e with
    | number x span | string s span =>
      rw [Expr.run]
      exact evalOnly_ok _
    | name s span =>
      rw [Expr.run]
      cases scope.find? s with
      | none => exact evalOnly_mapError (.error _)
      | some v => exact evalOnly_ok v
    | negation operand opPos span =>
      have hoperand := ih _ (by simp only [Expr.negation.sizeOf_spec]; omega) operand rfl
      rw [Expr.run]
      exact hoperand.bind fun v => (evalOnly_mapError _).bind fun x => evalOnly_ok _
    | grouping inner span =>
      rw [Expr.run]
      exact ih _ (by simp only [Expr.grouping.sizeOf_spec]; omega) inner rfl
    | binary left op right pos span =>
      have hstart := sizeOf_start_chainOf_le left [⟨left, op, right⟩]
      have hchain := ih _ (by simp only [Expr.binary.sizeOf_spec]; omega)
        (chainOf left [⟨left, op, right⟩]).1 rfl
      rw [Expr.run]
      exact hchain.bind fun v => evalOnly_foldLinks (fun e he => ih _ he e rfl) _ _ v

/-- The value of an expression in a scope. -/
def Expr.evaluate (scope : Scope) (e : Expr) : Except EvalError Value :=
  evalOutcome (e.run scope) (e.evalOnly_run scope)

end ShapeScript
