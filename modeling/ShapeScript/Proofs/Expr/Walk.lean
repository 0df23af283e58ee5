/-
ShapeScript.Proofs.Expr.Walk — walks over expressions.

The four walks call each other and themselves as the four readers do, and
nothing in their form says that this ends. `Walk.expressions_follow` says
that it does: twice the number of unread tokens is enough. The induction is
on how often the walks may call each other. An operand and a right operand
start behind a token that was consumed, so two calls, one to come to an
operand and one to come back to an expression, consume a token.
-/
import ShapeScript.Expr.Parser
import ShapeScript.Proofs.Token.Walk

namespace ShapeScript

namespace Walk

/-! ## The walks -/

section Walks

variable (tokens : List Token)

/-- The next token binds more tightly than `r`. -/
def bindsTighter (r : Int) : Walk Bool := do
  match ← peek tokens with
  | some t => return r < t.lexeme.leftPower
  | none => return false

mutual

/-- Walks over an expression whose operators bind more tightly than `r`. -/
def expression (r : Int) : Nat → Walk Expr
  | 0 => exhausted
  | fuel + 1 => do
    let t ← advance tokens
    let left ← operand t fuel
    continuation r left fuel

/-- Walks over the rest of an operand that starts with `t`. -/
def operand (t : Token) : Nat → Walk Expr
  | 0 => exhausted
  | fuel + 1 =>
    match t.lexeme with
    | .identifier name =>
      if isReserved name then throw ⟨.reservedWord name, t.pos⟩ else return .name name t.span
    | .number value => return .number value t.span
    | .string text => return .string text t.span
    | .minus => do
      let e ← expression prefixPower fuel
      return .negation e t.pos ⟨t.span.start, e.span.finish⟩
    | .openParen => do
      let inner ← expression 0 fuel
      match ← accept tokens .closeParen with
      | some closing => return .grouping inner ⟨t.span.start, closing.span.finish⟩
      | none => throw ⟨.unbalancedParen, t.pos⟩
    | _ => throw ⟨.expected "an expression" t.kind, t.pos⟩

/-- Walks over operators and operands behind `left` as long as they bind
more tightly than `r`. -/
def continuation (r : Int) (left : Expr) : Nat → Walk Expr
  | 0 => exhausted
  | fuel + 1 => do
    if ← bindsTighter tokens r then
      let t ← advance tokens
      let e ← application left t fuel
      continuation r e fuel
    else
      return left

/-- Walks over what the token `t` makes of the expression to its left. -/
def application (left : Expr) (t : Token) : Nat → Walk Expr
  | 0 => exhausted
  | fuel + 1 =>
    match t.lexeme.binaryOp? with
    | some op => do
      let right ← expression op.power fuel
      return .binary left op right t.pos ⟨left.span.start, right.span.finish⟩
    | none => throw ⟨.expected "an operator" t.kind, t.pos⟩

end

end Walks

/-! ## They follow the readers -/

variable {tokens ts : List Token} {i fuel : Nat}

/-- Looking ahead for an operator does not move the index. -/
theorem outcome_bindsTighter (hat : At tokens i ts) (r : Int) :
    (bindsTighter tokens r).outcome i = some (.ok (ShapeScript.bindsTighter r ts), i) := by
  rw [bindsTighter, outcome_bind_of_ok (outcome_peek hat)]
  cases ts <;> rfl

/-- Told `fuel`, the walks over expressions and what continues them end where
`fuel` is more than twice the number of unread tokens. Those behind a token
need one call more. -/
structure ExpressionsFollow (tokens : List Token) (fuel : Nat) : Prop where
  expression : ∀ r, Tracks tokens fuel (expression tokens r fuel)
    (ShapeScript.expression (endOf tokens) r)
  continuation : ∀ {i ts}, At tokens i ts → 2 * ts.length < fuel → ∀ r left,
    Follows tokens i i (continuation tokens r left fuel)
      (ShapeScript.continuation (endOf tokens) r left ts)
  operand : ∀ {i ts}, At tokens i ts → 2 * ts.length + 1 < fuel → ∀ t,
    Follows tokens i i (operand tokens t fuel) (ShapeScript.operand (endOf tokens) t ts)
  application : ∀ {i ts}, At tokens i ts → 2 * ts.length + 1 < fuel → ∀ left t,
    Follows tokens i i (application tokens left t fuel)
      (ShapeScript.application (endOf tokens) left t ts)

namespace ExpressionsFollow

/-- What an operand needs is told by its first token, and the expressions in
it start behind that. -/
theorem operand_succ (h : ExpressionsFollow tokens fuel) (hat : At tokens i ts)
    (hfuel : 2 * ts.length < fuel) (t : Token) :
    Follows tokens i i (Walk.operand tokens t (fuel + 1))
      (ShapeScript.operand (endOf tokens) t ts) := by
  have hexpression := fun r => (h.expression r i ts hat hfuel).mono hat.le_beyond
  obtain ⟨lexeme, span⟩ := t
  rw [Walk.operand, ShapeScript.operand]
  cases lexeme with
  | identifier name =>
    dsimp only
    split
    · exact .error hat (Nat.le_refl i)
    · exact .ok hat (Nat.le_refl i)
  | number value => exact .ok hat (Nat.le_refl i)
  | string text => exact .ok hat (Nat.le_refl i)
  | minus => exact (hexpression prefixPower).map.within _
  | openParen =>
    refine ((hexpression 0).within _).andThen fun inner j rest short hrest => ?_
    cases rest with
    | nil =>
      exact .after (outcome_accept_of_not_nextIs hrest rfl) (.failed hrest (Nat.le_refl j))
    | cons u after =>
      obtain ⟨lexeme, uspan⟩ := u
      cases lexeme with
      | closeParen =>
        exact .after (outcome_accept_of_nextIs hrest rfl) (.ok hrest.tail (Nat.le_succ j))
      | _ =>
        exact .after (outcome_accept_of_not_nextIs hrest rfl) (.failed hrest (Nat.le_refl j))
  | _ => exact .error hat (Nat.le_refl i)

/-- The token of the operator was consumed, so its right operand may take the
number of calls that is enough for an expression there. -/
theorem application_succ (h : ExpressionsFollow tokens fuel) (hat : At tokens i ts)
    (hfuel : 2 * ts.length < fuel) (left : Expr) (t : Token) :
    Follows tokens i i (Walk.application tokens left t (fuel + 1))
      (ShapeScript.application (endOf tokens) left t ts) := by
  rw [Walk.application, ShapeScript.application]
  cases t.lexeme.binaryOp? with
  | some op => exact ((h.expression op.power i ts hat hfuel).map.within _).mono hat.le_beyond
  | none => exact .error hat (Nat.le_refl i)

/-- An expression that starts with a token moves on, and at the end it fails
where it is. -/
theorem expression_succ (h : ExpressionsFollow tokens fuel) (hat : At tokens i ts)
    (hfuel : 2 * ts.length < fuel + 1) (r : Int) :
    Follows tokens (beyond tokens i) i (Walk.expression tokens r (fuel + 1))
      (ShapeScript.expression (endOf tokens) r ts) := by
  rw [Walk.expression]
  cases ts with
  | nil =>
    rw [ShapeScript.expression]
    exact .stop (outcome_advance_nil hat) hat (Nat.le_of_eq hat.beyond_nil)
  | cons t rest =>
    rw [List.length_cons] at hfuel
    rw [ShapeScript.expression, hat.beyond_cons]
    refine .after (outcome_advance_cons hat) ?_
    refine (h.operand hat.tail (by omega) t).andThen fun e j after short hafter => ?_
    exact (h.continuation hafter (by omega) r e).within _

/-- What continues an expression may be nothing, so it need not move on. If it
is an operator, that was consumed before the walk goes round again. -/
theorem continuation_succ (h : ExpressionsFollow tokens fuel) (hat : At tokens i ts)
    (hfuel : 2 * ts.length < fuel + 1) (r : Int) (left : Expr) :
    Follows tokens i i (Walk.continuation tokens r left (fuel + 1))
      (ShapeScript.continuation (endOf tokens) r left ts) := by
  have hcheck := outcome_bindsTighter hat r
  rw [Walk.continuation]
  cases ts with
  | nil =>
    rw [ShapeScript.continuation]
    exact .after hcheck (.ok hat (Nat.le_refl i))
  | cons t rest =>
    rw [List.length_cons] at hfuel
    rw [ShapeScript.continuation]
    by_cases hr : r < t.lexeme.leftPower
    · rw [ShapeScript.bindsTighter, decide_eq_true hr] at hcheck
      rw [if_pos hr]
      refine .after hcheck (.after (outcome_advance_cons hat) ?_)
      refine (((h.application hat.tail (by omega) left t).andThen
        fun e j after short hafter => ?_).within _).mono (Nat.le_succ i)
      exact (h.continuation hafter (by omega) r e).within _
    · rw [ShapeScript.bindsTighter, decide_eq_false hr] at hcheck
      rw [if_neg hr]
      exact .after hcheck (.ok hat (Nat.le_refl i))

end ExpressionsFollow

/-- The induction is on how often the walks may call each other. Without a call
there is no number of tokens for which that is enough. -/
theorem expressions_follow (tokens : List Token) (fuel : Nat) : ExpressionsFollow tokens fuel := by
  induction fuel with
  | zero =>
    exact {
      expression := fun _ _ _ _ hfuel => absurd hfuel (Nat.not_lt_zero _)
      continuation := fun _ hfuel => absurd hfuel (Nat.not_lt_zero _)
      operand := fun _ hfuel => absurd hfuel (Nat.not_lt_zero _)
      application := fun _ hfuel => absurd hfuel (Nat.not_lt_zero _) }
  | succ fuel ih =>
    exact {
      expression := fun r _ _ hat hfuel => ih.expression_succ hat hfuel r
      continuation := fun hat hfuel => ih.continuation_succ hat hfuel
      operand := fun hat hfuel => ih.operand_succ hat (Nat.lt_of_succ_lt_succ hfuel)
      application := fun hat hfuel => ih.application_succ hat (Nat.lt_of_succ_lt_succ hfuel) }

theorem expression_tracks (tokens : List Token) (fuel : Nat) (r : Int) :
    Tracks tokens fuel (expression tokens r fuel) (ShapeScript.expression (endOf tokens) r) :=
  (expressions_follow tokens fuel).expression r

end Walk

end ShapeScript
