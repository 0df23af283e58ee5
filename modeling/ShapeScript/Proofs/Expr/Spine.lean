/-
ShapeScript.Proofs.Expr.Spine — what reading an expression promises for any
power.

A reader is asked for an expression with a power `r`, anywhere in a token
list. The tree that it gives has on its left spine only operators that bind
more tightly than `r` (`Expr.WellFormed.power_lt`): the one at its root
does, and the ranks of a well-formed tree do not fall towards its left end.
The reader stops at a token that does not bind more tightly, and between
its start and that token stand the lexemes of the tree.

The end of the token list is told to the readers for the sake of their
errors. It does not change what they give (`expression_gives_anywhere`), so
a tree and where it ends depend on the power and the unread tokens alone.
-/
import ShapeScript.Proofs.Expr.Precedence

namespace ShapeScript

/-! ## The left spine -/

/-- The operators of the binary nodes that are reached from the root by
going to the left operand of each. -/
def Expr.leftSpine : Expr → List BinaryOp
  | .binary left op _ _ _ => op :: left.leftSpine
  | _ => []

/-- If the operator at the root of a well-formed tree binds more tightly
than `r`, those on its left spine do. -/
theorem Expr.WellFormed.power_lt {e : Expr} {r : Int} (hw : e.WellFormed)
    (hroot : ∀ op ∈ e.operator?, r < op.power) : ∀ op ∈ e.leftSpine, r < op.power := by
  induction e with
  | binary left op right p s ihl _ =>
    obtain ⟨hleft, _, hranks, _⟩ := hw
    have hop : r < op.power := hroot op rfl
    intro o ho
    obtain rfl | ho := List.mem_cons.mp ho
    · exact hop
    · refine ihl hleft (fun o' ho' => ?_) o ho
      exact Int.lt_of_lt_of_le hop (BinaryOp.power_le_power.mpr (hranks o' ho'))
  | _ => exact fun _ ho => absurd ho List.not_mem_nil

/-! ## Readers that are told another end -/

variable {finish finish' : Position}

/-- What is read of `ts` as an expression with one end of the tokens is
read with another. -/
def ExpressionKept (finish finish' : Position) (ts : List Token) : Prop :=
  ∀ (r : Int) (e : Expr) (rest : List Token), (expression finish r ts).Gives e rest →
    (expression finish' r ts).Gives e rest

/-- The same for what continues an expression. -/
def ContinuationKept (finish finish' : Position) (ts : List Token) : Prop :=
  ∀ (r : Int) (left e : Expr) (rest : List Token),
    (continuation finish r left ts).Gives e rest → (continuation finish' r left ts).Gives e rest

theorem OperandAt.kept {t : Token} {ts rest : List Token} {e : Expr}
    (ih : ExpressionKept finish finish' ts) (h : OperandAt finish t ts e rest) :
    OperandAt finish' t ts e rest := by
  cases h with
  | name ht hn => exact .name ht hn
  | number ht => exact .number ht
  | string ht => exact .string ht
  | negation ht he => exact .negation ht (ih _ _ _ he)
  | grouping ht he hc => exact .grouping ht (ih _ _ _ he) hc

theorem continuation_kept_step {ts : List Token}
    (ih : ∀ ts' : List Token, ts'.length < ts.length →
      ExpressionKept finish finish' ts' ∧ ContinuationKept finish finish' ts') :
    ContinuationKept finish finish' ts := by
  intro r left e rest h
  cases hb : bindsTighter r ts with
  | false => exact (gives_continuation_stop hb).mpr ((gives_continuation_stop hb).mp h)
  | true =>
    cases ts with
    | nil => cases hb
    | cons t more =>
      have hr : r < t.lexeme.leftPower := of_decide_eq_true hb
      obtain ⟨next, middle, hn, h⟩ := (gives_continuation_step hr).mp h
      obtain ⟨op, right, ht, hright, rfl⟩ := gives_application.mp hn
      have hright' := (ih more (Nat.lt_succ_self _)).1 _ _ _ hright
      have hmiddle : middle.length < (t :: more).length := Nat.lt_succ_of_lt hright.length_lt
      refine (gives_continuation_step hr).mpr ⟨_, middle, ?_, (ih middle hmiddle).2 _ _ _ _ h⟩
      exact gives_application.mpr ⟨op, right, ht, hright', rfl⟩

theorem expression_and_continuation_kept (ts : List Token) :
    ExpressionKept finish finish' ts ∧ ContinuationKept finish finish' ts := by
  -- by strong induction on the number of tokens
  induction hn : ts.length using Nat.strongRecOn generalizing ts with
  | ind n ih =>
    have ih' : ∀ ts' : List Token, ts'.length < ts.length →
        ExpressionKept finish finish' ts' ∧ ContinuationKept finish finish' ts' :=
      fun ts' h => ih ts'.length (hn ▸ h) ts' rfl
    refine ⟨?_, continuation_kept_step ih'⟩
    intro r e rest h
    obtain ⟨t, more, left, middle, rfl, hl, h⟩ := gives_expression.mp h
    have hl' := ((OperandAt.of_gives hl).kept (ih' more (Nat.lt_succ_self _)).1).gives
    exact gives_expression.mpr
      ⟨t, more, left, middle, rfl, hl', (ih' middle hl.length_lt).2 _ _ _ _ h⟩

/-- What is read does not depend on where the tokens are said to end. -/
theorem expression_gives_anywhere {r : Int} {ts rest : List Token} {e : Expr}
    (h : (expression finish r ts).Gives e rest) : (expression finish' r ts).Gives e rest :=
  (expression_and_continuation_kept ts).1 r e rest h

/-! ## Any power, any place -/

/-- The contract of reading an expression, for every token list, every
place in it and every power. If a tree is read, the tokens from the place
up to what stays unread are the lexemes of the tree, the operators on the
left spine of the tree bind more tightly than the power, and the token that
is next does not. Wherever the same tokens are unread, the same tree is
read, and nothing else, and the same tokens are left. -/
theorem expression_at_any_power {tokens rest : List Token} {start : Nat} {r : Int} {e : Expr}
    (h : (expression (endOf tokens) r (tokens.drop start)).Gives e rest) :
    (∃ used, tokens.drop start = used ++ rest ∧ used.map Token.lexeme = e.lexemes) ∧
      (∀ op ∈ e.leftSpine, r < op.power) ∧
      (∀ t ∈ rest.head?, t.lexeme.leftPower ≤ r) ∧
      ∀ (tokens' : List Token) (start' : Nat), tokens'.drop start' = tokens.drop start →
        ∀ (e' : Expr) (rest' : List Token),
          (expression (endOf tokens') r (tokens'.drop start')).Gives e' rest' ↔
            e' = e ∧ rest' = rest := by
  obtain ⟨hspell, hfit, hstop⟩ := expression_sound h
  refine ⟨hspell, hfit.wellFormed.power_lt hfit.tighter, ?_, ?_⟩
  · intro t ht
    obtain ⟨more, rfl⟩ := List.head?_eq_some_iff.mp ht
    exact bindsTighter_cons.mp hstop
  · intro tokens' start' hsame e' rest'
    rw [hsame]
    constructor
    · intro h'
      exact (expression_gives_anywhere h').unique h
    · rintro ⟨rfl, rfl⟩
      exact expression_gives_anywhere h

/-- A name is an expression if nothing behind it binds more tightly. -/
theorem expression_gives_name {r : Int} {n : String} {s : Span} {rest : List Token}
    (hn : isReserved n = false) (hstop : bindsTighter r rest = false) :
    (expression finish r (⟨.identifier n, s⟩ :: rest)).Gives (.name n s) rest :=
  gives_expression.mpr ⟨_, rest, _, rest, rfl, (OperandAt.name rfl hn).gives,
    (gives_continuation_stop hstop).mpr ⟨rfl, rfl⟩⟩

/-- The tokens of `(a-b*c)`. -/
def groupedDifference : List Token :=
  [.openParen, .identifier "a", .minus, .identifier "b", .times, .identifier "c", .closeParen].map
    fun l => ⟨l, .origin⟩

/-- The product in it. -/
def rightProduct : Expr :=
  .binary (.name "b" .origin) .times (.name "c" .origin) .origin .origin

theorem expression_gives_rightProduct :
    (expression (endOf groupedDifference) 35 (groupedDifference.drop 3)).Gives rightProduct
      (groupedDifference.drop 6) := by
  refine gives_expression.mpr ⟨_, _, _, _, rfl, (OperandAt.name rfl rfl).gives, ?_⟩
  refine (gives_continuation_step (by decide)).mpr
    ⟨rightProduct, groupedDifference.drop 6, ?_, ?_⟩
  · exact gives_application.mpr ⟨.times, _, rfl, expression_gives_name rfl rfl, rfl⟩
  · exact (gives_continuation_stop rfl).mpr ⟨rfl, rfl⟩

/-- Read from its fourth token on, with a power between those of sums and
products, it gives the product and stops at the parenthesis. -/
theorem rightProduct_at_any_power :
    (expression (endOf groupedDifference) 35 (groupedDifference.drop 3)).Gives rightProduct
        (groupedDifference.drop 6) ∧
      rightProduct.leftSpine = [.times] ∧ (∀ op ∈ rightProduct.leftSpine, 35 < op.power) ∧
        ∀ t ∈ (groupedDifference.drop 6).head?, t.lexeme.leftPower ≤ 35 := by
  obtain ⟨_, hspine, hnext, _⟩ := expression_at_any_power expression_gives_rightProduct
  exact ⟨expression_gives_rightProduct, rfl, hspine, hnext⟩

end ShapeScript
