/-
ShapeScript.Proofs.Expr.Flattening — expressions written as lexemes, and
the trees that precedence allows.

`Expr.lexemes` writes a tree from left to right. It adds no parentheses,
so many trees share one text; `Expr.WellFormed` picks the one that
precedence and left associativity mean. Products stand above sums, which
is stated here by ranks of its own and not by the powers that the parser
works with.

Both notions look only at what a tree says: trees with one outline have
the same lexemes and are well formed together.
-/
import ShapeScript.Expr.Parser
import ShapeScript.Node.Outline

namespace ShapeScript

/-! ## Operators -/

namespace BinaryOp

/-- The lexeme that writes an operator. -/
def lexeme : BinaryOp → Lexeme
  | times => .times
  | divide => .divide
  | plus => .plus
  | minus => .minus

/-- The rank of an operator: products above sums. -/
def rank : BinaryOp → Nat
  | plus | minus => 0
  | times | divide => 1

/-- The parser's powers put the operators in the order of their ranks. -/
theorem power_lt_power {a b : BinaryOp} : a.power < b.power ↔ a.rank < b.rank := by
  cases a <;> cases b <;> decide

theorem power_le_power {a b : BinaryOp} : a.power ≤ b.power ↔ a.rank ≤ b.rank := by
  cases a <;> cases b <;> decide

/-- Read at power 0, an expression goes on over every operator. -/
theorem power_pos (op : BinaryOp) : 0 < op.power := by
  cases op <;> decide

/-- The operand of a minus sign goes on over none. -/
theorem power_le_prefixPower (op : BinaryOp) : op.power ≤ prefixPower := by
  cases op <;> decide

end BinaryOp

namespace Lexeme

/-- Only the lexeme that writes an operator is one. -/
theorem binaryOp?_eq_some {l : Lexeme} {op : BinaryOp} :
    l.binaryOp? = some op ↔ l = op.lexeme := by
  cases l <;> cases op <;> simp [binaryOp?, BinaryOp.lexeme]

@[simp] theorem leftPower_lexeme (op : BinaryOp) : op.lexeme.leftPower = op.power := by
  cases op <;> rfl

end Lexeme

/-! ## Trees -/

namespace Expr

/-- The lexemes of an expression from left to right. -/
def lexemes : Expr → List Lexeme
  | number x _ => [.number x]
  | string s _ => [.string s]
  | name n _ => [.identifier n]
  | binary left op right _ _ => left.lexemes ++ op.lexeme :: right.lexemes
  | negation operand _ _ => .minus :: operand.lexemes
  | grouping inner _ => .openParen :: (inner.lexemes ++ [.closeParen])

/-- The operator of a binary node. -/
def operator? : Expr → Option BinaryOp
  | binary _ op _ _ _ => some op
  | _ => none

/-- Every binary node has on its left no binary node of lower rank and on
its right none of lower or equal rank, and no minus sign stands before a
binary node. -/
def WellFormed : Expr → Prop
  | number _ _ | string _ _ | name _ _ => True
  | binary left op right _ _ =>
    left.WellFormed ∧ right.WellFormed ∧ (∀ o ∈ left.operator?, op.rank ≤ o.rank) ∧
      ∀ o ∈ right.operator?, op.rank < o.rank
  | negation operand _ _ => operand.WellFormed ∧ operand.operator? = none
  | grouping inner _ => inner.WellFormed

/-- No name in the expression is a reserved word. -/
def NamesFree : Expr → Prop
  | number _ _ | string _ _ => True
  | name n _ => isReserved n = false
  | binary left _ right _ _ => left.NamesFree ∧ right.NamesFree
  | negation operand _ _ => operand.NamesFree
  | grouping inner _ => inner.NamesFree

/-! ## Trees with one outline -/

/-- The trees differ at most in their spans and operator positions. -/
def SameOutline (e f : Expr) : Prop := Outline.ofExpr e = Outline.ofExpr f

namespace SameOutline

variable {e f left right : Expr} {op : BinaryOp} {p : Position} {s : Span}

/-! The tree on the right has the constructor of the one on the left. -/

theorem of_number {x : Float} (h : (number x s).SameOutline f) : ∃ s', f = number x s' := by
  cases f <;> simp [SameOutline, Outline.ofExpr] at h
  exact ⟨_, by rw [h]⟩

theorem of_string {text : String} (h : (string text s).SameOutline f) :
    ∃ s', f = string text s' := by
  cases f <;> simp [SameOutline, Outline.ofExpr] at h
  exact ⟨_, by rw [h]⟩

theorem of_name {n : String} (h : (name n s).SameOutline f) : ∃ s', f = name n s' := by
  cases f <;> simp [SameOutline, Outline.ofExpr] at h
  exact ⟨_, by rw [h]⟩

theorem of_binary (h : (binary left op right p s).SameOutline f) :
    ∃ left' right' p' s', f = binary left' op right' p' s' ∧
      left.SameOutline left' ∧ right.SameOutline right' := by
  cases f <;> simp [SameOutline, Outline.ofExpr] at h
  obtain ⟨hl, rfl, hr⟩ := h
  exact ⟨_, _, _, _, rfl, hl, hr⟩

theorem of_negation (h : (negation e p s).SameOutline f) :
    ∃ e' p' s', f = negation e' p' s' ∧ e.SameOutline e' := by
  cases f <;> simp [SameOutline, Outline.ofExpr] at h
  exact ⟨_, _, _, rfl, h⟩

theorem of_grouping (h : (grouping e s).SameOutline f) :
    ∃ e' s', f = grouping e' s' ∧ e.SameOutline e' := by
  cases f <;> simp [SameOutline, Outline.ofExpr] at h
  exact ⟨_, _, rfl, h⟩

/-- Whether a tree is a binary node, and of which operator, is part of its
outline. -/
theorem operator?_eq (h : e.SameOutline f) : e.operator? = f.operator? := by
  cases e <;> cases f <;> simp_all [SameOutline, Outline.ofExpr, operator?]

/-- Spans and positions are not written. -/
theorem lexemes_eq (h : e.SameOutline f) : e.lexemes = f.lexemes := by
  induction e generalizing f with
  | number x s => obtain ⟨s', rfl⟩ := h.of_number; rfl
  | string x s => obtain ⟨s', rfl⟩ := h.of_string; rfl
  | name n s => obtain ⟨s', rfl⟩ := h.of_name; rfl
  | binary left op right p s ihl ihr =>
    obtain ⟨left', right', p', s', rfl, hl, hr⟩ := h.of_binary
    rw [lexemes, lexemes, ihl hl, ihr hr]
  | negation operand p s ih =>
    obtain ⟨operand', p', s', rfl, ho⟩ := h.of_negation
    rw [lexemes, lexemes, ih ho]
  | grouping inner s ih =>
    obtain ⟨inner', s', rfl, hi⟩ := h.of_grouping
    rw [lexemes, lexemes, ih hi]

/-- Precedence is about operators only, not about where they stand. -/
theorem wellFormed (h : e.SameOutline f) (he : e.WellFormed) : f.WellFormed := by
  induction e generalizing f with
  | number x s => obtain ⟨s', rfl⟩ := h.of_number; exact he
  | string x s => obtain ⟨s', rfl⟩ := h.of_string; exact he
  | name n s => obtain ⟨s', rfl⟩ := h.of_name; exact he
  | binary left op right p s ihl ihr =>
    obtain ⟨left', right', p', s', rfl, hl, hr⟩ := h.of_binary
    obtain ⟨wl, wr, ol, or⟩ := he
    exact ⟨ihl hl wl, ihr hr wr, hl.operator?_eq ▸ ol, hr.operator?_eq ▸ or⟩
  | negation operand p s ih =>
    obtain ⟨operand', p', s', rfl, ho⟩ := h.of_negation
    exact ⟨ih ho he.1, ho.operator?_eq ▸ he.2⟩
  | grouping inner s ih =>
    obtain ⟨inner', s', rfl, hi⟩ := h.of_grouping
    show inner'.WellFormed
    exact ih hi he

/-- The names of a tree are part of its outline. -/
theorem namesFree (h : e.SameOutline f) (he : e.NamesFree) : f.NamesFree := by
  induction e generalizing f with
  | number x s => obtain ⟨s', rfl⟩ := h.of_number; exact he
  | string x s => obtain ⟨s', rfl⟩ := h.of_string; exact he
  | name n s => obtain ⟨s', rfl⟩ := h.of_name; exact he
  | binary left op right p s ihl ihr =>
    obtain ⟨left', right', p', s', rfl, hl, hr⟩ := h.of_binary
    exact ⟨ihl hl he.1, ihr hr he.2⟩
  | negation operand p s ih =>
    obtain ⟨operand', p', s', rfl, ho⟩ := h.of_negation
    show operand'.NamesFree
    exact ih ho he
  | grouping inner s ih =>
    obtain ⟨inner', s', rfl, hi⟩ := h.of_grouping
    show inner'.NamesFree
    exact ih hi he

end SameOutline

end Expr

end ShapeScript
