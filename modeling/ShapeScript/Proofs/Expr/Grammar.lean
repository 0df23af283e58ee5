/-
ShapeScript.Proofs.Expr.Grammar — the ambiguous grammar of expressions
and its well-formed trees.

`Grammar.Expression` says which lexemes are an expression and nothing
about how they group: `a + b * c` is derived in two ways. The main
statement, `Grammar.expression_iff`, is that the derivable texts are
exactly the texts of well-formed trees. From right to left it is an
induction on the tree. From left to right a derivation joins well-formed
trees at an operator, and the joined tree has to be regrouped: `attach`
hangs an operand onto the right edge of a tree, `join` takes the right
tree apart until what is left of it can be attached, and `negateFirst`
moves a minus sign to the first operand.
-/
import ShapeScript.Proofs.Expr.Flattening

namespace ShapeScript

namespace Grammar

/-- The lexemes that form an expression. -/
inductive Expression : List Lexeme → Prop where
  | name {n : String} (h : isReserved n = false) : Expression [.identifier n]
  | number (x : Float) : Expression [.number x]
  | string (s : String) : Expression [.string s]
  | negation {w : List Lexeme} (h : Expression w) : Expression (.minus :: w)
  | binary {v w : List Lexeme} (op : BinaryOp) (hv : Expression v) (hw : Expression w) :
    Expression (v ++ op.lexeme :: w)
  | grouping {w : List Lexeme} (h : Expression w) :
    Expression (.openParen :: (w ++ [.closeParen]))

end Grammar

namespace Expr

/-! ## A minus sign in front -/

/-- The tree with a minus sign in front of its first operand. -/
def negateFirst : Expr → Expr
  | binary left op right p s => binary left.negateFirst op right p s
  | e => negation e .origin .origin

theorem operator?_negateFirst (e : Expr) : e.negateFirst.operator? = e.operator? := by
  cases e <;> rfl

/-- The sign stands in front of the whole text. -/
theorem lexemes_negateFirst (e : Expr) : e.negateFirst.lexemes = .minus :: e.lexemes := by
  induction e with
  | binary left op right p s ihl ihr => rw [negateFirst, lexemes, ihl]; rfl
  | _ => rfl

theorem namesFree_negateFirst {e : Expr} (h : e.NamesFree) : e.negateFirst.NamesFree := by
  induction e with
  | binary left op right p s ihl ihr => exact ⟨ihl h.1, h.2⟩
  | _ => exact h

/-- Its operand is no binary node, so the tree stays well formed. -/
theorem wellFormed_negateFirst {e : Expr} (h : e.WellFormed) : e.negateFirst.WellFormed := by
  induction e with
  | binary left op right p s ihl ihr =>
    obtain ⟨hl, hr, hol, hor⟩ := h
    exact ⟨ihl hl, hr, (operator?_negateFirst left).symm ▸ hol, hor⟩
  | _ => exact ⟨h, rfl⟩

/-! ## An operand at the right edge -/

/-- The tree with one more operator and operand at its right end. Where
the operator binds more tightly than the top of the tree it belongs to
the right operand. -/
def attach (op : BinaryOp) (operand : Expr) : Expr → Expr
  | binary left o right p s =>
    if o.rank < op.rank then binary left o (attach op operand right) p s
    else binary (binary left o right p s) op operand .origin .origin
  | e => binary e op operand .origin .origin

variable {op : BinaryOp} {operand : Expr}

/-- The operator and the operand are written last. -/
theorem lexemes_attach (e : Expr) :
    (attach op operand e).lexemes = e.lexemes ++ op.lexeme :: operand.lexemes := by
  induction e with
  | binary left o right p s ihl ihr =>
    rw [attach]
    split
    · rw [lexemes, ihr, lexemes, List.append_assoc, List.cons_append]
    · rfl
  | _ => rfl

theorem namesFree_attach {e : Expr} (ho : operand.NamesFree) (h : e.NamesFree) :
    (attach op operand e).NamesFree := by
  induction e with
  | binary left o right p s ihl ihr =>
    rw [attach]
    split
    · exact ⟨h.1, ihr h.2⟩
    · exact ⟨h, ho⟩
  | _ => exact ⟨h, ho⟩

/-- The operator on top after attaching is the one before or the new one. -/
theorem operator?_attach (e : Expr) :
    (attach op operand e).operator? = e.operator? ∨ (attach op operand e).operator? = some op := by
  cases e with
  | binary left o right p s =>
    rw [attach]
    split
    · exact .inl rfl
    · exact .inr rfl
  | _ => exact .inr rfl

/-- The operand has to bind more tightly than its operator, as a right operand
does. -/
theorem wellFormed_attach {e : Expr} (ho : operand.WellFormed)
    (hop : ∀ o ∈ operand.operator?, op.rank < o.rank) (h : e.WellFormed) :
    (attach op operand e).WellFormed := by
  induction e with
  | binary left o right p s ihl ihr =>
    rw [attach]
    split
    · rename_i hlt
      obtain ⟨hl, hr, hol, hor⟩ := h
      refine ⟨hl, ihr hr, hol, fun o' ho' => ?_⟩
      rcases operator?_attach right with htop | htop
      · exact hor o' (htop ▸ ho')
      · obtain rfl : op = o' := Option.some.inj (htop.symm.trans ho')
        exact hlt
    · rename_i hle
      refine ⟨h, ho, ?_, hop⟩
      rintro o' ⟨⟩
      exact Nat.not_lt.mp hle
  | negation e p s ih => exact ⟨h, ho, by rintro o ⟨⟩, hop⟩
  | grouping e s ih => exact ⟨h, ho, by rintro o ⟨⟩, hop⟩
  | _ => exact ⟨h, ho, by rintro o ⟨⟩, hop⟩

/-! ## Two trees at an operator -/

/-- The tree that has `e`, then the operator, then the last argument. -/
def join (e : Expr) (op : BinaryOp) : Expr → Expr
  | binary left o right p s =>
    if op.rank < o.rank then attach op (binary left o right p s) e
    else attach o right (join e op left)
  | f => attach op f e

theorem lexemes_join (e f : Expr) :
    (join e op f).lexemes = e.lexemes ++ op.lexeme :: f.lexemes := by
  induction f with
  | binary left o right p s ihl ihr =>
    rw [join]
    split
    · exact lexemes_attach e
    · rw [lexemes_attach, ihl, lexemes, List.append_assoc, List.cons_append]
  | _ => exact lexemes_attach e

theorem namesFree_join {e f : Expr} (he : e.NamesFree) (hf : f.NamesFree) :
    (join e op f).NamesFree := by
  induction f with
  | binary left o right p s ihl ihr =>
    rw [join]
    split
    · exact namesFree_attach hf he
    · exact namesFree_attach hf.2 (ihl hf.1)
  | _ => exact namesFree_attach hf he

/-- Taking the right tree apart ends with operands that bind tightly enough to
be attached. -/
theorem wellFormed_join {e f : Expr} (he : e.WellFormed) (hf : f.WellFormed) :
    (join e op f).WellFormed := by
  induction f with
  | binary left o right p s ihl ihr =>
    rw [join]
    split
    · rename_i hlt
      refine wellFormed_attach hf ?_ he
      rintro o' ⟨⟩
      exact hlt
    · obtain ⟨hl, hr, hol, hor⟩ := hf
      exact wellFormed_attach hr hor (ihl hl)
  | _ => exact wellFormed_attach hf (by rintro o ⟨⟩) he

end Expr

/-! ## Derivations and trees -/

namespace Grammar

/-- Any tree is derived by its own shape, well formed or not. -/
theorem expression_lexemes {e : Expr} (h : e.NamesFree) : Expression e.lexemes := by
  induction e with
  | number x s => exact .number x
  | string x s => exact .string x
  | name n s => exact .name h
  | binary left op right p s ihl ihr => exact .binary op (ihl h.1) (ihr h.2)
  | negation operand p s ih => exact .negation (ih h)
  | grouping inner s ih => exact .grouping (ih h)

/-- A derivation becomes a well-formed tree rule by rule. -/
theorem Expression.exists_tree {w : List Lexeme} (h : Expression w) :
    ∃ e : Expr, e.WellFormed ∧ e.NamesFree ∧ e.lexemes = w := by
  induction h with
  | name h => exact ⟨.name _ .origin, trivial, h, rfl⟩
  | number x => exact ⟨.number x .origin, trivial, trivial, rfl⟩
  | string s => exact ⟨.string s .origin, trivial, trivial, rfl⟩
  | negation _ ih =>
    obtain ⟨e, hw, hn, rfl⟩ := ih
    exact ⟨e.negateFirst, Expr.wellFormed_negateFirst hw, Expr.namesFree_negateFirst hn,
      Expr.lexemes_negateFirst e⟩
  | binary op _ _ ihv ihw =>
    obtain ⟨e, hwe, hne, rfl⟩ := ihv
    obtain ⟨f, hwf, hnf, rfl⟩ := ihw
    exact ⟨e.join op f, Expr.wellFormed_join hwe hwf, Expr.namesFree_join hne hnf,
      Expr.lexemes_join e f⟩
  | grouping _ ih =>
    obtain ⟨e, hw, hn, rfl⟩ := ih
    exact ⟨.grouping e .origin, hw, hn, rfl⟩

/-- The texts of the grammar are those of the well-formed trees. -/
theorem expression_iff {w : List Lexeme} :
    Expression w ↔ ∃ e : Expr, e.WellFormed ∧ e.NamesFree ∧ e.lexemes = w := by
  constructor
  · exact Expression.exists_tree
  · intro h
    obtain ⟨e, _, hn, rfl⟩ := h
    exact expression_lexemes hn

end Grammar

end ShapeScript
