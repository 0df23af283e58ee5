/-
ShapeScript.Proofs.Expr.Precedence — reading by binding powers builds the
one tree that precedence allows.

`parseExpression_iff` is the main statement: a token list is read as a
tree exactly when the tree is well formed and its lexemes are those of the
list. Its two halves are `expression_sound` and `expression_complete`,
both for any power and any tokens behind the expression.

The loop invariant of `continuation` is `Expr.Fits`. It says of the tree
read so far that it is well formed, that its operator binds more tightly
than the loop's power, and that the next token binds no more tightly than
that operator. The last part is what makes the next tree well formed: the
new operator stands above the old one and is not of higher rank.
-/
import ShapeScript.Proofs.Reading
import ShapeScript.Proofs.Expr.Flattening

namespace ShapeScript

variable {finish : Position}

/-! ## What the next token may be -/

theorem bindsTighter_cons {r : Int} {t : Token} {ts : List Token} :
    bindsTighter r (t :: ts) = false ↔ t.lexeme.leftPower ≤ r := by
  rw [bindsTighter, decide_eq_false_iff_not, Int.not_lt]

theorem bindsTighter_mono {r s : Int} {ts : List Token} (h : r ≤ s)
    (hr : bindsTighter r ts = false) : bindsTighter s ts = false := by
  cases ts with
  | nil => rfl
  | cons t ts =>
    rw [bindsTighter_cons] at hr ⊢
    exact Int.le_trans hr h

/-! ## One step of each reader -/

/-- An expression is an operand and what continues it. -/
theorem gives_expression {r : Int} {ts : List Token} {e : Expr} {rest : List Token} :
    (expression finish r ts).Gives e rest ↔
      ∃ t more left middle, ts = t :: more ∧ (operand finish t more).Gives left middle ∧
        (continuation finish r left middle).Gives e rest := by
  cases ts with
  | nil => simp [expression]
  | cons t more =>
    rw [expression, Reading.gives_andThen]
    constructor
    · intro h
      obtain ⟨left, middle, short, hl, h⟩ := h
      exact ⟨t, more, left, middle, rfl, hl, Reading.gives_within.mp h⟩
    · intro h
      obtain ⟨_, _, left, middle, ⟨⟩, hl, h⟩ := h
      exact ⟨left, middle, hl.length_lt, hl, Reading.gives_within.mpr h⟩

/-- The loop ends where the next token does not bind more tightly. -/
theorem gives_continuation_stop {r : Int} {left : Expr} {ts : List Token}
    (h : bindsTighter r ts = false) {e : Expr} {rest : List Token} :
    (continuation finish r left ts).Gives e rest ↔ e = left ∧ rest = ts := by
  cases ts with
  | nil =>
    rw [continuation, Reading.gives_ok]
    exact and_congr eq_comm eq_comm
  | cons t more =>
    rw [bindsTighter_cons] at h
    rw [continuation, if_neg (Int.not_lt.mpr h), Reading.gives_ok]
    exact and_congr eq_comm eq_comm

/-- Otherwise it applies the next token and goes on with the result. -/
theorem gives_continuation_step {r : Int} {left : Expr} {t : Token} {ts : List Token}
    (h : r < t.lexeme.leftPower) {e : Expr} {rest : List Token} :
    (continuation finish r left (t :: ts)).Gives e rest ↔
      ∃ next middle, (application finish left t ts).Gives next middle ∧
        (continuation finish r next middle).Gives e rest := by
  rw [continuation, if_pos h, Reading.gives_within, Reading.gives_andThen]
  constructor
  · intro h
    obtain ⟨next, middle, short, hn, h⟩ := h
    exact ⟨next, middle, hn, Reading.gives_within.mp h⟩
  · intro h
    obtain ⟨next, middle, hn, h⟩ := h
    exact ⟨next, middle, hn.length_lt, hn, Reading.gives_within.mpr h⟩

/-- Only operators can be applied. -/
theorem gives_application {left : Expr} {t : Token} {ts : List Token} {e : Expr}
    {rest : List Token} :
    (application finish left t ts).Gives e rest ↔
      ∃ op right, t.lexeme = op.lexeme ∧ (expression finish op.power ts).Gives right rest ∧
        e = .binary left op right t.pos ⟨left.span.start, right.span.finish⟩ := by
  rw [application]
  split
  · rename_i op hop
    rw [Lexeme.binaryOp?_eq_some] at hop
    rw [Reading.gives_within, Reading.gives_map]
    constructor
    · intro h
      obtain ⟨right, hr, rfl⟩ := h
      exact ⟨op, right, hop, hr, rfl⟩
    · intro h
      obtain ⟨op', right, hop', hr, rfl⟩ := h
      obtain rfl : op = op' := by
        have := Lexeme.binaryOp?_eq_some.mpr (hop.symm.trans hop')
        rw [Lexeme.binaryOp?_eq_some.mpr rfl] at this
        exact Option.some.inj this
      exact ⟨right, hr, rfl⟩
  · rename_i hop
    constructor
    · intro h
      exact absurd h Reading.not_gives_error
    · intro h
      obtain ⟨op, _, hop', _, _⟩ := h
      rw [hop', Lexeme.binaryOp?_eq_some.mpr rfl] at hop
      cases hop

/-- What the operand that starts with `t` can be, and what it leaves of
the tokens `ts` behind `t`. -/
inductive OperandAt (finish : Position) (t : Token) (ts : List Token) :
    Expr → List Token → Prop where
  | name {n : String} (ht : t.lexeme = .identifier n) (hn : isReserved n = false) :
    OperandAt finish t ts (.name n t.span) ts
  | number {x : Float} (ht : t.lexeme = .number x) : OperandAt finish t ts (.number x t.span) ts
  | string {s : String} (ht : t.lexeme = .string s) : OperandAt finish t ts (.string s t.span) ts
  | negation {e : Expr} {rest : List Token} (ht : t.lexeme = .minus)
    (he : (expression finish prefixPower ts).Gives e rest) :
    OperandAt finish t ts (.negation e t.pos ⟨t.span.start, e.span.finish⟩) rest
  | grouping {e : Expr} {close : Token} {rest : List Token} (ht : t.lexeme = .openParen)
    (he : (expression finish 0 ts).Gives e (close :: rest)) (hc : close.lexeme = .closeParen) :
    OperandAt finish t ts (.grouping e ⟨t.span.start, close.span.finish⟩) rest

theorem OperandAt.of_gives {t : Token} {ts : List Token} {e : Expr} {rest : List Token}
    (h : (operand finish t ts).Gives e rest) : OperandAt finish t ts e rest := by
  rw [operand] at h
  split at h
  · rename_i n ht
    split at h
    · exact absurd h Reading.not_gives_error
    · rename_i hn
      rw [Reading.gives_ok] at h
      obtain ⟨rfl, rfl⟩ := h
      exact .name ht (by simpa using hn)
  · rename_i x ht
    rw [Reading.gives_ok] at h
    obtain ⟨rfl, rfl⟩ := h
    exact .number ht
  · rename_i s ht
    rw [Reading.gives_ok] at h
    obtain ⟨rfl, rfl⟩ := h
    exact .string ht
  · rename_i ht
    rw [Reading.gives_within, Reading.gives_map] at h
    obtain ⟨inner, hi, rfl⟩ := h
    exact .negation ht hi
  · rename_i ht
    rw [Reading.gives_andThen] at h
    obtain ⟨inner, middle, short, hi, h⟩ := h
    rw [Reading.gives_within] at hi
    split at h
    · rw [Reading.gives_ok] at h
      obtain ⟨rfl, rfl⟩ := h
      exact .grouping ht hi rfl
    · exact absurd h Reading.not_gives_failed
  · exact absurd h Reading.not_gives_error

theorem OperandAt.gives {t : Token} {ts : List Token} {e : Expr} {rest : List Token}
    (h : OperandAt finish t ts e rest) : (operand finish t ts).Gives e rest := by
  rw [operand]
  obtain ⟨lexeme, span⟩ := t
  cases h with
  | name ht hn =>
    obtain rfl : lexeme = _ := ht
    dsimp only
    rw [if_neg (by simp [hn])]
    exact Reading.gives_ok.mpr ⟨rfl, rfl⟩
  | number ht =>
    obtain rfl : lexeme = _ := ht
    exact Reading.gives_ok.mpr ⟨rfl, rfl⟩
  | string ht =>
    obtain rfl : lexeme = _ := ht
    exact Reading.gives_ok.mpr ⟨rfl, rfl⟩
  | negation ht he =>
    obtain rfl : lexeme = _ := ht
    exact Reading.gives_within.mpr (Reading.gives_map.mpr ⟨_, he, rfl⟩)
  | @grouping inner close rest ht he hc =>
    obtain rfl : lexeme = _ := ht
    obtain ⟨closing, at'⟩ := close
    obtain rfl : closing = _ := hc
    refine Reading.gives_andThen.mpr ⟨inner, _, ?_, Reading.gives_within.mpr he, ?_⟩
    · exact Nat.lt_succ_of_lt he.length_lt
    · exact Reading.gives_ok.mpr ⟨rfl, rfl⟩

/-! ## The loop invariant -/

/-- The tree is one that may stand to the left of `rest` in a loop of
power `r`. -/
structure Expr.Fits (r : Int) (e : Expr) (rest : List Token) : Prop where
  wellFormed : e.WellFormed
  namesFree : e.NamesFree
  tighter : ∀ o ∈ e.operator?, r < o.power
  settled : ∀ o ∈ e.operator?, bindsTighter o.power rest = false

namespace Expr.Fits

variable {r : Int} {e left right : Expr} {ts rest : List Token}

/-- A tree that is no binary node fits anywhere. -/
theorem of_operator?_eq_none (hw : e.WellFormed) (hn : e.NamesFree) (he : e.operator? = none) :
    e.Fits r rest := by
  refine ⟨hw, hn, ?_, ?_⟩ <;> rw [he] <;> rintro o ⟨⟩

/-- An operator that the loop accepts makes a fitting tree of a fitting
one and a right operand read with the operator's power. -/
theorem binary {op : BinaryOp} {t : Token} {p : Position} {s : Span} (hr : r < op.power)
    (ht : t.lexeme = op.lexeme) (hl : left.Fits r (t :: ts)) (hright : right.Fits op.power rest)
    (hstop : bindsTighter op.power rest = false) :
    (Expr.binary left op right p s).Fits r rest := by
  refine ⟨⟨hl.wellFormed, hright.wellFormed, ?_, ?_⟩, ⟨hl.namesFree, hright.namesFree⟩, ?_, ?_⟩
  · intro o ho
    have h := hl.settled o ho
    rw [bindsTighter_cons, ht, Lexeme.leftPower_lexeme] at h
    exact BinaryOp.power_le_power.mp h
  · intro o ho
    exact BinaryOp.power_lt_power.mp (hright.tighter o ho)
  · rintro o ⟨⟩
    exact hr
  · rintro o ⟨⟩
    exact hstop

/-- The operands of a fitting tree fit where they stand: the left one in
front of the operator, the right one in a loop of the operator's power. -/
theorem operands {op : BinaryOp} {t : Token} {p : Position} {s : Span}
    (h : (Expr.binary left op right p s).Fits r rest) (ht : t.lexeme = op.lexeme) :
    left.Fits r (t :: ts) ∧ right.Fits op.power rest := by
  obtain ⟨hwl, hwr, hol, hor⟩ := h.wellFormed
  have hr : r < op.power := h.tighter op rfl
  have hstop : bindsTighter op.power rest = false := h.settled op rfl
  refine ⟨⟨hwl, h.namesFree.1, ?_, ?_⟩, ⟨hwr, h.namesFree.2, ?_, ?_⟩⟩
  · intro o ho
    exact Int.lt_of_lt_of_le hr (BinaryOp.power_le_power.mpr (hol o ho))
  · intro o ho
    rw [bindsTighter_cons, ht, Lexeme.leftPower_lexeme]
    exact BinaryOp.power_le_power.mpr (hol o ho)
  · intro o ho
    exact BinaryOp.power_lt_power.mpr (hor o ho)
  · intro o ho
    exact bindsTighter_mono (Int.le_of_lt (BinaryOp.power_lt_power.mpr (hor o ho))) hstop

end Expr.Fits

/-! ## Soundness -/

/-- What reading an expression with power `r` promises. -/
def ExpressionSound (finish : Position) (ts : List Token) : Prop :=
  ∀ (r : Int) (e : Expr) (rest : List Token), (expression finish r ts).Gives e rest →
    Spells ts e.lexemes rest ∧ e.Fits r rest ∧ bindsTighter r rest = false

/-- What the loop promises about a fitting tree to its left. -/
def ContinuationSound (finish : Position) (ts : List Token) : Prop :=
  ∀ (r : Int) (left e : Expr) (rest : List Token), left.Fits r ts →
    (continuation finish r left ts).Gives e rest →
      ∃ w, e.lexemes = left.lexemes ++ w ∧ Spells ts w rest ∧ e.Fits r rest ∧
        bindsTighter r rest = false

theorem operand_sound {t : Token} {ts : List Token} (ih : ExpressionSound finish ts) {r : Int}
    {e : Expr} {rest : List Token} (h : OperandAt finish t ts e rest) :
    Spells (t :: ts) e.lexemes rest ∧ e.Fits r rest := by
  cases h with
  | name ht hn =>
    refine ⟨?_, .of_operator?_eq_none trivial hn rfl⟩
    rw [Expr.lexemes, ← ht]
    exact Spells.nil.cons
  | number ht =>
    refine ⟨?_, .of_operator?_eq_none trivial trivial rfl⟩
    rw [Expr.lexemes, ← ht]
    exact Spells.nil.cons
  | string ht =>
    refine ⟨?_, .of_operator?_eq_none trivial trivial rfl⟩
    rw [Expr.lexemes, ← ht]
    exact Spells.nil.cons
  | @negation inner rest ht he =>
    obtain ⟨hspell, hfit, _⟩ := ih _ _ _ he
    -- no operator binds more tightly than a prefix minus
    have hnone : inner.operator? = none := by
      cases ho : inner.operator? with
      | none => rfl
      | some o =>
        exact absurd (hfit.tighter o ho) (Int.not_lt.mpr o.power_le_prefixPower)
    refine ⟨?_, .of_operator?_eq_none ⟨hfit.wellFormed, hnone⟩ hfit.namesFree rfl⟩
    rw [Expr.lexemes, ← ht]
    exact hspell.cons
  | grouping ht he hc =>
    obtain ⟨hspell, hfit, _⟩ := ih _ _ _ he
    refine ⟨?_, .of_operator?_eq_none hfit.wellFormed hfit.namesFree rfl⟩
    rw [Expr.lexemes, ← ht, ← hc]
    exact hspell.snoc.cons

theorem continuation_sound_step {ts : List Token}
    (ih : ∀ ts' : List Token, ts'.length < ts.length →
      ExpressionSound finish ts' ∧ ContinuationSound finish ts') :
    ContinuationSound finish ts := by
  intro r left e rest hl h
  cases hb : bindsTighter r ts with
  | false =>
    obtain ⟨rfl, rfl⟩ := (gives_continuation_stop hb).mp h
    exact ⟨[], (List.append_nil _).symm, .nil, hl, hb⟩
  | true =>
    cases ts with
    | nil => cases hb
    | cons t more =>
      have hr : r < t.lexeme.leftPower := of_decide_eq_true hb
      obtain ⟨next, middle, hn, h⟩ := (gives_continuation_step hr).mp h
      obtain ⟨op, right, ht, hright, rfl⟩ := gives_application.mp hn
      obtain ⟨hspell, hfit, hstop⟩ := (ih more (Nat.lt_succ_self _)).1 _ _ _ hright
      rw [ht, Lexeme.leftPower_lexeme] at hr
      obtain ⟨w, hw, hrest, hfit', hstop'⟩ :=
        (ih middle (Nat.lt_succ_of_lt hright.length_lt)).2 _ _ _ _
          (.binary hr ht hl hfit hstop) h
      refine ⟨op.lexeme :: right.lexemes ++ w, ?_, ?_, hfit', hstop'⟩
      · rw [hw, Expr.lexemes, List.append_assoc]
      · rw [← ht]
        exact hspell.cons.append hrest

/-- Reading gives a well-formed tree, whose lexemes are those consumed. -/
theorem expression_and_continuation_sound (ts : List Token) :
    ExpressionSound finish ts ∧ ContinuationSound finish ts := by
  -- by strong induction on the number of tokens
  suffices ∀ n, ∀ ts : List Token, ts.length = n →
      ExpressionSound finish ts ∧ ContinuationSound finish ts from this _ ts rfl
  intro n
  induction n using Nat.strongRecOn with
  | ind n ih =>
    rintro ts rfl
    have ih' : ∀ ts' : List Token, ts'.length < ts.length →
        ExpressionSound finish ts' ∧ ContinuationSound finish ts' :=
      fun ts' h => ih ts'.length h ts' rfl
    refine ⟨?_, continuation_sound_step ih'⟩
    intro r e rest h
    obtain ⟨t, more, left, middle, rfl, hl, h⟩ := gives_expression.mp h
    obtain ⟨hspell, hfit⟩ :=
      operand_sound (ih' more (Nat.lt_succ_self _)).1 (.of_gives hl)
    obtain ⟨w, hw, hrest, hfit', hstop⟩ := (ih' middle hl.length_lt).2 _ _ _ _ hfit h
    refine ⟨?_, hfit', hstop⟩
    rw [hw]
    exact hspell.append hrest

theorem expression_sound {r : Int} {ts : List Token} {e : Expr} {rest : List Token}
    (h : (expression finish r ts).Gives e rest) :
    Spells ts e.lexemes rest ∧ e.Fits r rest ∧ bindsTighter r rest = false :=
  (expression_and_continuation_sound ts).1 r e rest h

/-! ## Completeness -/

/-- Reading the lexemes of the tree, where it fits, comes to the same as
going on after that tree. The tokens behind it must not start with an
opening parenthesis, which would bind to the operand of a prefix minus. -/
def ReadsBack (finish : Position) (e : Expr) : Prop :=
  ∀ (r : Int) (ts rest : List Token), Spells ts e.lexemes rest → e.Fits r rest →
    bindsTighter prefixPower rest = false →
    ∃ e', e'.SameOutline e ∧ ∀ x left, (continuation finish r e' rest).Gives x left →
      (expression finish r ts).Gives x left

theorem gives_of_operandAt {r : Int} {t : Token} {ts rest left : List Token} {e x : Expr}
    (he : OperandAt finish t ts e rest) (h : (continuation finish r e rest).Gives x left) :
    (expression finish r (t :: ts)).Gives x left :=
  gives_expression.mpr ⟨t, ts, e, rest, rfl, he.gives, h⟩

namespace ReadsBack

variable {finish : Position} {e left right : Expr}

/-- Where the loop stops behind it, the tree is what is read. -/
theorem gives {r : Int} {ts rest : List Token} (h : ReadsBack finish e)
    (hspell : Spells ts e.lexemes rest) (hfit : e.Fits r rest)
    (hstop : bindsTighter r rest = false) (hrest : bindsTighter prefixPower rest = false) :
    ∃ e', e'.SameOutline e ∧ (expression finish r ts).Gives e' rest := by
  obtain ⟨e', hsame, hread⟩ := h r ts rest hspell hfit hrest
  exact ⟨e', hsame, hread _ _ ((gives_continuation_stop hstop).mpr ⟨rfl, rfl⟩)⟩

/-- A tree of one token, given how that token is read. -/
theorem leaf {l : Lexeme} (hlexemes : e.lexemes = [l])
    (hread : ∀ t : Token, t.lexeme = l → e.NamesFree →
      ∃ e', e'.SameOutline e ∧ ∀ ts, OperandAt finish t ts e' ts) : ReadsBack finish e := by
  intro r ts rest hspell hfit _
  rw [hlexemes] at hspell
  obtain ⟨t, more, rfl, ht, hmore⟩ := Spells.cons_iff.mp hspell
  obtain rfl := Spells.nil_iff.mp hmore
  obtain ⟨e', hsame, hoperand⟩ := hread t ht hfit.namesFree
  exact ⟨e', hsame, fun x left h => gives_of_operandAt (hoperand more) h⟩

theorem negation {p : Position} {s : Span} (ih : ReadsBack finish e) :
    ReadsBack finish (.negation e p s) := by
  intro r ts rest hspell hfit hrest
  obtain ⟨t, more, rfl, ht, hmore⟩ := Spells.cons_iff.mp hspell
  obtain ⟨hw, hnone⟩ := hfit.wellFormed
  obtain ⟨e', hsame, hread⟩ :=
    ih.gives hmore (.of_operator?_eq_none hw hfit.namesFree hnone) hrest hrest
  refine ⟨.negation e' t.pos ⟨t.span.start, e'.span.finish⟩, ?_, ?_⟩
  · simp only [Expr.SameOutline, Outline.ofExpr]
    rw [hsame]
  · intro x left h
    exact gives_of_operandAt (.negation ht hread) h

theorem grouping {s : Span} (ih : ReadsBack finish e) : ReadsBack finish (.grouping e s) := by
  intro r ts rest hspell hfit _
  obtain ⟨t, more, rfl, ht, hmore⟩ := Spells.cons_iff.mp hspell
  obtain ⟨middle, hinner, hclose⟩ := Spells.append_iff.mp hmore
  obtain ⟨close, rest', rfl, hc, hrest'⟩ := Spells.cons_iff.mp hclose
  obtain rfl := Spells.nil_iff.mp hrest'
  have hstop : ∀ {q : Int}, 0 ≤ q → bindsTighter q (close :: rest') = false := by
    intro q hq
    rw [bindsTighter_cons, hc]
    exact hq
  have hfits : e.Fits 0 (close :: rest') :=
    ⟨hfit.wellFormed, hfit.namesFree, fun o _ => o.power_pos,
      fun o _ => hstop (Int.le_of_lt o.power_pos)⟩
  obtain ⟨e', hsame, hread⟩ :=
    ih.gives hinner hfits (hstop (Int.le_refl 0)) (hstop (by decide))
  refine ⟨.grouping e' ⟨t.span.start, close.span.finish⟩, ?_, ?_⟩
  · simp only [Expr.SameOutline, Outline.ofExpr]
    rw [hsame]
  · intro x left h
    exact gives_of_operandAt (.grouping ht hread hc) h

theorem binary {op : BinaryOp} {p : Position} {s : Span} (ihl : ReadsBack finish left)
    (ihr : ReadsBack finish right) : ReadsBack finish (.binary left op right p s) := by
  intro r ts rest hspell hfit hrest
  obtain ⟨middle, hleft, hmore⟩ := Spells.append_iff.mp hspell
  obtain ⟨t, more, rfl, ht, hright⟩ := Spells.cons_iff.mp hmore
  have hr : r < op.power := hfit.tighter op rfl
  have hstop : bindsTighter op.power rest = false := hfit.settled op rfl
  obtain ⟨hfitl, hfitr⟩ := hfit.operands ht
  have htop : bindsTighter prefixPower (t :: more) = false := by
    rw [bindsTighter_cons, ht, Lexeme.leftPower_lexeme]
    exact op.power_le_prefixPower
  -- the left operand is what the loop has read when it comes to the operator
  obtain ⟨left', hsamel, hreadl⟩ := ihl r ts _ hleft hfitl htop
  obtain ⟨right', hsamer, hreadr⟩ := ihr.gives hright hfitr hstop hrest
  refine ⟨.binary left' op right' t.pos ⟨left'.span.start, right'.span.finish⟩, ?_, ?_⟩
  · simp only [Expr.SameOutline, Outline.ofExpr]
    rw [hsamel, hsamer]
  · intro x out h
    have hbind : r < t.lexeme.leftPower := by
      rw [ht, Lexeme.leftPower_lexeme]
      exact hr
    exact hreadl _ _ ((gives_continuation_step hbind).mpr
      ⟨_, rest, gives_application.mpr ⟨op, right', ht, hreadr, rfl⟩, h⟩)

end ReadsBack

theorem readsBack (finish : Position) (e : Expr) : ReadsBack finish e := by
  induction e with
  | number x s => exact .leaf rfl fun t ht _ => ⟨.number x t.span, rfl, fun _ => .number ht⟩
  | string x s => exact .leaf rfl fun t ht _ => ⟨.string x t.span, rfl, fun _ => .string ht⟩
  | name n s => exact .leaf rfl fun t ht hn => ⟨.name n t.span, rfl, fun _ => .name ht hn⟩
  | negation operand p s ih => exact ih.negation
  | grouping inner s ih => exact ih.grouping
  | binary left op right p s ihl ihr => exact ihl.binary ihr

/-- The lexemes of a fitting tree are read as that tree, up to the next
token that does not bind more tightly. -/
theorem expression_complete (finish : Position) {e : Expr} {r : Int} {ts rest : List Token}
    (hspell : Spells ts e.lexemes rest) (hfit : e.Fits r rest)
    (hstop : bindsTighter r rest = false) (hrest : bindsTighter prefixPower rest = false) :
    ∃ e', e'.SameOutline e ∧ (expression finish r ts).Gives e' rest :=
  (readsBack finish e).gives hspell hfit hstop hrest

/-! ## Whole token lists -/

/-- A token list is read as a tree, up to spans and operator positions,
exactly when the tree is well formed, has no reserved word for a name, and
has the lexemes of the list. -/
theorem parseExpression_iff (ts : List Token) (x : Expr) :
    (∃ e, parseExpression ts = .ok e ∧ e.SameOutline x) ↔
      x.WellFormed ∧ x.NamesFree ∧ ts.map Token.lexeme = x.lexemes := by
  constructor
  · intro h
    obtain ⟨e, he, hsame⟩ := h
    have h := expression_sound (Reading.complete_eq_ok_iff.mp he)
    refine ⟨hsame.wellFormed h.2.1.wellFormed, hsame.namesFree h.2.1.namesFree, ?_⟩
    rw [← hsame.lexemes_eq]
    exact Spells.iff_map_eq.mp h.1
  · intro h
    obtain ⟨hw, hn, hts⟩ := h
    have hfit : x.Fits 0 [] := ⟨hw, hn, fun o _ => o.power_pos, fun _ _ => rfl⟩
    obtain ⟨e, hsame, he⟩ :=
      expression_complete (endOf ts) (Spells.iff_map_eq.mpr hts) hfit rfl rfl
    exact ⟨e, Reading.complete_eq_ok_iff.mpr he, hsame⟩

/-- Precedence alone does not make a tree readable: the name `shape` is a
well-formed tree, but its one token is refused as a reserved word. -/
theorem parseExpression_reservedWord :
    (Expr.name "shape" .origin).WellFormed ∧
      [Token.mk (.identifier "shape") .origin].map Token.lexeme
        = (Expr.name "shape" .origin).lexemes ∧
      parseExpression [Token.mk (.identifier "shape") .origin]
        = .error ⟨.reservedWord "shape", .origin⟩ ∧
      ¬ ∃ e, parseExpression [Token.mk (.identifier "shape") .origin] = .ok e ∧
        e.SameOutline (.name "shape" .origin) := by
  have hparse : parseExpression [Token.mk (.identifier "shape") .origin]
      = .error ⟨.reservedWord "shape", .origin⟩ := by
    rw [parseExpression, expression, operand]
    rfl
  refine ⟨trivial, rfl, hparse, ?_⟩
  intro h
  obtain ⟨e, he, _⟩ := h
  rw [hparse] at he
  cases he

end ShapeScript
