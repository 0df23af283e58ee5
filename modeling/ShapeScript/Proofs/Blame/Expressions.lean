/-
ShapeScript.Proofs.Blame.Expressions — what errors inside an expression
mean.

`expression_accountableOn` is the main statement: for any power, reading an
expression is accountable for the rule of expressions. The power does not
enter the rule. It decides how far the reader goes, and what it leaves is
still continued by somebody, so a token is refused only where no power
would help: the rule derives `v op w` from any two expressions, and behind
an operator any expression may stand, however the tree will be grouped.

Behind an operand `u` the loop is accountable for the words that make `u` a
longer expression.
-/
import ShapeScript.Proofs.Blame

namespace ShapeScript

open Grammar (Takes)

variable {finish : Position} {r : Int} {t : Token} {ts : List Token} {e : ParseError}

/-! ## Failure of each reader -/

theorem fails_expression :
    (expression finish r ts).Fails e ↔
      (ts = [] ∧ e = ⟨.unexpectedEnd, finish⟩) ∨
        ∃ t more, ts = t :: more ∧ ((operand finish t more).Fails e ∨
          ∃ left middle, (operand finish t more).Gives left middle ∧
            (continuation finish r left middle).Fails e) := by
  cases ts with
  | nil => simp [expression, eq_comm]
  | cons t more =>
    rw [expression, Reading.fails_andThen]
    constructor
    · rintro (h | ⟨left, middle, short, hl, h⟩)
      · exact .inr ⟨t, more, rfl, .inl h⟩
      · exact .inr ⟨t, more, rfl, .inr ⟨left, middle, hl, Reading.fails_within.mp h⟩⟩
    · rintro (⟨h, _⟩ | ⟨_, _, ⟨⟩, h | ⟨left, middle, hl, h⟩⟩)
      · cases h
      · exact .inl h
      · exact .inr ⟨left, middle, hl.length_lt, hl, Reading.fails_within.mpr h⟩

/-- The loop fails in a step or after it, and it makes steps only where the
next token binds more tightly. -/
theorem fails_continuation {left : Expr} :
    (continuation finish r left ts).Fails e ↔
      ∃ t more, ts = t :: more ∧ r < t.lexeme.leftPower ∧
        ((application finish left t more).Fails e ∨
          ∃ next middle, (application finish left t more).Gives next middle ∧
            (continuation finish r next middle).Fails e) := by
  cases ts with
  | nil => simp [continuation]
  | cons t more =>
    rw [continuation]
    by_cases hr : r < t.lexeme.leftPower
    · rw [if_pos hr, Reading.fails_within, Reading.fails_andThen]
      constructor
      · rintro (h | ⟨next, middle, short, hn, h⟩)
        · exact ⟨t, more, rfl, hr, .inl h⟩
        · exact ⟨t, more, rfl, hr, .inr ⟨next, middle, hn, Reading.fails_within.mp h⟩⟩
      · rintro ⟨_, _, ⟨⟩, _, h | ⟨next, middle, hn, h⟩⟩
        · exact .inl h
        · exact .inr ⟨next, middle, hn.length_lt, hn, Reading.fails_within.mpr h⟩
    · rw [if_neg hr]
      constructor
      · intro h
        exact absurd h Reading.not_fails_ok
      · rintro ⟨_, _, ⟨⟩, hr', _⟩
        exact absurd hr' hr

theorem fails_application {left : Expr} :
    (application finish left t ts).Fails e ↔
      (∃ op : BinaryOp, t.lexeme = op.lexeme ∧ (expression finish op.power ts).Fails e) ∨
        (t.lexeme.binaryOp? = none ∧ e = ⟨.expected "an operator" t.kind, t.pos⟩) := by
  rw [application]
  split
  · rename_i op hop
    rw [Reading.fails_within, Reading.fails_map]
    constructor
    · intro h
      exact .inl ⟨op, Lexeme.binaryOp?_eq_some.mp hop, h⟩
    · rintro (⟨op', hop', h⟩ | ⟨hnone, _⟩)
      · rw [Lexeme.binaryOp?_eq_some.mpr hop'] at hop
        obtain rfl := Option.some.inj hop
        exact h
      · rw [hop] at hnone
        cases hnone
  · rename_i hop
    rw [Reading.fails_error]
    constructor
    · rintro rfl
      exact .inr ⟨hop, rfl⟩
    · rintro (⟨op, hop', _⟩ | ⟨_, rfl⟩)
      · rw [Lexeme.binaryOp?_eq_some.mpr hop'] at hop
        cases hop
      · rfl

/-- The ways in which the operand that starts with `t` fails: the token is
refused, what it stands in front of fails, or a grouping is not closed. -/
inductive OperandFails (finish : Position) (t : Token) (ts : List Token) : ParseError → Prop
  | refused {fault : ParseFault} (hfault : fault.blamesToken)
      (hrefused : ∀ finish' ts', (operand finish' t ts').Fails ⟨fault, t.pos⟩) :
      OperandFails finish t ts ⟨fault, t.pos⟩
  | negation {e : ParseError} (ht : t.lexeme = .minus)
      (he : (expression finish prefixPower ts).Fails e) : OperandFails finish t ts e
  | inner {e : ParseError} (ht : t.lexeme = .openParen) (he : (expression finish 0 ts).Fails e) :
      OperandFails finish t ts e
  | unclosed {inner : Expr} {rest : List Token} (ht : t.lexeme = .openParen)
      (hinner : (expression finish 0 ts).Gives inner rest)
      (hrest : nextIs .closeParen rest = false) :
      OperandFails finish t ts ⟨.unbalancedParen, t.pos⟩

theorem OperandFails.of_fails (h : (operand finish t ts).Fails e) : OperandFails finish t ts e := by
  obtain ⟨lexeme, span⟩ := t
  rw [operand] at h
  cases lexeme with
  | identifier n =>
    dsimp only at h
    cases hres : isReserved n with
    | true =>
      rw [if_pos hres, Reading.fails_error] at h
      subst h
      refine .refused rfl fun finish' ts' => ?_
      rw [operand]
      simp [hres]
    | false => simp [hres] at h
  | number x => exact absurd h Reading.not_fails_ok
  | string s => exact absurd h Reading.not_fails_ok
  | minus => exact .negation rfl (Reading.fails_map.mp (Reading.fails_within.mp h))
  | openParen =>
    obtain hinner | ⟨inner, middle, short, hinner, h⟩ := Reading.fails_andThen.mp h
    · exact .inner rfl (Reading.fails_within.mp hinner)
    · rw [Reading.gives_within] at hinner
      split at h
      · exact absurd h Reading.not_fails_ok
      · rename_i rest short' hne
        rw [Reading.fails_failed] at h
        subst h
        refine .unclosed rfl hinner (nextIs_eq_false (m := .closeParen) (by decide) ?_)
        rintro span' more rfl
        exact hne span' more short rfl HEq.rfl
  | _ =>
    obtain rfl := Reading.fails_error.mp h
    refine .refused rfl fun finish' ts' => ?_
    rw [operand]
    exact Reading.fails_error.mpr rfl

theorem fails_operand_minus (ht : t.lexeme = .minus)
    (h : (expression finish prefixPower ts).Fails e) : (operand finish t ts).Fails e := by
  obtain ⟨lexeme, span⟩ := t
  obtain rfl : lexeme = .minus := ht
  rw [operand]
  exact Reading.fails_within.mpr (Reading.fails_map.mpr h)

theorem fails_operand_openParen (ht : t.lexeme = .openParen)
    (h : (expression finish 0 ts).Fails e) : (operand finish t ts).Fails e := by
  obtain ⟨lexeme, span⟩ := t
  obtain rfl : lexeme = .openParen := ht
  rw [operand]
  exact Reading.fails_andThen.mpr (.inl (Reading.fails_within.mpr h))

/-! ## Words behind an operand -/

/-- The words that make `u` a longer expression, or leave it as it is. -/
def Grammar.continues (u : List Lexeme) : Language Lexeme := {w | Grammar.Expression (u ++ w)}

theorem Grammar.Expression.nil_mem_continues {u : List Lexeme} (hu : Grammar.Expression u) :
    [] ∈ Grammar.continues u := by
  show Grammar.Expression (u ++ [])
  rwa [List.append_nil]

/-- A token that the loop of an expression in parentheses stops at ends the
grouping, unless it closes it. -/
theorem endsGrouping_of_bindsTighter {rest : List Token} (hstop : bindsTighter 0 rest = false)
    (hclose : nextIs .closeParen rest = false) : ∀ t ∈ rest.head?, t.lexeme.EndsGrouping := by
  intro t ht
  cases rest with
  | nil => cases ht
  | cons u more =>
    obtain rfl : u = t := Option.some.inj ht
    have hpower := bindsTighter_cons.mp hstop
    have hkind : u.lexeme.kind ≠ .closeParen := by
      intro hk
      rw [nextIs_cons.mpr hk] at hclose
      cases hclose
    obtain ⟨lexeme, span⟩ := u
    refine ⟨?_, ?_, ?_⟩
    · rintro rfl
      exact hkind rfl
    · cases hop : lexeme.binaryOp? with
      | none => rfl
      | some op =>
        obtain rfl := Lexeme.binaryOp?_eq_some.mp hop
        rw [Lexeme.leftPower_lexeme] at hpower
        exact absurd op.power_pos (Int.not_lt.mpr hpower)
    · rintro rfl
      have hlow : callPower ≤ 0 := hpower
      exact absurd hlow (by decide)

/-! ## Accountability -/

/-- What is proved of the tokens behind the first by induction. -/
def ExpressionsAccountable (ts : List Token) : Prop :=
  ∀ r, AccountableOn (fun finish => expression finish r) Grammar.expression ts

def ContinuationsAccountable (ts : List Token) : Prop :=
  ∀ r left u, Grammar.Expression u →
    AccountableOn (fun finish => continuation finish r left) (Grammar.continues u) ts

/-- An operand is an expression and would be the same one with other tokens
behind the next. -/
theorem OperandAt.reads {x : Expr} {rest : List Token} (ih : ExpressionsAccountable ts)
    (h : OperandAt finish t ts x rest) :
    ∃ used, ts = used ++ rest ∧ Grammar.Expression (t.lexeme :: used.map Token.lexeme) ∧
      ∀ finish' rest', rest'.head? = rest.head? → OperandAt finish' t (used ++ rest') x rest' := by
  cases h with
  | name ht hn =>
    refine ⟨[], rfl, ?_, fun finish' rest' _ => .name ht hn⟩
    rw [ht]
    exact .name hn
  | number ht =>
    refine ⟨[], rfl, ?_, fun finish' rest' _ => .number ht⟩
    rw [ht]
    exact .number _
  | string ht =>
    refine ⟨[], rfl, ?_, fun finish' rest' _ => .string ht⟩
    rw [ht]
    exact .string _
  | negation ht he =>
    obtain ⟨used, hts, hmem, hsame⟩ := (ih prefixPower).reads he
    refine ⟨used, hts, ?_, fun finish' rest' hhead => .negation ht (hsame finish' rest' hhead)⟩
    rw [ht]
    exact .negation hmem
  | @grouping inner close rest ht he hc =>
    obtain ⟨used, hts, hmem, hsame⟩ := (ih 0).reads he
    refine ⟨used ++ [close], by simp [hts], ?_, fun finish' rest' _ => ?_⟩
    · rw [ht, List.map_append, List.map_singleton, hc]
      exact .grouping hmem
    · rw [List.append_assoc]
      exact .grouping ht (hsame finish' (close :: rest') rfl) hc

/-- The errors of an operand, behind its first token, are errors of the
expression that it starts. -/
theorem OperandFails.blame {before : List Lexeme} (ih : ExpressionsAccountable ts)
    (hbefore : Takes before Grammar.expression) (h : OperandFails finish t ts e) :
    Blame (fun finish => expression finish r) finish before (t :: ts) e := by
  have hstart : ∀ finish' ts' e', (operand finish' t ts').Fails e' →
      (expression finish' r (t :: ts')).Fails e' :=
    fun finish' ts' e' h => fails_expression.mpr (.inr ⟨t, ts', rfl, .inl h⟩)
  -- whatever expression may stand at the token may also start with it
  have hbehind : (∀ w, Grammar.Expression w → ∃ v, Grammar.Expression (t.lexeme :: (w ++ v))) →
      Takes (before ++ [t.lexeme]) Grammar.expression := by
    intro hword
    refine hbefore.of_extends fun w hw => ?_
    obtain ⟨v, hv⟩ := hword w hw
    exact ⟨v, hv⟩
  cases h with
  | @refused fault hfault hrefused =>
    refine .token (List.nil_append (t :: ts)).symm hfault ?_ ?_
    · rw [List.map_nil, List.append_nil]
      exact hbefore.viable (Grammar.Expression.number 0)
    · intro finish' rest'
      exact hstart finish' rest' _ (hrefused finish' rest')
  | negation ht he =>
    have hinner := hbehind fun w hw => ⟨[], by simpa [ht] using Grammar.Expression.negation hw⟩
    refine ((ih prefixPower).blames hinner he).cons ?_
    exact fun finish' ts' e' _ h => hstart finish' ts' e' (fails_operand_minus ht h)
  | inner ht he =>
    have hinner := hbehind fun w hw => ⟨[.closeParen], ht ▸ .grouping hw⟩
    refine ((ih 0).blames hinner he).cons ?_
    exact fun finish' ts' e' _ h => hstart finish' ts' e' (fails_operand_openParen ht h)
  | @unclosed inner rest ht hinner hrest =>
    obtain ⟨used, hts, hmem, _⟩ := (ih 0).reads hinner
    have hstop := (expression_sound hinner).2.2
    subst hts
    refine .grouping (List.nil_append (t :: (used ++ rest))).symm ht ?_ hmem
      (endsGrouping_of_bindsTighter hstop hrest)
    rwa [List.map_nil, List.append_nil]

theorem bindsTighter_congr {ts' : List Token} (h : ts'.head? = ts.head?) :
    bindsTighter r ts' = bindsTighter r ts := by
  cases ts <;> cases ts' <;> simp_all [bindsTighter]

section Step

variable (ih : ∀ ts' : List Token, ts'.length < ts.length →
  ExpressionsAccountable ts' ∧ ContinuationsAccountable ts')
include ih

theorem continuation_reads {left x : Expr} {u : List Lexeme} {rest : List Token}
    (hu : Grammar.Expression u) (h : (continuation finish r left ts).Gives x rest) :
    ∃ used, ts = used ++ rest ∧ used.map Token.lexeme ∈ Grammar.continues u ∧
      ∀ finish' rest', rest'.head? = rest.head? →
        (continuation finish' r left (used ++ rest')).Gives x rest' := by
  cases hb : bindsTighter r ts with
  | false =>
    obtain ⟨rfl, rfl⟩ := (gives_continuation_stop hb).mp h
    refine ⟨[], rfl, hu.nil_mem_continues, fun finish' rest' hhead => ?_⟩
    have hstop : bindsTighter r rest' = false := (bindsTighter_congr hhead).trans hb
    exact (gives_continuation_stop hstop).mpr ⟨rfl, rfl⟩
  | true =>
    cases ts with
    | nil => cases hb
    | cons t more =>
      have hr : r < t.lexeme.leftPower := of_decide_eq_true hb
      obtain ⟨next, middle, hnext, hx⟩ := (gives_continuation_step hr).mp h
      obtain ⟨op, right, ht, hright, rfl⟩ := gives_application.mp hnext
      obtain ⟨used, hmore, hmem, hsame⟩ :=
        ((ih more (Nat.lt_succ_self _)).1 op.power).reads hright
      have hlonger : Grammar.Expression (u ++ op.lexeme :: used.map Token.lexeme) :=
        .binary op hu hmem
      obtain ⟨used', hmiddle, hmem', hsame'⟩ :=
        ((ih middle (Nat.lt_succ_of_lt hright.length_lt)).2 r _ _ hlonger).reads hx
      subst hmiddle
      refine ⟨t :: (used ++ used'), by simp [hmore], ?_, fun finish' rest' hhead => ?_⟩
      · show Grammar.Expression _
        have hword : Grammar.Expression _ := hmem'
        simpa [ht] using hword
      · rw [List.cons_append, List.append_assoc]
        refine (gives_continuation_step hr).mpr
          ⟨_, used' ++ rest', gives_application.mpr ⟨op, right, ht, ?_, rfl⟩, ?_⟩
        · exact hsame finish' _ (head?_append_congr hhead used')
        · exact hsame' finish' rest' hhead

theorem continuation_blames {left : Expr} {u before : List Lexeme} (hu : Grammar.Expression u)
    (hbefore : Takes before (Grammar.continues u)) (h : (continuation finish r left ts).Fails e) :
    Blame (fun finish => continuation finish r left) finish before ts e := by
  obtain ⟨t, more, rfl, hr, h⟩ := fails_continuation.mp h
  have ihmore := ih more (Nat.lt_succ_self _)
  obtain happlication | ⟨next, middle, hnext, hlater⟩ := h
  · have hstep : ∀ finish' ts' e', (application finish' left t ts').Fails e' →
        (continuation finish' r left (t :: ts')).Fails e' :=
      fun finish' ts' e' h => fails_continuation.mpr ⟨t, ts', rfl, hr, .inl h⟩
    obtain ⟨op, ht, hright⟩ | ⟨hnone, rfl⟩ := fails_application.mp happlication
    · -- behind the operator any expression may stand
      have hbehind : Takes (before ++ [t.lexeme]) Grammar.expression := by
        refine hbefore.of_extends fun w hw => ⟨[], ?_⟩
        show Grammar.Expression _
        simpa [ht] using Grammar.Expression.binary op hu hw
      refine ((ihmore.1 op.power).blames hbehind hright).cons fun finish' ts' e' _ h => ?_
      exact hstep finish' ts' e' (fails_application.mpr (.inl ⟨op, ht, h⟩))
    · refine .token (List.nil_append (t :: more)).symm rfl ?_ fun finish' rest' => ?_
      · rw [List.map_nil, List.append_nil]
        exact hbefore.viable hu.nil_mem_continues
      · exact hstep finish' rest' _ (fails_application.mpr (.inr ⟨hnone, rfl⟩))
  · obtain ⟨op, right, ht, hright, rfl⟩ := gives_application.mp hnext
    obtain ⟨used, hmore, hmem, hsame⟩ := (ihmore.1 op.power).reads hright
    have hlonger : Grammar.Expression (u ++ op.lexeme :: used.map Token.lexeme) :=
      .binary op hu hmem
    have hbehind : Takes (before ++ (t :: used).map Token.lexeme)
        (Grammar.continues (u ++ op.lexeme :: used.map Token.lexeme)) := by
      refine hbefore.of_extends fun w hw => ⟨[], ?_⟩
      show Grammar.Expression _
      have hword : Grammar.Expression _ := hw
      simpa [ht] using hword
    have hblame := ((ih middle (Nat.lt_succ_of_lt hright.length_lt)).2 r _ _ hlonger).blames
      hbehind hlater
    subst hmore
    refine hblame.lift fun finish' ts' e' hhead h => ?_
    exact fails_continuation.mpr ⟨t, used ++ ts', rfl, hr,
      .inr ⟨_, ts', gives_application.mpr ⟨op, right, ht, hsame finish' ts' hhead, rfl⟩, h⟩⟩

theorem expression_reads {x : Expr} {rest : List Token}
    (h : (expression finish r ts).Gives x rest) :
    ∃ used, ts = used ++ rest ∧ used.map Token.lexeme ∈ Grammar.expression ∧
      ∀ finish' rest', rest'.head? = rest.head? →
        (expression finish' r (used ++ rest')).Gives x rest' := by
  obtain ⟨t, more, left, middle, rfl, hleft, hx⟩ := gives_expression.mp h
  obtain ⟨used, hmore, hword, hsame⟩ :=
    (OperandAt.of_gives hleft).reads (ih more (Nat.lt_succ_self _)).1
  obtain ⟨used', hmiddle, hmem', hsame'⟩ :=
    ((ih middle hleft.length_lt).2 r left _ hword).reads hx
  subst hmiddle
  refine ⟨t :: (used ++ used'), by simp [hmore], ?_, fun finish' rest' hhead => ?_⟩
  · rw [List.map_cons, List.map_append]
    exact hmem'
  · rw [List.cons_append, List.append_assoc]
    exact gives_expression.mpr ⟨t, _, left, used' ++ rest', rfl,
      (hsame finish' _ (head?_append_congr hhead used')).gives, hsame' finish' rest' hhead⟩

theorem expression_blames {before : List Lexeme} (hbefore : Takes before Grammar.expression)
    (h : (expression finish r ts).Fails e) :
    Blame (fun finish => expression finish r) finish before ts e := by
  obtain ⟨rfl, rfl⟩ | ⟨t, more, rfl, hoperand | ⟨left, middle, hleft, hlater⟩⟩ :=
    fails_expression.mp h
  · refine .finish ?_
    rw [List.map_nil, List.append_nil]
    exact hbefore.viable (Grammar.Expression.number 0)
  · exact (OperandFails.of_fails hoperand).blame (ih more (Nat.lt_succ_self _)).1 hbefore
  · obtain ⟨used, hmore, hword, hsame⟩ :=
      (OperandAt.of_gives hleft).reads (ih more (Nat.lt_succ_self _)).1
    have hbehind : Takes (before ++ (t :: used).map Token.lexeme)
        (Grammar.continues (t.lexeme :: used.map Token.lexeme)) := by
      refine hbefore.of_extends fun w hw => ⟨[], ?_⟩
      rw [List.append_nil]
      exact hw
    have hblame := ((ih middle hleft.length_lt).2 r left _ hword).blames hbehind hlater
    subst hmore
    refine hblame.lift fun finish' ts' e' hhead h => ?_
    exact fails_expression.mpr
      (.inr ⟨t, used ++ ts', rfl, .inr ⟨left, ts', (hsame finish' ts' hhead).gives, h⟩⟩)

end Step

theorem expression_and_continuation_accountable (ts : List Token) :
    ExpressionsAccountable ts ∧ ContinuationsAccountable ts := by
  -- by strong induction on the number of tokens
  obtain ⟨n, hn⟩ : ∃ n, n = ts.length := ⟨_, rfl⟩
  induction n using Nat.strongRecOn generalizing ts with
  | ind n ih =>
    subst hn
    have ih' : ∀ ts' : List Token, ts'.length < ts.length →
        ExpressionsAccountable ts' ∧ ContinuationsAccountable ts' :=
      fun ts' h => ih ts'.length h ts' rfl
    refine ⟨fun r => ⟨expression_reads ih', expression_blames ih'⟩, fun r left u hu => ?_⟩
    exact ⟨continuation_reads ih' hu, continuation_blames ih' hu⟩

/-- Reading an expression is accountable for the rule of expressions,
whatever the power is. -/
theorem expression_accountableOn (r : Int) (ts : List Token) :
    AccountableOn (fun finish => expression finish r) Grammar.expression ts :=
  (expression_and_continuation_accountable ts).1 r

end ShapeScript
