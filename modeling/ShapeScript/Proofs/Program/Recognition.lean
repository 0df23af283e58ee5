/-
ShapeScript.Proofs.Program.Recognition — the readers of declarations accept
exactly their grammar rules.

`Recognises` ties a reader to a rule: what it reads is a word of the rule
and is what its result writes, and wherever a word of the rule stands in
front of tokens that may follow it the reader succeeds. Every reader gets
one such theorem, put together from those of the readers it calls, and
`parseProgram_iff` is the one for whole token lists.

What may follow matters only behind an expression, which would go on with
an operator, and behind a parameter without default, which would take an
equals sign. In a program both are followed by a comma or a closing
parenthesis.
-/
import ShapeScript.Program.Parser
import ShapeScript.Proofs.Expr.Precedence
import ShapeScript.Proofs.Program.Grammar

namespace ShapeScript

open scoped Computability

variable (finish : Position) {α : Type}

/-- The reader accepts the words of `language` in front of tokens for which
`follow` holds, and its results write what was read. -/
structure Recognises {bound : List Token → Nat} (read : (ts : List Token) → Reading α (bound ts))
    (language : Language Lexeme) (write : α → List Lexeme) (follow : List Token → Prop) :
    Prop where
  sound : ∀ {ts a rest}, (read ts).Gives a rest → Spells ts (write a) rest ∧ write a ∈ language
  complete : ∀ {ts w rest}, Spells ts w rest → w ∈ language → follow rest →
    ∃ a, (read ts).Gives a rest

/-! ## Marks -/

theorem kind_eq_iff {l m : Lexeme} (hm : m.kind ≠ .number ∧ m.kind ≠ .identifier ∧ m.kind ≠ .string) :
    l.kind = m.kind ↔ l = m := by
  constructor
  · intro h
    cases m <;> cases l <;> simp_all [Lexeme.kind]
  · intro h
    rw [h]

/-- A mark is expected by its kind and found as the one lexeme of it. -/
theorem gives_expect_mark {finish : Position} {m : Lexeme} {what : String} {ts : List Token} {t : Token}
    {rest : List Token}
    (hm : m.kind ≠ .number ∧ m.kind ≠ .identifier ∧ m.kind ≠ .string) :
    (expect finish m.kind what ts).Gives t rest ↔ ts = t :: rest ∧ t.lexeme = m := by
  rw [gives_expect, Token.kind, kind_eq_iff hm]

/-- A mark that is there is read, whatever is said to be wanted. -/
theorem expect_gives {finish : Position} {m : Lexeme} {t : Token} (ht : t.lexeme = m)
    (what : String) (rest : List Token) :
    (expect finish m.kind what (t :: rest)).Gives t rest :=
  gives_expect.mpr ⟨rfl, congrArg Lexeme.kind ht⟩

theorem Spells.name_iff {n : String} {ts : List Token} {w : List Lexeme} {rest : List Token} :
    Spells ts (.identifier n :: w) rest ↔
      ∃ span more, ts = ⟨.identifier n, span⟩ :: more ∧ Spells more w rest := by
  rw [Spells.cons_iff]
  constructor
  · intro h
    obtain ⟨⟨_, span⟩, more, rfl, rfl, h⟩ := h
    exact ⟨span, more, rfl, h⟩
  · intro h
    obtain ⟨span, more, rfl, h⟩ := h
    exact ⟨_, more, rfl, rfl, h⟩

theorem nextIs_cons {kind : LexemeKind} {t : Token} {ts : List Token} :
    nextIs kind (t :: ts) = true ↔ t.kind = kind := by
  rw [nextIs, beq_iff_eq]

theorem nextIs_eq_false {m : Lexeme}
    (hm : m.kind ≠ .number ∧ m.kind ≠ .identifier ∧ m.kind ≠ .string) {ts : List Token}
    (h : ∀ span more, ts ≠ ⟨m, span⟩ :: more) : nextIs m.kind ts = false := by
  cases ts with
  | nil => rfl
  | cons t more =>
    rw [Bool.eq_false_iff]
    intro hk
    obtain ⟨lexeme, span⟩ := t
    have ht : lexeme = m := (kind_eq_iff hm).mp (nextIs_cons.mp hk)
    exact h span more (by rw [ht])

/-- What may follow an item of a list. -/
def ItemEnd (rest : List Token) : Prop :=
  ∃ t more, rest = t :: more ∧ (t.lexeme = .comma ∨ t.lexeme = .closeParen)

theorem ItemEnd.bindsTighter_eq {rest : List Token} (h : ItemEnd rest) :
    bindsTighter 0 rest = false := by
  obtain ⟨t, more, rfl, ht⟩ := h
  rw [bindsTighter_cons]
  cases ht with
  | inl ht => rw [ht]; decide
  | inr ht => rw [ht]; decide

/-! ## Expressions and arguments -/

/-- The lexemes of a tree are read as that tree where no operator follows. -/
theorem expression_gives {e : Expr} (hwell : e.WellFormed) (hfree : e.NamesFree)
    {ts rest : List Token} (hspell : Spells ts e.lexemes rest)
    (hrest : bindsTighter 0 rest = false) :
    ∃ e', e'.SameOutline e ∧ (expression finish 0 ts).Gives e' rest := by
  have hstop : ∀ {q : Int}, 0 ≤ q → bindsTighter q rest = false :=
    fun hq => bindsTighter_mono hq hrest
  have hfit : e.Fits 0 rest :=
    ⟨hwell, hfree, fun o _ => o.power_pos, fun o _ => hstop (Int.le_of_lt o.power_pos)⟩
  exact expression_complete finish hspell hfit hrest (hstop (by decide))

theorem expression_recognises :
    Recognises (expression finish 0) Grammar.expression Expr.lexemes
      (fun rest => bindsTighter 0 rest = false) where
  sound := by
    intro ts e rest h
    obtain ⟨hspell, hfit, _⟩ := expression_sound h
    exact ⟨hspell, Grammar.expression_iff.mpr ⟨e, hfit.wellFormed, hfit.namesFree, rfl⟩⟩
  complete := by
    intro ts w rest hspell hw hrest
    obtain ⟨e, hwell, hfree, rfl⟩ := Grammar.expression_iff.mp hw
    obtain ⟨e', _, h⟩ := expression_gives finish hwell hfree hspell hrest
    exact ⟨e', h⟩

theorem readArgument_recognises :
    Recognises (readArgument finish) Grammar.argument Argument.lexemes ItemEnd where
  sound := by
    intro ts a rest h
    obtain ⟨s, middle, hname, h⟩ := Reading.gives_thenRead.mp h
    obtain ⟨t, behind, hcolon, h⟩ := Reading.gives_thenRead.mp h
    obtain ⟨e, he, rfl⟩ := Reading.gives_map.mp h
    obtain ⟨rfl, hfree⟩ := gives_readName.mp hname
    obtain ⟨rfl, ht⟩ := (gives_expect_mark (m := .colon) (by decide)).mp hcolon
    obtain ⟨hspell, hmem⟩ := (expression_recognises finish).sound he
    constructor
    · rw [Argument.lexemes, ← ht]
      exact hspell.cons.cons
    · exact Grammar.mem_argument.mpr ⟨s.name, e.lexemes, hfree, hmem, rfl⟩
  complete := by
    intro ts w rest hspell hw hrest
    obtain ⟨n, v, hfree, hv, rfl⟩ := Grammar.mem_argument.mp hw
    obtain ⟨span, middle, rfl, hmiddle⟩ := Spells.name_iff.mp hspell
    obtain ⟨t, behind, rfl, ht, hbehind⟩ := Spells.cons_iff.mp hmiddle
    obtain ⟨e, he⟩ := (expression_recognises finish).complete hbehind hv hrest.bindsTighter_eq
    exact ⟨_, (readName_gives hfree span _).thenRead ((expect_gives ht _ _).thenRead (he.map _))⟩

/-! ## Lists -/

section Lists

variable {item : (ts : List Token) → Reading α ts.length} {language : Language Lexeme}
  {write : α → List Lexeme}

theorem gives_readSeparated {ts : List Token} {as : List α} {rest : List Token} :
    (readSeparated item ts).Gives as rest ↔
      ∃ a middle, (item ts).Gives a middle ∧
        ((nextIs .comma middle = false ∧ as = [a] ∧ rest = middle) ∨
          ∃ t more as', middle = t :: more ∧ t.lexeme = .comma ∧
            (readSeparated item more).Gives as' rest ∧ as = a :: as') := by
  rw [readSeparated, Reading.gives_andThen]
  constructor
  · intro h
    obtain ⟨a, middle, short, ha, h⟩ := h
    refine ⟨a, middle, ha, ?_⟩
    split at h
    · rename_i span more short'
      obtain ⟨as', has, rfl⟩ := Reading.gives_map.mp (Reading.gives_below.mp h)
      exact .inr ⟨_, more, as', rfl, rfl, has, rfl⟩
    · rename_i middle' short' hne
      obtain ⟨rfl, rfl⟩ := Reading.gives_ok.mp h
      refine .inl ⟨nextIs_eq_false (m := .comma) (by decide) ?_, rfl, rfl⟩
      rintro span more rfl
      exact hne span more short rfl HEq.rfl
  · intro h
    obtain ⟨a, middle, ha, h⟩ := h
    refine ⟨a, middle, ha.length_lt, ha, ?_⟩
    cases h with
    | inl h =>
      obtain ⟨hk, rfl, rfl⟩ := h
      split
      · rw [nextIs] at hk
        cases hk
      · exact Reading.gives_ok.mpr ⟨rfl, rfl⟩
    | inr h =>
      obtain ⟨⟨lexeme, span⟩, more, as', rfl, ht, has, rfl⟩ := h
      obtain rfl : lexeme = .comma := ht
      exact Reading.gives_below.mpr (Reading.gives_map.mpr ⟨as', has, rfl⟩)

theorem readSeparated_ne_nil {ts : List Token} {as : List α} {rest : List Token}
    (h : (readSeparated item ts).Gives as rest) : as ≠ [] := by
  obtain ⟨a, middle, _, ⟨_, rfl, _⟩ | ⟨_, _, as', _, _, _, rfl⟩⟩ := gives_readSeparated.mp h
  · exact List.cons_ne_nil a []
  · exact List.cons_ne_nil a as'

theorem readSeparated_recognises (h : Recognises item language write ItemEnd) :
    Recognises (readSeparated item) (Grammar.separated language)
      (fun as => [Lexeme.comma].intercalate (as.map write))
      (fun rest => ∃ t more, rest = t :: more ∧ t.lexeme = .closeParen) where
  sound := by
    intro ts as rest has
    induction as generalizing ts with
    | nil => exact absurd rfl (readSeparated_ne_nil has)
    | cons a as' ih =>
      rw [Grammar.separated_eq]
      obtain ⟨_, middle, ha, hmore⟩ := gives_readSeparated.mp has
      cases hmore with
      | inl hlast =>
        obtain ⟨_, hlast, rfl⟩ := hlast
        obtain ⟨rfl, rfl⟩ := List.cons.inj hlast
        obtain ⟨hspell, hmem⟩ := h.sound ha
        rw [List.map_cons, List.map_nil, List.intercalate_singleton]
        exact ⟨hspell, (Language.mem_add _ _ _).mpr (.inl hmem)⟩
      | inr hcomma =>
        obtain ⟨t, more, as'', rfl, ht, has', hcons⟩ := hcomma
        obtain ⟨rfl, rfl⟩ := List.cons.inj hcons
        obtain ⟨hspell, hmem⟩ := h.sound ha
        obtain ⟨hspell', hmem'⟩ := ih has'
        have hne : as'.map write ≠ [] :=
          fun hnil => readSeparated_ne_nil has' (List.map_eq_nil_iff.mp hnil)
        have hmore := hspell'.cons (t := t)
        rw [ht] at hmore
        rw [List.map_cons, List.intercalate_cons_of_ne_nil hne, List.append_assoc,
          List.singleton_append]
        constructor
        · exact hspell.append hmore
        · exact (Language.mem_add _ _ _).mpr (.inr (Language.append_mem_mul hmem
            (Grammar.mem_mark_mul.mpr ⟨_, hmem', rfl⟩)))
  complete := by
    intro ts w rest hspell hw hclose
    obtain ⟨v, hv, u, hu, rfl⟩ := Language.mem_mul.mp hw
    obtain ⟨words, rfl, hwords⟩ := Language.mem_kstar.mp hu
    clear hw hu
    induction words generalizing v ts with
    | nil =>
      obtain ⟨t, more, rfl, ht⟩ := hclose
      rw [List.flatten_nil, List.append_nil] at hspell
      obtain ⟨a, ha⟩ := h.complete hspell hv ⟨t, more, rfl, .inr ht⟩
      refine ⟨[a], gives_readSeparated.mpr ⟨a, _, ha, .inl ⟨?_, rfl, rfl⟩⟩⟩
      rw [nextIs, Token.kind, ht]
      rfl
    | cons x words ih =>
      obtain ⟨x', hx', rfl⟩ := Grammar.mem_mark_mul.mp (hwords x List.mem_cons_self)
      obtain ⟨middle, hfirst, hmore⟩ := Spells.append_iff.mp hspell
      obtain ⟨t, more, rfl, ht, hmore'⟩ := Spells.cons_iff.mp hmore
      obtain ⟨a, ha⟩ := h.complete hfirst hv ⟨t, more, rfl, .inl ht⟩
      obtain ⟨as, has⟩ := ih x' hx' (fun y hy => hwords y (List.mem_cons_of_mem _ hy)) hmore'
      exact ⟨a :: as, gives_readSeparated.mpr
        ⟨a, _, ha, .inr ⟨t, more, as, rfl, ht, has, rfl⟩⟩⟩

/-- A list in parentheses, from behind the opening one. No item starts
with a closing parenthesis, so looking at the next token tells whether
there are items. -/
theorem readEnclosed_recognises (h : Recognises item language write ItemEnd)
    (hname : ∀ w ∈ language, ∃ n v, w = .identifier n :: v) (closing : String) :
    Recognises (readEnclosed finish item closing)
      {w | ∃ v, (v = [] ∨ v ∈ Grammar.separated language) ∧ w = v ++ [.closeParen]}
      (fun as => [Lexeme.comma].intercalate (as.1.map write) ++ [.closeParen])
      (fun _ => True) where
  sound := by
    intro ts as rest has
    rw [readEnclosed] at has
    split at has
    · obtain ⟨t, hread, rfl⟩ := Reading.gives_map.mp has
      obtain ⟨rfl, ht⟩ := (gives_expect_mark (m := .closeParen) (by decide)).mp hread
      refine ⟨?_, [], .inl rfl, rfl⟩
      rw [← ht]
      exact Spells.nil.cons
    · obtain ⟨items, middle, hitems, hclose⟩ := Reading.gives_thenRead.mp has
      obtain ⟨t, hread, rfl⟩ := Reading.gives_map.mp hclose
      obtain ⟨rfl, ht⟩ := (gives_expect_mark (m := .closeParen) (by decide)).mp hread
      obtain ⟨hspell, hmem⟩ := (readSeparated_recognises h).sound hitems
      refine ⟨?_, _, .inr hmem, rfl⟩
      rw [← ht]
      exact hspell.snoc
  complete := by
    intro ts w rest hspell hw _
    obtain ⟨v, hv, rfl⟩ := hw
    obtain ⟨middle, hitems, hclose⟩ := Spells.append_iff.mp hspell
    obtain ⟨t, more, rfl, ht, hmore⟩ := Spells.cons_iff.mp hclose
    obtain rfl := Spells.nil_iff.mp hmore
    rw [readEnclosed]
    cases hv with
    | inl hv =>
      subst hv
      obtain rfl := Spells.nil_iff.mp hitems
      have hnext : nextIs .closeParen (t :: more) = true :=
        nextIs_cons.mpr (congrArg Lexeme.kind ht)
      rw [if_pos hnext]
      exact ⟨_, (expect_gives ht closing more).map _⟩
    | inr hv =>
      have hnext : ¬ nextIs .closeParen ts = true := by
        obtain ⟨u, hu, u', _, rfl⟩ := Language.mem_mul.mp hv
        obtain ⟨n, u'', rfl⟩ := hname u hu
        obtain ⟨span, ts', rfl, _⟩ := Spells.name_iff.mp hitems
        rw [nextIs_cons]
        intro hk
        cases hk
      obtain ⟨items, hread⟩ := (readSeparated_recognises h).complete hitems hv ⟨t, more, rfl, ht⟩
      rw [if_neg hnext]
      exact ⟨_, hread.thenRead ((expect_gives ht closing more).map _)⟩

end Lists

/-! ## Calls and blocks -/

theorem readCall_recognises :
    Recognises (readCall finish) Grammar.call Call.lexemes (fun _ => True) where
  sound := by
    intro ts c rest h
    obtain ⟨s, middle, hname, h⟩ := Reading.gives_thenRead.mp h
    obtain ⟨t, behind, hopen, h⟩ := Reading.gives_thenRead.mp h
    obtain ⟨as, has, rfl⟩ := Reading.gives_map.mp h
    obtain ⟨rfl, hfree⟩ := gives_readName.mp hname
    obtain ⟨rfl, ht⟩ := (gives_expect_mark (m := .openParen) (by decide)).mp hopen
    obtain ⟨hspell, v, hv, hw⟩ :=
      (readEnclosed_recognises finish (readArgument_recognises finish)
        (fun _ => Grammar.starts_of_mem_argument) _).sound has
    constructor
    · rw [Call.lexemes, enclosedLexemes, ← ht]
      exact hspell.cons.cons
    · exact Grammar.mem_name_mul.mpr ⟨s.name, _, hfree,
        Grammar.mem_enclosed.mpr ⟨v, hv, congrArg _ hw⟩, rfl⟩
  complete := by
    intro ts w rest hspell hw _
    obtain ⟨n, v, hfree, hv, rfl⟩ := Grammar.mem_name_mul.mp hw
    obtain ⟨u, hu, rfl⟩ := Grammar.mem_enclosed.mp hv
    obtain ⟨span, middle, rfl, hmiddle⟩ := Spells.name_iff.mp hspell
    obtain ⟨t, behind, rfl, ht, hbehind⟩ := Spells.cons_iff.mp hmiddle
    obtain ⟨as, has⟩ :=
      (readEnclosed_recognises finish (readArgument_recognises finish)
        (fun _ => Grammar.starts_of_mem_argument) "')' to close the call").complete
          hbehind ⟨u, hu, rfl⟩ trivial
    exact ⟨_, (readName_gives hfree span _).thenRead
      ((expect_gives ht _ _).thenRead (has.map _))⟩

theorem gives_readCalls {ts : List Token} {cs : List Call} {t : Token} {rest : List Token} :
    (readCalls finish ts).Gives (cs, t) rest ↔
      (cs = [] ∧ ts = t :: rest ∧ t.lexeme = .closeBrace) ∨
        ∃ c middle cs', nextIs .closeBrace ts = false ∧ (readCall finish ts).Gives c middle ∧
          (readCalls finish middle).Gives (cs', t) rest ∧ cs = c :: cs' := by
  cases ts with
  | nil =>
    rw [readCalls]
    constructor
    · intro h
      exact absurd h Reading.not_gives_error
    · intro h
      obtain ⟨_, h, _⟩ | ⟨_, _, _, _, h, _⟩ := h
      · cases h
      · exact absurd h.length_lt (Nat.not_lt_zero _)
  | cons u more =>
    have hkind : u.kind = .closeBrace ↔ u.lexeme = .closeBrace :=
      kind_eq_iff (m := .closeBrace) (by decide)
    rw [readCalls]
    by_cases hu : u.kind = .closeBrace
    · rw [if_pos hu, Reading.gives_ok]
      constructor
      · intro h
        obtain ⟨hpair, rfl⟩ := h
        obtain ⟨rfl, rfl⟩ := Prod.mk.inj hpair
        exact .inl ⟨rfl, rfl, hkind.mp hu⟩
      · intro h
        obtain ⟨rfl, h, _⟩ | ⟨_, _, _, h, _⟩ := h
        · obtain ⟨rfl, rfl⟩ := List.cons.inj h
          exact ⟨rfl, rfl⟩
        · rw [nextIs_cons.mpr hu] at h
          cases h
    · have hnext : nextIs .closeBrace (u :: more) = false :=
        Bool.eq_false_iff.mpr (fun h => hu (nextIs_cons.mp h))
      rw [if_neg hu, Reading.gives_andThen]
      constructor
      · intro h
        obtain ⟨c, middle, short, hc, h⟩ := h
        obtain ⟨⟨cs', t'⟩, hcs, hpair⟩ := Reading.gives_map.mp (Reading.gives_below.mp h)
        obtain ⟨rfl, rfl⟩ := Prod.mk.inj hpair
        exact .inr ⟨c, middle, cs', hnext, hc, hcs, rfl⟩
      · intro h
        obtain ⟨_, h, ht⟩ | ⟨c, middle, cs', _, hc, hcs, rfl⟩ := h
        · obtain ⟨rfl, rfl⟩ := List.cons.inj h
          exact absurd (hkind.mpr ht) hu
        · exact ⟨c, middle, hc.length_lt, hc, Reading.gives_below.mpr (hcs.map _)⟩

theorem readCalls_recognises :
    Recognises (readCalls finish) (Grammar.call∗ * Grammar.mark .closeBrace)
      (fun cs => cs.1.flatMap Call.lexemes ++ [.closeBrace]) (fun _ => True) where
  sound := by
    intro ts cs rest h
    obtain ⟨cs, t⟩ := cs
    rw [Grammar.mem_mul_mark]
    induction cs generalizing ts with
    | nil =>
      obtain ⟨_, rfl, ht⟩ | ⟨_, _, _, _, _, _, hnil⟩ := (gives_readCalls finish).mp h
      · refine ⟨?_, [], Language.nil_mem_kstar _, rfl⟩
        rw [← ht]
        exact Spells.nil.cons
      · cases hnil
    | cons c cs ih =>
      obtain ⟨hnil, _⟩ | ⟨c', middle, cs', _, hc, hcs, hcons⟩ := (gives_readCalls finish).mp h
      · cases hnil
      · obtain ⟨rfl, rfl⟩ := List.cons.inj hcons
        obtain ⟨hspell, hmem⟩ := (readCall_recognises finish).sound hc
        obtain ⟨hspells, u, hu, hw⟩ := ih hcs
        refine ⟨?_, c.lexemes ++ u, ?_, ?_⟩
        · rw [List.flatMap_cons, List.append_assoc]
          exact hspell.append hspells
        · exact Grammar.mem_kstar_iff.mpr (.inr ⟨_, hmem, u, hu, rfl⟩)
        · rw [List.flatMap_cons, List.append_assoc, List.append_assoc]
          exact congrArg _ hw
  complete := by
    intro ts w rest hspell hw _
    obtain ⟨v, hv, rfl⟩ := Grammar.mem_mul_mark.mp hw
    obtain ⟨words, rfl, hwords⟩ := Language.mem_kstar.mp hv
    clear hw hv
    induction words generalizing ts with
    | nil =>
      obtain ⟨t, more, rfl, ht, hmore⟩ := Spells.cons_iff.mp hspell
      obtain rfl := Spells.nil_iff.mp hmore
      exact ⟨([], t), (gives_readCalls finish).mpr (.inl ⟨rfl, rfl, ht⟩)⟩
    | cons x words ih =>
      have hx : x ∈ Grammar.call := hwords x List.mem_cons_self
      rw [List.flatten_cons, List.append_assoc] at hspell
      obtain ⟨middle, hfirst, hmore⟩ := Spells.append_iff.mp hspell
      obtain ⟨c, hc⟩ := (readCall_recognises finish).complete hfirst hx trivial
      obtain ⟨⟨cs, t⟩, hcs⟩ := ih (fun y hy => hwords y (List.mem_cons_of_mem _ hy)) hmore
      refine ⟨(c :: cs, t), (gives_readCalls finish).mpr
        (.inr ⟨c, middle, cs, ?_, hc, hcs, rfl⟩)⟩
      obtain ⟨n, x', rfl⟩ := Grammar.starts_of_mem_name_mul hx
      obtain ⟨span, ts', rfl, _⟩ := Spells.name_iff.mp hfirst
      rfl

theorem readBlock_recognises :
    Recognises (readBlock finish) Grammar.block Block.lexemes (fun _ => True) where
  sound := by
    intro ts b rest h
    obtain ⟨t, middle, hopen, h⟩ := Reading.gives_thenRead.mp h
    obtain ⟨cs, hcs, rfl⟩ := Reading.gives_map.mp h
    obtain ⟨rfl, ht⟩ := (gives_expect_mark (m := .openBrace) (by decide)).mp hopen
    obtain ⟨hspell, hmem⟩ := (readCalls_recognises finish).sound hcs
    constructor
    · rw [Block.lexemes, ← ht]
      exact hspell.cons
    · rw [Grammar.block, mul_assoc]
      exact Grammar.mem_mark_mul.mpr ⟨_, hmem, rfl⟩
  complete := by
    intro ts w rest hspell hw _
    rw [Grammar.block, mul_assoc] at hw
    obtain ⟨v, hv, rfl⟩ := Grammar.mem_mark_mul.mp hw
    obtain ⟨t, middle, rfl, ht, hmiddle⟩ := Spells.cons_iff.mp hspell
    obtain ⟨cs, hcs⟩ := (readCalls_recognises finish).complete hmiddle hv trivial
    exact ⟨_, (expect_gives ht _ _).thenRead (hcs.map _)⟩

/-! ## Parameters and shapes -/

theorem ItemEnd.nextIs_assign {rest : List Token} (h : ItemEnd rest) :
    nextIs .assign rest = false := by
  obtain ⟨t, more, rfl, ht⟩ := h
  cases ht with
  | inl ht => rw [nextIs, Token.kind, ht]; rfl
  | inr ht => rw [nextIs, Token.kind, ht]; rfl

theorem gives_readParameter {ts : List Token} {p : Parameter} {rest : List Token} :
    (readParameter finish ts).Gives p rest ↔
      ∃ s middle, (readName finish ts).Gives s middle ∧
        ((nextIs .assign middle = false ∧ p = ⟨s.name, none, s.span⟩ ∧ rest = middle) ∨
          ∃ t more e, middle = t :: more ∧ t.lexeme = .assign ∧
            (expression finish 0 more).Gives e rest ∧
            p = ⟨s.name, some e, ⟨s.span.start, e.span.finish⟩⟩) := by
  rw [readParameter, Reading.gives_andThen]
  constructor
  · intro h
    obtain ⟨s, middle, short, hs, h⟩ := h
    refine ⟨s, middle, hs, ?_⟩
    split at h
    · rename_i span more short'
      obtain ⟨e, he, rfl⟩ := Reading.gives_map.mp (Reading.gives_below.mp h)
      exact .inr ⟨_, more, e, rfl, rfl, he, rfl⟩
    · rename_i middle' short' hne
      obtain ⟨rfl, rfl⟩ := Reading.gives_ok.mp h
      refine .inl ⟨nextIs_eq_false (m := .assign) (by decide) ?_, rfl, rfl⟩
      rintro span more rfl
      exact hne span more short rfl HEq.rfl
  · intro h
    obtain ⟨s, middle, hs, h⟩ := h
    refine ⟨s, middle, hs.length_lt, hs, ?_⟩
    cases h with
    | inl h =>
      obtain ⟨hk, rfl, rfl⟩ := h
      split
      · rw [nextIs] at hk
        cases hk
      · exact Reading.gives_ok.mpr ⟨rfl, rfl⟩
    | inr h =>
      obtain ⟨⟨lexeme, span⟩, more, e, rfl, ht, he, rfl⟩ := h
      obtain rfl : lexeme = .assign := ht
      exact Reading.gives_below.mpr (he.map _)

theorem readParameter_recognises :
    Recognises (readParameter finish) Grammar.parameter Parameter.lexemes ItemEnd where
  sound := by
    intro ts p rest h
    obtain ⟨s, middle, hname, hmore⟩ := (gives_readParameter finish).mp h
    obtain ⟨rfl, hfree⟩ := gives_readName.mp hname
    rw [Grammar.mem_parameter]
    cases hmore with
    | inl hnone =>
      obtain ⟨_, rfl, rfl⟩ := hnone
      exact ⟨Spells.nil.cons, s.name, [], hfree, .inl rfl, rfl⟩
    | inr hsome =>
      obtain ⟨t, more, e, rfl, ht, he, rfl⟩ := hsome
      obtain ⟨hspell, hmem⟩ := (expression_recognises finish).sound he
      refine ⟨?_, s.name, _, hfree, .inr ⟨e.lexemes, hmem, rfl⟩, rfl⟩
      rw [Parameter.lexemes, ← ht]
      exact hspell.cons.cons
  complete := by
    intro ts w rest hspell hw hrest
    obtain ⟨n, v, hfree, hv, rfl⟩ := Grammar.mem_parameter.mp hw
    obtain ⟨span, middle, rfl, hmiddle⟩ := Spells.name_iff.mp hspell
    have hname : (readName finish (⟨.identifier n, span⟩ :: middle)).Gives ⟨n, span⟩ middle :=
      readName_gives hfree span middle
    cases hv with
    | inl hv =>
      subst hv
      obtain rfl := Spells.nil_iff.mp hmiddle
      exact ⟨_, (gives_readParameter finish).mpr
        ⟨_, _, hname, .inl ⟨hrest.nextIs_assign, rfl, rfl⟩⟩⟩
    | inr hv =>
      obtain ⟨u, hu, rfl⟩ := hv
      obtain ⟨t, more, rfl, ht, hmore⟩ := Spells.cons_iff.mp hmiddle
      obtain ⟨e, he⟩ := (expression_recognises finish).complete hmore hu hrest.bindsTighter_eq
      exact ⟨_, (gives_readParameter finish).mpr
        ⟨_, _, hname, .inr ⟨t, more, e, rfl, ht, he, rfl⟩⟩⟩

theorem gives_readKeyword {ts : List Token} {t : Token} {rest : List Token} :
    (readKeyword finish ts).Gives t rest ↔
      ts = t :: rest ∧ t.lexeme = .identifier shapeKeyword := by
  rw [readKeyword, Reading.gives_andThen]
  constructor
  · intro h
    obtain ⟨u, middle, short, hu, h⟩ := h
    split at h
    · rename_i n hn
      split at h
      · rename_i hshape
        obtain ⟨rfl, rfl⟩ := Reading.gives_ok.mp h
        exact ⟨gives_readToken.mp hu, by rw [hn, hshape]⟩
      · exact absurd h Reading.not_gives_failed
    · exact absurd h Reading.not_gives_failed
  · intro h
    obtain ⟨rfl, ht⟩ := h
    refine ⟨t, rest, Nat.lt_succ_self _, gives_readToken.mpr rfl, ?_⟩
    rw [ht]
    exact Reading.gives_ok.mpr ⟨rfl, rfl⟩

theorem readKeyword_gives {t : Token} (ht : t.lexeme = .identifier shapeKeyword)
    (rest : List Token) : (readKeyword finish (t :: rest)).Gives t rest :=
  (gives_readKeyword finish).mpr ⟨rfl, ht⟩

theorem readShape_recognises :
    Recognises (readShape finish) Grammar.shape Shape.lexemes (fun _ => True) where
  sound := by
    intro ts s rest h
    obtain ⟨keyword, afterKeyword, hkeyword, h⟩ := Reading.gives_thenRead.mp h
    obtain ⟨n, afterName, hname, h⟩ := Reading.gives_thenRead.mp h
    obtain ⟨t, afterOpen, hopen, h⟩ := Reading.gives_thenRead.mp h
    obtain ⟨ps, afterParameters, hps, h⟩ := Reading.gives_thenRead.mp h
    obtain ⟨b, hb, rfl⟩ := Reading.gives_map.mp h
    obtain ⟨rfl, hk⟩ := (gives_readKeyword finish).mp hkeyword
    obtain ⟨rfl, hfree⟩ := gives_readName.mp hname
    obtain ⟨rfl, ht⟩ := (gives_expect_mark (m := .openParen) (by decide)).mp hopen
    obtain ⟨hspell, v, hv, hw⟩ :=
      (readEnclosed_recognises finish (readParameter_recognises finish)
        (fun _ => Grammar.starts_of_mem_parameter) _).sound hps
    obtain ⟨hspellb, hmemb⟩ := (readBlock_recognises finish).sound hb
    constructor
    · rw [Shape.lexemes, enclosedLexemes, ← ht, ← hk]
      exact (hspell.cons.append hspellb).cons.cons
    · exact Grammar.mem_shape.mpr ⟨n.name, _, _, hfree,
        Grammar.mem_enclosed.mpr ⟨v, hv, congrArg _ hw⟩, hmemb, rfl⟩
  complete := by
    intro ts w rest hspell hw _
    obtain ⟨n, u, v, hfree, hu, hv, rfl⟩ := Grammar.mem_shape.mp hw
    obtain ⟨u', hu', rfl⟩ := Grammar.mem_enclosed.mp hu
    obtain ⟨keyword, afterKeyword, rfl, hk, h₁⟩ := Spells.cons_iff.mp hspell
    obtain ⟨span, afterName, rfl, h₂⟩ := Spells.name_iff.mp h₁
    obtain ⟨t, afterOpen, rfl, ht, h₃⟩ := Spells.cons_iff.mp h₂
    obtain ⟨afterParameters, hparameters, hblock⟩ := Spells.append_iff.mp h₃
    obtain ⟨ps, hps⟩ :=
      (readEnclosed_recognises finish (readParameter_recognises finish)
        (fun _ => Grammar.starts_of_mem_parameter) "')' to close the parameter list").complete
          hparameters ⟨u', hu', rfl⟩ trivial
    obtain ⟨b, hb⟩ := (readBlock_recognises finish).complete hblock hv trivial
    exact ⟨_, (readKeyword_gives finish hk _).thenRead ((readName_gives hfree span _).thenRead
      ((expect_gives ht _ _).thenRead (hps.thenRead (hb.map _))))⟩

/-! ## Programs -/

theorem gives_readShapes {ts : List Token} {shapes : List Shape} {rest : List Token} :
    (readShapes finish ts).Gives shapes rest ↔
      (shapes = [] ∧ ts = [] ∧ rest = []) ∨
        ∃ s middle shapes', ts ≠ [] ∧ (readShape finish ts).Gives s middle ∧
          (readShapes finish middle).Gives shapes' rest ∧ shapes = s :: shapes' := by
  cases ts with
  | nil =>
    rw [readShapes, Reading.gives_ok]
    constructor
    · intro h
      exact .inl ⟨h.1.symm, rfl, h.2.symm⟩
    · intro h
      obtain ⟨rfl, _, rfl⟩ | ⟨_, _, _, hne, _⟩ := h
      · exact ⟨rfl, rfl⟩
      · exact absurd rfl hne
  | cons t more =>
    rw [readShapes, Reading.gives_within, Reading.gives_andThen]
    constructor
    · intro h
      obtain ⟨s, middle, short, hs, h⟩ := h
      obtain ⟨shapes', hshapes, rfl⟩ := Reading.gives_map.mp (Reading.gives_within.mp h)
      exact .inr ⟨s, middle, shapes', List.cons_ne_nil t more, hs, hshapes, rfl⟩
    · intro h
      obtain ⟨_, h, _⟩ | ⟨s, middle, shapes', _, hs, hshapes, rfl⟩ := h
      · cases h
      · exact ⟨s, middle, hs.length_lt, hs, Reading.gives_within.mpr (hshapes.map _)⟩

/-- Shapes are read up to the end of the tokens. -/
theorem readShapes_recognises :
    Recognises (readShapes finish) Grammar.program (List.flatMap Shape.lexemes)
      (fun rest => rest = []) where
  sound := by
    intro ts shapes rest h
    induction shapes generalizing ts with
    | nil =>
      obtain ⟨_, rfl, rfl⟩ | ⟨_, _, _, _, _, _, hnil⟩ := (gives_readShapes finish).mp h
      · exact ⟨Spells.nil, Language.nil_mem_kstar _⟩
      · cases hnil
    | cons s shapes ih =>
      obtain ⟨hnil, _⟩ | ⟨s', middle, shapes', _, hs, hshapes, hcons⟩ :=
        (gives_readShapes finish).mp h
      · cases hnil
      · obtain ⟨rfl, rfl⟩ := List.cons.inj hcons
        obtain ⟨hspell, hmem⟩ := (readShape_recognises finish).sound hs
        obtain ⟨hspells, hmems⟩ := ih hshapes
        exact ⟨hspell.append hspells, Grammar.mem_kstar_iff.mpr (.inr ⟨_, hmem, _, hmems, rfl⟩)⟩
  complete := by
    intro ts w rest hspell hw hrest
    subst hrest
    obtain ⟨words, rfl, hwords⟩ := Language.mem_kstar.mp hw
    clear hw
    induction words generalizing ts with
    | nil =>
      obtain rfl := Spells.nil_iff.mp hspell
      exact ⟨[], (gives_readShapes finish).mpr (.inl ⟨rfl, rfl, rfl⟩)⟩
    | cons x words ih =>
      obtain ⟨middle, hfirst, hmore⟩ := Spells.append_iff.mp hspell
      have hx : x ∈ Grammar.shape := hwords x List.mem_cons_self
      obtain ⟨s, hs⟩ := (readShape_recognises finish).complete hfirst hx trivial
      obtain ⟨shapes, hshapes⟩ := ih (fun y hy => hwords y (List.mem_cons_of_mem _ hy)) hmore
      refine ⟨s :: shapes, (gives_readShapes finish).mpr
        (.inr ⟨s, middle, shapes, ?_, hs, hshapes, rfl⟩)⟩
      rintro rfl
      exact absurd hs.length_lt (Nat.not_lt_zero _)

/-- A reader of shapes leaves no token. -/
theorem readShapes_rest_eq_nil {ts : List Token} {shapes : List Shape} {rest : List Token}
    (h : (readShapes finish ts).Gives shapes rest) : rest = [] := by
  induction shapes generalizing ts with
  | nil =>
    obtain ⟨_, _, rfl⟩ | ⟨_, _, _, _, _, _, hnil⟩ := (gives_readShapes finish).mp h
    · rfl
    · cases hnil
  | cons s shapes ih =>
    obtain ⟨hnil, _⟩ | ⟨_, _, _, _, _, hshapes, hcons⟩ := (gives_readShapes finish).mp h
    · cases hnil
    · obtain ⟨_, rfl⟩ := List.cons.inj hcons
      exact ih hshapes

theorem parseProgram_eq_ok {ts : List Token} {p : Program} :
    parseProgram ts = .ok p ↔
      ∃ shapes, (readShapes (endOf ts) ts).Gives shapes [] ∧ p = ⟨shapes, endOf ts⟩ := by
  rw [parseProgram, Reading.result_eq_ok_iff]
  constructor
  · intro h
    obtain ⟨rest, h⟩ := h
    obtain ⟨shapes, hshapes, rfl⟩ := Reading.gives_map.mp h
    obtain rfl := readShapes_rest_eq_nil _ hshapes
    exact ⟨shapes, hshapes, rfl⟩
  · intro h
    obtain ⟨shapes, hshapes, rfl⟩ := h
    exact ⟨[], hshapes.map _⟩

/-- A program that is read writes the lexemes that it is read from. -/
theorem lexemes_of_parseProgram {ts : List Token} {p : Program} (hp : parseProgram ts = .ok p) :
    p.lexemes = ts.map Token.lexeme := by
  obtain ⟨shapes, hshapes, rfl⟩ := parseProgram_eq_ok.mp hp
  obtain ⟨hspell, -⟩ := (readShapes_recognises (endOf ts)).sound hshapes
  exact (Spells.iff_map_eq.mp hspell).symm

/-- A token list is a program exactly when its lexemes are derived from
the grammar, and the program that is read then writes those lexemes. -/
theorem parseProgram_iff (ts : List Token) :
    ((∃ p, parseProgram ts = .ok p) ↔ ts.map Token.lexeme ∈ Grammar.program) ∧
      ∀ p, parseProgram ts = .ok p → p.lexemes = ts.map Token.lexeme := by
  refine ⟨⟨?_, ?_⟩, fun p hp => lexemes_of_parseProgram hp⟩
  · intro h
    obtain ⟨p, hp⟩ := h
    obtain ⟨shapes, hshapes, rfl⟩ := parseProgram_eq_ok.mp hp
    obtain ⟨-, hmem⟩ := (readShapes_recognises (endOf ts)).sound hshapes
    rw [← lexemes_of_parseProgram hp]
    exact hmem
  · intro h
    obtain ⟨shapes, hshapes⟩ :=
      (readShapes_recognises (endOf ts)).complete (Spells.iff_map_eq.mpr rfl) h rfl
    exact ⟨_, parseProgram_eq_ok.mpr ⟨shapes, hshapes, rfl⟩⟩

end ShapeScript
