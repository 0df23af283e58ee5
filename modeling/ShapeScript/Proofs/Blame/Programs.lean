/-
ShapeScript.Proofs.Blame.Programs — parse errors are raised at the earliest
possible token.

Each reader of a declaration is accountable for its rule of the grammar,
put together from the readers it calls, and so is the reader of a program.
`parseProgram_blame` says what that comes to for a whole token list: up to
the token that an error blames there is the beginning of a program, and with
that token there is none; where the tokens run out, they are all the
beginning of a program; and a parenthesis is blamed as unbalanced where it
is the innermost one that is open, opens a grouping, and has a complete
expression behind it that is neither closed nor continued.
-/
import ShapeScript.Proofs.Blame.Expressions

namespace ShapeScript

open scoped Computability

open Grammar (Takes Viable)

variable {finish : Position} {ts : List Token} {e : ParseError}

/-! ## Words to go on with -/

namespace Grammar

theorem number_mem_expression : [.number 0] ∈ expression := Expression.number 0

/-- A list that was opened can be closed at once. -/
theorem closing_mem_enclosed (item : Language Lexeme) :
    [.closeParen] ∈ (1 + separated item) * mark .closeParen :=
  Language.append_mem_mul ((Language.mem_add _ _ _).mpr (.inl Language.nil_mem_one))
    (Set.mem_singleton _)

variable {L M : Language Lexeme} {u v : List Lexeme}

theorem append_mem_kstar (hu : u ∈ L) (hv : v ∈ L∗) : u ++ v ∈ L∗ :=
  mem_kstar_iff.mpr (.inr ⟨u, hu, v, hv, rfl⟩)

theorem mem_kstar_of_mem (hu : u ∈ L) : u ∈ L∗ := by
  rw [← List.append_nil u]
  exact append_mem_kstar hu (Language.nil_mem_kstar L)

/-- One word more in front of words with an end. -/
theorem append_mem_kstar_mul (hu : u ∈ L) (hv : v ∈ L∗ * M) : u ++ v ∈ L∗ * M := by
  obtain ⟨w, hw, x, hx, rfl⟩ := Language.mem_mul.mp hv
  rw [← List.append_assoc]
  exact Language.append_mem_mul (append_mem_kstar hu hw) hx

theorem mem_kstar_mul_of_mem (hv : v ∈ M) : v ∈ L∗ * M :=
  Language.append_mem_mul (Language.nil_mem_kstar L) hv

end Grammar

/-! ## Calls and blocks -/

/-- Behind its name an argument can always be completed, by a colon and a
number. -/
theorem readArgument_accountableOn (ts : List Token) :
    AccountableOn readArgument Grammar.argument ts := by
  have hcolon := fun ts => expect_accountableOn (m := .colon)
    "':' after the argument name, arguments look like `name: value`" (by decide) ts
  rw [Grammar.argument, mul_assoc]
  refine (readName_accountableOn ts).thenRead
    (Language.append_mem_mul (Set.mem_singleton _) Grammar.number_mem_expression) ?_
  intro name rest _
  refine (hcolon rest).thenRead Grammar.number_mem_expression ?_
  intro _ rest _
  exact (expression_accountableOn 0 rest).map _

theorem readCall_accountableOn (ts : List Token) : AccountableOn readCall Grammar.call ts := by
  rw [Grammar.call, Grammar.enclosed, mul_assoc]
  refine (readName_accountableOn ts).thenRead
    (Language.append_mem_mul (Set.mem_singleton _) (Grammar.closing_mem_enclosed _)) ?_
  intro name rest _
  refine (expect_accountableOn (m := .openParen) ("'(' after '" ++ name.name ++ "'") (by decide)
    rest).thenRead (Grammar.closing_mem_enclosed _) ?_
  intro _ rest _
  exact (readEnclosed_accountableOn readArgument_accountableOn "')' to close the call" rest).map _

/-- Reading calls fails at the end of the tokens, in a call, or behind one. -/
theorem fails_readCalls :
    (readCalls finish ts).Fails e ↔
      (ts = [] ∧ e = ⟨.unexpectedEnd, finish⟩) ∨
        ts ≠ [] ∧ nextIs .closeBrace ts = false ∧ ((readCall finish ts).Fails e ∨
          ∃ c middle, (readCall finish ts).Gives c middle ∧ (readCalls finish middle).Fails e) := by
  cases ts with
  | nil =>
    rw [readCalls, Reading.fails_error]
    constructor
    · rintro rfl
      exact .inl ⟨rfl, rfl⟩
    · rintro (⟨_, rfl⟩ | ⟨h, _⟩)
      · rfl
      · exact absurd rfl h
  | cons t more =>
    rw [readCalls]
    by_cases ht : t.kind = .closeBrace
    · rw [if_pos ht, nextIs_cons.mpr ht]
      simp
    · have hnext : nextIs .closeBrace (t :: more) = false := by
        rw [Bool.eq_false_iff, Ne, nextIs_cons]
        exact ht
      rw [if_neg ht, Reading.fails_andThen, hnext]
      constructor
      · rintro (h | ⟨c, middle, short, hc, h⟩)
        · exact .inr ⟨List.cons_ne_nil t more, rfl, .inl h⟩
        · exact .inr ⟨List.cons_ne_nil t more, rfl,
            .inr ⟨c, middle, hc, Reading.fails_map.mp (Reading.fails_below.mp h)⟩⟩
      · rintro (⟨h, _⟩ | ⟨_, _, h | ⟨c, middle, hc, h⟩⟩)
        · cases h
        · exact .inl h
        · exact .inr ⟨c, middle, hc.length_lt, hc,
            Reading.fails_below.mpr (Reading.fails_map.mpr h)⟩

theorem readCalls_accountableOn (ts : List Token) :
    AccountableOn readCalls (Grammar.call∗ * Grammar.mark .closeBrace) ts := by
  obtain ⟨n, hn⟩ : ∃ n, n = ts.length := ⟨_, rfl⟩
  induction n using Nat.strongRecOn generalizing ts with
  | ind n ih =>
    subst hn
    constructor
    · rintro finish ⟨cs, closing⟩ rest hcs
      obtain ⟨rfl, rfl, hclosing⟩ | ⟨c, middle, cs', hnext, hc, hcs', rfl⟩ :=
        (gives_readCalls finish).mp hcs
      · refine ⟨[closing], rfl, ?_, fun finish' rest' _ => ?_⟩
        · rw [List.map_singleton, hclosing]
          exact Grammar.mem_kstar_mul_of_mem (Set.mem_singleton _)
        · exact (gives_readCalls finish').mpr (.inl ⟨rfl, rfl, hclosing⟩)
      · obtain ⟨used, hts, hmem, hsame⟩ := (readCall_accountableOn ts).reads hc
        obtain ⟨used', hmiddle, hmem', hsame'⟩ :=
          (ih middle.length hc.length_lt middle rfl).reads hcs'
        subst hmiddle
        refine ⟨used ++ used', by rw [hts, List.append_assoc], ?_, fun finish' rest' hhead => ?_⟩
        · rw [List.map_append]
          exact Grammar.append_mem_kstar_mul hmem hmem'
        · have hbehind := head?_append_congr hhead used'
          rw [List.append_assoc]
          refine (gives_readCalls finish').mpr (.inr ⟨c, used' ++ rest', cs', ?_, ?_, ?_, rfl⟩)
          · rw [nextIs_congr (head?_append_congr hbehind used), ← hts, hnext]
          · exact hsame finish' _ hbehind
          · exact hsame' finish' rest' hhead
    · intro finish before e hbefore hfails
      obtain ⟨rfl, rfl⟩ | ⟨hne, hnext, hcall | ⟨c, middle, hc, hlater⟩⟩ :=
        fails_readCalls.mp hfails
      · refine .finish ?_
        rw [List.map_nil, List.append_nil]
        exact hbefore.viable (Grammar.mem_kstar_mul_of_mem (Set.mem_singleton _))
      · have hone : Takes before Grammar.call :=
          (hbefore.mul_left (Set.mem_singleton _)).mono fun w => Grammar.mem_kstar_of_mem
        refine ((readCall_accountableOn ts).blames hone hcall).first
          fun finish' ts' e' hhead h => ?_
        exact fails_readCalls.mpr
          (.inr ⟨ne_nil_congr hhead hne, (nextIs_congr hhead).trans hnext, .inl h⟩)
      · obtain ⟨used, hts, hmem, hsame⟩ := (readCall_accountableOn ts).reads hc
        have hmore : Takes (before ++ used.map Token.lexeme)
            (Grammar.call∗ * Grammar.mark .closeBrace) := by
          refine hbefore.of_extends fun w hw => ⟨[], ?_⟩
          rw [List.append_nil]
          exact Grammar.append_mem_kstar_mul hmem hw
        have hblame := (ih middle.length hc.length_lt middle rfl).blames hmore hlater
        rw [hts] at hne hnext ⊢
        refine hblame.lift fun finish' ts' e' hhead h => ?_
        have hhead' := head?_append_congr hhead used
        exact fails_readCalls.mpr (.inr ⟨ne_nil_congr hhead' hne,
          (nextIs_congr hhead').trans hnext, .inr ⟨c, ts', hsame finish' ts' hhead, h⟩⟩)

theorem readBlock_accountableOn (ts : List Token) : AccountableOn readBlock Grammar.block ts := by
  rw [Grammar.block, mul_assoc]
  refine (expect_accountableOn (m := .openBrace) "'\x7b' to open the shape body" (by decide)
    ts).thenRead (Grammar.mem_kstar_mul_of_mem (Set.mem_singleton _)) ?_
  intro opening rest _
  exact (readCalls_accountableOn rest).map _

/-! ## Parameters and shapes -/

/-- A parameter fails in its name or in its default. -/
theorem fails_readParameter :
    (readParameter finish ts).Fails e ↔
      (readName finish ts).Fails e ∨
        ∃ s t more, (readName finish ts).Gives s (t :: more) ∧ t.lexeme = .assign ∧
          (expression finish 0 more).Fails e := by
  rw [readParameter, Reading.fails_andThen]
  constructor
  · rintro (h | ⟨s, middle, short, hs, h⟩)
    · exact .inl h
    · right
      split at h
      · rename_i span more short'
        exact ⟨s, _, more, hs, rfl, Reading.fails_map.mp (Reading.fails_below.mp h)⟩
      · exact absurd h Reading.not_fails_ok
  · rintro (h | ⟨s, ⟨lexeme, span⟩, more, hs, ht, h⟩)
    · exact .inl h
    · obtain rfl : lexeme = .assign := ht
      exact .inr ⟨s, _, hs.length_lt, hs, Reading.fails_below.mpr (Reading.fails_map.mpr h)⟩

theorem readParameter_accountableOn (ts : List Token) :
    AccountableOn readParameter Grammar.parameter ts where
  reads := by
    intro finish p rest hp
    obtain ⟨s, middle, hs, hnone | hsome⟩ := (gives_readParameter finish).mp hp
    · obtain ⟨hassign, rfl, rfl⟩ := hnone
      obtain ⟨used, hts, hmem, hsame⟩ := (readName_accountableOn ts).reads hs
      refine ⟨used, hts, ?_, fun finish' rest' hhead => ?_⟩
      · have hword := Language.append_mem_mul hmem ((Language.mem_add _
          (Grammar.mark .assign * Grammar.expression) _).mpr (.inl Language.nil_mem_one))
        rwa [List.append_nil] at hword
      · exact (gives_readParameter finish').mpr ⟨s, rest', hsame finish' rest' hhead,
          .inl ⟨(nextIs_congr hhead).trans hassign, rfl, rfl⟩⟩
    · obtain ⟨t, more, x, rfl, ht, hx, rfl⟩ := hsome
      obtain ⟨used, hts, hmem, hsame⟩ := (readName_accountableOn ts).reads hs
      obtain ⟨used', rfl, hmem', hsame'⟩ := (expression_accountableOn 0 more).reads hx
      refine ⟨used ++ t :: used', by simp [hts], ?_, fun finish' rest' hhead => ?_⟩
      · rw [List.map_append, List.map_cons, ht]
        exact Language.append_mem_mul hmem ((Language.mem_add _ _ _).mpr
          (.inr (Grammar.mem_mark_mul.mpr ⟨_, hmem', rfl⟩)))
      · rw [List.append_assoc, List.cons_append]
        exact (gives_readParameter finish').mpr ⟨s, _, hsame finish' _ rfl,
          .inr ⟨t, _, x, rfl, ht, hsame' finish' rest' hhead, rfl⟩⟩
  blames := by
    intro finish before e hbefore hfails
    have hname : Takes before Grammar.name :=
      hbefore.mul_left ((Language.mem_add _ _ _).mpr (.inl Language.nil_mem_one))
    obtain hfirst | ⟨s, t, more, hs, ht, hx⟩ := fails_readParameter.mp hfails
    · refine ((readName_accountableOn ts).blames hname hfirst).first fun finish' ts' e' _ h => ?_
      exact fails_readParameter.mpr (.inl h)
    · obtain ⟨used, hts, hmem, hsame⟩ := (readName_accountableOn ts).reads hs
      have hvalue : Takes (before ++ (used ++ [t]).map Token.lexeme) Grammar.expression := by
        refine hbefore.of_extends fun w hw => ⟨[], ?_⟩
        rw [List.append_nil, List.map_append, List.map_singleton, ht, List.append_assoc]
        exact Language.append_mem_mul hmem ((Language.mem_add _ _ _).mpr
          (.inr (Grammar.mem_mark_mul.mpr ⟨w, hw, rfl⟩)))
      have hblame := (expression_accountableOn 0 more).blames hvalue hx
      have hsplit : ts = used ++ [t] ++ more := by simpa using hts
      rw [hsplit]
      refine hblame.lift fun finish' ts' e' _ h => ?_
      rw [List.append_assoc]
      exact fails_readParameter.mpr (.inr ⟨s, t, ts', hsame finish' _ rfl, ht, h⟩)

theorem readShape_accountableOn (ts : List Token) : AccountableOn readShape Grammar.shape ts := by
  have hbody : [.openBrace] ++ [.closeBrace] ∈ Grammar.block := by
    rw [Grammar.block, mul_assoc]
    exact Language.append_mem_mul (Set.mem_singleton _)
      (Grammar.mem_kstar_mul_of_mem (Set.mem_singleton _))
  have hparameters := Language.append_mem_mul
    (Grammar.closing_mem_enclosed Grammar.parameter) hbody
  have hopen := Language.append_mem_mul (Set.mem_singleton [Lexeme.openParen]) hparameters
  have hname := Language.append_mem_mul
    (show [Lexeme.identifier mainName] ∈ Grammar.name from ⟨mainName, by decide, rfl⟩) hopen
  have hrule : Grammar.shape = Grammar.mark (.identifier shapeKeyword) * (Grammar.name *
      (Grammar.mark .openParen * ((1 + Grammar.separated Grammar.parameter) *
        Grammar.mark .closeParen * Grammar.block))) := by
    simp only [Grammar.shape, Grammar.enclosed, mul_assoc]
  rw [hrule]
  refine (readKeyword_accountableOn ts).thenRead hname ?_
  intro keyword rest _
  refine (readName_accountableOn rest).thenRead hopen ?_
  intro name rest _
  refine (expect_accountableOn (m := .openParen) "'(' after the shape name" (by decide)
    rest).thenRead hparameters ?_
  intro _ rest _
  refine (readEnclosed_accountableOn readParameter_accountableOn
    "')' to close the parameter list" rest).thenRead hbody ?_
  intro parameters rest _
  exact (readBlock_accountableOn rest).map _

/-! ## Programs -/

theorem fails_readShapes :
    (readShapes finish ts).Fails e ↔
      ts ≠ [] ∧ ((readShape finish ts).Fails e ∨
        ∃ s middle, (readShape finish ts).Gives s middle ∧
          (readShapes finish middle).Fails e) := by
  cases ts with
  | nil =>
    rw [readShapes]
    constructor
    · intro h
      exact absurd h Reading.not_fails_ok
    · rintro ⟨h, _⟩
      exact absurd rfl h
  | cons t more =>
    rw [readShapes, Reading.fails_within, Reading.fails_andThen]
    constructor
    · rintro (h | ⟨s, middle, short, hs, h⟩)
      · exact ⟨List.cons_ne_nil t more, .inl h⟩
      · exact ⟨List.cons_ne_nil t more, .inr ⟨s, middle, hs,
          Reading.fails_map.mp (Reading.fails_within.mp h)⟩⟩
    · rintro ⟨_, h | ⟨s, middle, hs, h⟩⟩
      · exact .inl h
      · exact .inr ⟨s, middle, hs.length_lt, hs,
          Reading.fails_within.mpr (Reading.fails_map.mpr h)⟩

/-- Behind the beginning of a program that takes shapes, the errors of
reading shapes are blamed rightly. -/
theorem readShapes_blames {before : List Lexeme} (hbefore : Takes before Grammar.program)
    (hfails : (readShapes finish ts).Fails e) : Blame readShapes finish before ts e := by
  obtain ⟨n, hn⟩ : ∃ n, n = ts.length := ⟨_, rfl⟩
  induction n using Nat.strongRecOn generalizing ts before with
  | ind n ih =>
    subst hn
    obtain ⟨hne, hshape | ⟨s, middle, hs, hlater⟩⟩ := fails_readShapes.mp hfails
    · have hone : Takes before Grammar.shape := hbefore.mono fun w => Grammar.mem_kstar_of_mem
      refine ((readShape_accountableOn ts).blames hone hshape).first
        fun finish' ts' e' hhead h => ?_
      exact fails_readShapes.mpr ⟨ne_nil_congr hhead hne, .inl h⟩
    · obtain ⟨used, hts, hmem, hsame⟩ := (readShape_accountableOn ts).reads hs
      have hmore : Takes (before ++ used.map Token.lexeme) Grammar.program := by
        refine hbefore.of_extends fun w hw => ⟨[], ?_⟩
        rw [List.append_nil]
        exact Grammar.append_mem_kstar hmem hw
      have hblame := ih middle.length hs.length_lt hmore hlater rfl
      rw [hts] at hne ⊢
      refine hblame.lift fun finish' ts' e' hhead h => ?_
      have hne' := ne_nil_congr (head?_append_congr hhead used) hne
      exact fails_readShapes.mpr ⟨hne', .inr ⟨s, ts', hsame finish' ts' hhead, h⟩⟩

theorem parseProgram_eq_error :
    parseProgram ts = .error e ↔ (readShapes (endOf ts) ts).Fails e := by
  rw [parseProgram]
  exact Reading.fails_map

/-! ## Whole token lists -/

/-- The tokens are the beginning of a program, or all of it. -/
def StartsProgram (ts : List Token) : Prop := ∃ more p, parseProgram (ts ++ more) = .ok p

/-- Any expression may stand behind the tokens. A parenthesis that opens
there opens a grouping: those of parameters and arguments stand behind a
name, where no expression may. -/
def TakesOperand (ts : List Token) : Prop :=
  ∀ operand : List Token, Grammar.Expression (operand.map Token.lexeme) →
    StartsProgram (ts ++ operand)

/-- The places of the parentheses that are still open at the end, the
innermost first, when the first lexeme has the place `place` and those of
`opened` are open before it. -/
def openPlaces (place : Nat) (opened : List Nat) : List Lexeme → List Nat
  | [] => opened
  | .openParen :: w => openPlaces (place + 1) (place :: opened) w
  | .closeParen :: w => openPlaces (place + 1) opened.tail w
  | _ :: w => openPlaces (place + 1) opened w

theorem openPlaces_append (place : Nat) (opened : List Nat) (u v : List Lexeme) :
    openPlaces place opened (u ++ v) =
      openPlaces (place + u.length) (openPlaces place opened u) v := by
  induction u generalizing place opened with
  | nil => rfl
  | cons l u ih =>
    have hplace : place + (u.length + 1) = place + 1 + u.length := by omega
    cases l <;> simp [openPlaces, ih, hplace]

/-- An expression closes what it opens. -/
theorem openPlaces_expression {w : List Lexeme} (h : Grammar.Expression w) (place : Nat)
    (opened : List Nat) : openPlaces place opened w = opened := by
  induction h generalizing place opened with
  | name => rfl
  | number => rfl
  | string => rfl
  | negation _ ih => simp [openPlaces, ih]
  | binary op _ _ ihv ihw =>
    cases op <;> simp [openPlaces_append, openPlaces, ihv, ihw, BinaryOp.lexeme]
  | grouping _ ih => simp [openPlaces, openPlaces_append, ih]

/-- What completes the lexemes is written by tokens anywhere. -/
theorem startsProgram_of_viable (h : Viable (ts.map Token.lexeme)) : StartsProgram ts := by
  obtain ⟨v, hv⟩ := h
  have hlexemes : (v.map fun l => Token.mk l .origin).map Token.lexeme = v := by
    rw [List.map_map]
    exact List.map_id v
  have hspells : Spells (ts ++ v.map fun l => Token.mk l .origin)
      (ts.map Token.lexeme ++ v) [] := by
    rw [Spells.iff_map_eq, List.map_append, hlexemes]
  obtain ⟨shapes, hshapes⟩ := (readShapes_recognises _).complete hspells hv rfl
  exact ⟨_, _, parseProgram_eq_ok.mpr ⟨shapes, hshapes, rfl⟩⟩

/-- What the error of parsing says. A token that is not what was expected,
or a reserved word, is the first with which the tokens are no beginning of a
program. Where the input ends too early, all of it is one, and the error
lies at its end. An unbalanced parenthesis is the innermost one that is
open; it opens a grouping, and a whole expression stands behind it, which
nothing closes or continues. -/
theorem parseProgram_blame (h : parseProgram ts = .error e) :
    match e.fault with
    | .expected _ _ | .reservedWord _ =>
      ∃ before t after, ts = before ++ t :: after ∧ e.pos = t.pos ∧
        StartsProgram before ∧ ¬ StartsProgram (before ++ [t])
    | .unexpectedEnd =>
      e.pos = endOf ts ∧ ∃ more p, more ≠ [] ∧ parseProgram (ts ++ more) = .ok p
    | .unbalancedParen =>
      ∃ before opening inner after, ts = before ++ opening :: (inner ++ after) ∧
        opening.lexeme = .openParen ∧ e.pos = opening.pos ∧
        (openPlaces 0 [] ((before ++ opening :: inner).map Token.lexeme)).head? =
          some before.length ∧
        TakesOperand before ∧ Grammar.Expression (inner.map Token.lexeme) ∧
        (∀ t ∈ after.head?, t.lexeme.EndsGrouping) ∧
        StartsProgram (before ++ opening :: inner) := by
  have hblame : Blame readShapes (endOf ts) [] ts e := by
    refine readShapes_blames (fun w hw => ⟨[], ?_⟩) (parseProgram_eq_error.mp h)
    rwa [List.nil_append, List.append_nil]
  cases hblame with
  | @token used rest t fault hts hfault hviable hrefused =>
    have htoken : ∃ before t' after, ts = before ++ t' :: after ∧ t.pos = t'.pos ∧
        StartsProgram before ∧ ¬ StartsProgram (before ++ [t']) := by
      refine ⟨used, t, rest, hts, rfl, startsProgram_of_viable hviable, ?_⟩
      rintro ⟨more, p, hp⟩
      have hrejected := parseProgram_eq_error.mpr (hrefused (endOf (used ++ t :: more)) more)
      rw [List.append_assoc, List.singleton_append, hrejected] at hp
      cases hp
    cases fault with
    | reservedWord name => exact htoken
    | expected what found => exact htoken
    | unexpectedEnd => cases hfault
    | unbalancedParen => cases hfault
  | finish hviable =>
    obtain ⟨more, p, hp⟩ := startsProgram_of_viable hviable
    refine ⟨rfl, more, p, ?_, hp⟩
    rintro rfl
    rw [List.append_nil, h] at hp
    cases hp
  | @grouping used inner rest opening hts hopening hplace hinner hrest =>
    refine ⟨used, opening, inner, rest, hts, hopening, rfl, ?_, ?_, hinner, hrest, ?_⟩
    · rw [List.map_append, List.map_cons, hopening, openPlaces_append, openPlaces,
        openPlaces_expression hinner]
      simp
    · intro operand hoperand
      refine startsProgram_of_viable ?_
      rw [List.map_append]
      exact hplace _ hoperand
    · refine startsProgram_of_viable ?_
      rw [List.map_append, List.map_cons, hopening]
      have hgrouping := hplace _ (Grammar.Expression.grouping hinner)
      rw [List.nil_append, ← List.cons_append, ← List.append_assoc] at hgrouping
      exact hgrouping.of_append

/-- `shape main() { svg(value: (1 + (2) "px" }`, with one column for each
token: the call's parenthesis and that of the outer grouping stay open. -/
def openGrouping : List Token :=
  ([.identifier "shape", .identifier "main", .openParen, .closeParen, .openBrace,
    .identifier "svg", .openParen, .identifier "value", .colon, .openParen, .number 1, .plus,
    .openParen, .number 2, .closeParen, .string "px", .closeBrace] : List Lexeme).zipIdx.map
      fun (l, i) => ⟨l, ⟨0, i⟩, ⟨0, i + 1⟩⟩

/-- Parsing the tokens fails with the fault. -/
def parseFailsWith (fault : ParseFault) (ts : List Token) : Bool :=
  match parseProgram ts with
  | .ok _ => false
  | .error e => e.fault == fault

theorem openGrouping_fails : parseFailsWith .unbalancedParen openGrouping := by
  decide +kernel

/-- Of the two, the grouping's parenthesis is blamed. -/
theorem openGrouping_blame : ∃ e, parseProgram openGrouping = .error e ∧
    e.fault = .unbalancedParen ∧
      ∃ before opening inner after, openGrouping = before ++ opening :: (inner ++ after) ∧
        opening.lexeme = .openParen ∧ e.pos = opening.pos ∧
        (openPlaces 0 [] ((before ++ opening :: inner).map Token.lexeme)).head? =
          some before.length ∧
        TakesOperand before ∧ Grammar.Expression (inner.map Token.lexeme) ∧
        (∀ t ∈ after.head?, t.lexeme.EndsGrouping) ∧
        StartsProgram (before ++ opening :: inner) := by
  have hfails := openGrouping_fails
  unfold parseFailsWith at hfails
  split at hfails
  · cases hfails
  · rename_i e he
    have hfault : e.fault = .unbalancedParen := beq_iff_eq.mp hfails
    have hblame := parseProgram_blame he
    rw [hfault] at hblame
    exact ⟨e, he, hfault, hblame⟩

end ShapeScript
