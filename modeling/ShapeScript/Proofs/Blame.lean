/-
ShapeScript.Proofs.Blame — what an error of a reader says about the tokens.

A reader that fails says where and why. `Blame` is what its error means:
the token it points at is the first one with which no program goes on, or
the tokens ran out in the middle of a program, or a grouping is left open.
The tokens in front, which other readers have consumed, enter only as the
lexemes `before`; what is known of them is that every word of the reader's
rule may stand behind them.

`Accountable` ties a reader to a rule and to this meaning of its errors.
Its other half is about success: the reader consumes a word of the rule,
and it looks at no token beyond the one behind that word. This is why a
token that is refused is refused whatever follows it, and it makes the
property compose: readers in sequence are accountable for the product of
their rules. All of it is stated of one token list at a time, so that a
reader that calls itself can use it of the tokens that are left.
-/
import ShapeScript.Proofs.Program.Recognition

namespace ShapeScript

open scoped Computability

/-! ## Beginnings of programs -/

namespace Grammar

/-- The lexemes are the beginning of a program. -/
def Viable (w : List Lexeme) : Prop := ∃ v, w ++ v ∈ program

/-- Behind `before`, every word of the language goes on with the beginning
of a program. -/
def Takes (before : List Lexeme) (language : Language Lexeme) : Prop :=
  ∀ w ∈ language, Viable (before ++ w)

variable {before u v : List Lexeme} {L M : Language Lexeme}

theorem Viable.of_append (h : Viable (u ++ v)) : Viable u := by
  obtain ⟨w, hw⟩ := h
  exact ⟨v ++ w, by rwa [← List.append_assoc]⟩

theorem Takes.viable (h : Takes before L) (hu : u ∈ L) : Viable before :=
  (h u hu).of_append

/-- A language may be replaced by one whose words begin its words, also
behind something that stands in front of them. -/
theorem Takes.of_extends (h : Takes before L)
    (hext : ∀ w ∈ M, ∃ v, u ++ w ++ v ∈ L) : Takes (before ++ u) M := by
  intro w hw
  obtain ⟨v, hv⟩ := hext w hw
  have hviable := h _ hv
  rw [← List.append_assoc, ← List.append_assoc] at hviable
  exact hviable.of_append

theorem Takes.mono (h : Takes before L) (hle : ∀ w ∈ M, w ∈ L) : Takes before M :=
  fun w hw => h w (hle w hw)

theorem Takes.mul_left (h : Takes before (L * M)) (hv : v ∈ M) : Takes before L := by
  intro u hu
  have hviable := h _ (Language.append_mem_mul hu hv)
  rw [← List.append_assoc] at hviable
  exact hviable.of_append

theorem Takes.mul_right (h : Takes before (L * M)) (hu : u ∈ L) : Takes (before ++ u) M := by
  intro v hv
  rw [List.append_assoc]
  exact h _ (Language.append_mem_mul hu hv)

end Grammar

open Grammar (Viable Takes)

/-! ## Failure of composed readings -/

namespace Reading

variable {α β : Type} {m n : Nat} {e : ParseError}

/-- The reading fails with the error. -/
def Fails (r : Reading α n) (e : ParseError) : Prop := r.result = .error e

@[simp] theorem not_fails_ok {a : α} {rest : List Token} {short : rest.length < n} :
    ¬ (ok a rest short : Reading α n).Fails e := by
  simp [Fails, result]

@[simp] theorem fails_error {e' : ParseError} {rest : List Token} {fits : rest.length ≤ n} :
    (error e' rest fits : Reading α n).Fails e ↔ e' = e := by
  simp [Fails, result]

@[simp] theorem fails_failed {e' : ParseError} {rest : List Token} {short : rest.length < n} :
    (failed e' rest short : Reading α n).Fails e ↔ e' = e :=
  fails_error

@[simp] theorem fails_within {r : Reading α m} {h : m ≤ n} :
    (r.within h).Fails e ↔ r.Fails e := by
  cases r <;> simp [within]

@[simp] theorem fails_below {r : Reading α m} {h : m < n} : (r.below h).Fails e ↔ r.Fails e :=
  fails_within

@[simp] theorem fails_map {r : Reading α n} {f : α → β} : (r.map f).Fails e ↔ r.Fails e := by
  cases r <;> simp [map]

theorem fails_andThen {r : Reading α n}
    {next : α → (rest : List Token) → rest.length < n → Reading β n} :
    (r.andThen next).Fails e ↔
      r.Fails e ∨ ∃ a middle short, r.Gives a middle ∧ (next a middle short).Fails e := by
  cases r with
  | error e' left fits => simp [andThen]
  | ok a left short =>
    simp only [andThen, not_fails_ok, gives_ok, false_or]
    constructor
    · intro h
      exact ⟨a, left, short, ⟨rfl, rfl⟩, h⟩
    · rintro ⟨_, _, _, ⟨rfl, rfl⟩, h⟩
      exact h

theorem fails_thenRead {r : Reading α n}
    {next : α → (rest : List Token) → Reading β rest.length} :
    (r.thenRead next).Fails e ↔
      r.Fails e ∨ ∃ a middle, r.Gives a middle ∧ (next a middle).Fails e := by
  unfold thenRead
  rw [fails_andThen]
  constructor
  · rintro (h | ⟨a, middle, short, ha, h⟩)
    · exact .inl h
    · exact .inr ⟨a, middle, ha, fails_below.mp h⟩
  · rintro (h | ⟨a, middle, ha, h⟩)
    · exact .inl h
    · exact .inr ⟨a, middle, ha.length_lt, ha, fails_below.mpr h⟩

end Reading

/-! ## The meaning of an error -/

/-- The fault is that a certain token stands where it does. -/
def ParseFault.blamesToken : ParseFault → Bool
  | reservedWord _ | expected _ _ => true
  | unexpectedEnd | unbalancedParen => false

/-- A token that neither closes a grouping nor continues the expression in
it. -/
def Lexeme.EndsGrouping (l : Lexeme) : Prop :=
  l ≠ .closeParen ∧ l.binaryOp? = none ∧ l ≠ .openParen

section Blame

variable {α β : Type} {bound bound' : List Token → Nat}

/-- What the error of a reader that reads `ts` behind the lexemes `before`
means. -/
inductive Blame (read : Position → (ts : List Token) → Reading α (bound ts)) (finish : Position)
    (before : List Lexeme) (ts : List Token) : ParseError → Prop
  /-- Up to the token there is the beginning of a program, and the reader
  refuses the token whatever follows it. -/
  | token {used rest : List Token} {t : Token} {fault : ParseFault} (hts : ts = used ++ t :: rest)
      (hfault : fault.blamesToken) (hviable : Viable (before ++ used.map Token.lexeme))
      (hrefused : ∀ finish' rest', (read finish' (used ++ t :: rest')).Fails ⟨fault, t.pos⟩) :
      Blame read finish before ts ⟨fault, t.pos⟩
  /-- The tokens are the beginning of a program. -/
  | finish (hviable : Viable (before ++ ts.map Token.lexeme)) :
      Blame read finish before ts ⟨.unexpectedEnd, finish⟩
  /-- An expression may stand where the parenthesis does, and behind it there
  is one, which is neither closed nor continued. -/
  | grouping {used inner rest : List Token} {opening : Token}
      (hts : ts = used ++ opening :: (inner ++ rest)) (hopening : opening.lexeme = .openParen)
      (hplace : Takes (before ++ used.map Token.lexeme) Grammar.expression)
      (hinner : Grammar.Expression (inner.map Token.lexeme))
      (hrest : ∀ t ∈ rest.head?, t.lexeme.EndsGrouping) :
      Blame read finish before ts ⟨.unbalancedParen, opening.pos⟩

/-- With equal tokens in front, lists start with the same token if they did
so without them. -/
theorem head?_append_congr {rest rest' : List Token} (h : rest'.head? = rest.head?)
    (used : List Token) : (used ++ rest').head? = (used ++ rest).head? := by
  cases used with
  | nil => exact h
  | cons t used => rfl

theorem ne_nil_congr {ts ts' : List Token} (h : ts'.head? = ts.head?) (hne : ts ≠ []) :
    ts' ≠ [] := by
  rintro rfl
  exact hne (List.head?_eq_none_iff.mp h.symm)

variable {read : Position → (ts : List Token) → Reading α (bound ts)}
  {read' : Position → (ts : List Token) → Reading β (bound' ts)}
  {finish : Position} {before : List Lexeme} {ts : List Token} {e : ParseError}

/-- The error of a part is an error of the whole, which reads some tokens
before it comes to the part. -/
theorem Blame.lift {used : List Token} (h : Blame read finish (before ++ used.map Token.lexeme) ts e)
    (hfails : ∀ finish' ts' e', ts'.head? = ts.head? → (read finish' ts').Fails e' →
      (read' finish' (used ++ ts')).Fails e') :
    Blame read' finish before (used ++ ts) e := by
  cases h with
  | @token used' rest t fault hts hfault hviable hrefused =>
    subst hts
    refine .token (List.append_assoc used used' (t :: rest)).symm hfault ?_ ?_
    · rwa [List.map_append, ← List.append_assoc]
    · intro finish' rest'
      rw [List.append_assoc]
      have hhead : (t :: rest').head? = (t :: rest).head? := rfl
      exact hfails finish' _ _ (head?_append_congr hhead used') (hrefused finish' rest')
  | finish hviable =>
    refine .finish ?_
    rwa [List.map_append, ← List.append_assoc]
  | @grouping used' inner rest opening hts hopening hplace hinner hrest =>
    subst hts
    refine .grouping (List.append_assoc used used' _).symm hopening ?_ hinner hrest
    rwa [List.map_append, ← List.append_assoc]

/-- The error of a part that is read first is an error of the whole. -/
theorem Blame.first (h : Blame read finish before ts e)
    (hfails : ∀ finish' ts' e', ts'.head? = ts.head? → (read finish' ts').Fails e' →
      (read' finish' ts').Fails e') :
    Blame read' finish before ts e := by
  have h' : Blame read finish (before ++ [].map Token.lexeme) ts e := by
    rwa [List.map_nil, List.append_nil]
  show Blame read' finish before ([] ++ ts) e
  exact h'.lift hfails

/-- The error of a part that is read behind one token is an error of the
whole. -/
theorem Blame.cons {t : Token} (h : Blame read finish (before ++ [t.lexeme]) ts e)
    (hfails : ∀ finish' ts' e', ts'.head? = ts.head? → (read finish' ts').Fails e' →
      (read' finish' (t :: ts')).Fails e') :
    Blame read' finish before (t :: ts) e := by
  have h' : Blame read finish (before ++ [t].map Token.lexeme) ts e := h
  exact h'.lift hfails

end Blame

/-! ## Accountable readers -/

section Accountable

variable {α β : Type} {bound : List Token → Nat} {L M : Language Lexeme} {ts : List Token}

/-- What the reader makes of these tokens is accounted for by the rule. On
success it consumes a word of it, and would do the same with other tokens
behind the next one; and its errors are blamed rightly. -/
structure AccountableOn (read : Position → (ts : List Token) → Reading α (bound ts))
    (language : Language Lexeme) (ts : List Token) : Prop where
  reads : ∀ {finish a rest}, (read finish ts).Gives a rest →
    ∃ used, ts = used ++ rest ∧ used.map Token.lexeme ∈ language ∧
      ∀ finish' rest', rest'.head? = rest.head? → (read finish' (used ++ rest')).Gives a rest'
  blames : ∀ {finish before e}, Takes before language → (read finish ts).Fails e →
    Blame read finish before ts e

/-- Changing what is read changes nothing else. -/
theorem AccountableOn.map {read : Position → (ts : List Token) → Reading α (bound ts)}
    (h : AccountableOn read L ts) (f : α → β) :
    AccountableOn (fun finish ts => (read finish ts).map f) L ts where
  reads := by
    intro finish b rest hb
    obtain ⟨a, ha, rfl⟩ := Reading.gives_map.mp hb
    obtain ⟨used, hts, hmem, hsame⟩ := h.reads ha
    exact ⟨used, hts, hmem, fun finish' rest' hhead => (hsame finish' rest' hhead).map f⟩
  blames := by
    intro finish before e hbefore hfails
    have hblame := h.blames hbefore (Reading.fails_map.mp hfails)
    exact hblame.first fun finish' ts' e' _ hfails' => Reading.fails_map.mpr hfails'

/-- A reader does the same as another one on lists that start like `ts`. -/
theorem AccountableOn.congr {read read' : Position → (ts : List Token) → Reading α (bound ts)}
    (h : AccountableOn read L ts)
    (heq : ∀ finish ts', ts'.head? = ts.head? → read' finish ts' = read finish ts') :
    AccountableOn read' L ts where
  reads := by
    intro finish a rest ha
    rw [heq finish ts rfl] at ha
    obtain ⟨used, hts, hmem, hsame⟩ := h.reads ha
    refine ⟨used, hts, hmem, fun finish' rest' hhead => ?_⟩
    rw [heq finish' _ (hts ▸ head?_append_congr hhead used)]
    exact hsame finish' rest' hhead
  blames := by
    intro finish before e hbefore hfails
    rw [heq finish ts rfl] at hfails
    refine (h.blames hbefore hfails).first fun finish' ts' e' hhead hfails' => ?_
    rwa [heq finish' ts' hhead]

/-- What is accountable for a rule is so for one with more words. -/
theorem AccountableOn.mono {read : Position → (ts : List Token) → Reading α (bound ts)}
    (h : AccountableOn read L ts) (hle : ∀ w ∈ L, w ∈ M) : AccountableOn read M ts where
  reads := by
    intro finish a rest ha
    obtain ⟨used, hts, hmem, hsame⟩ := h.reads ha
    exact ⟨used, hts, hle _ hmem, hsame⟩
  blames := fun hbefore hfails => h.blames (hbefore.mono hle) hfails

/-- Readers in sequence are accountable for the product of their rules. -/
theorem AccountableOn.thenRead {first : Position → (ts : List Token) → Reading α ts.length}
    {next : α → Position → (ts : List Token) → Reading β ts.length} {v : List Lexeme}
    (h : AccountableOn first L ts) (hv : v ∈ M)
    (h' : ∀ a rest, rest.length < ts.length → AccountableOn (next a) M rest) :
    AccountableOn (fun finish ts => (first finish ts).thenRead fun a rest => next a finish rest)
      (L * M) ts where
  reads := by
    intro finish b rest hb
    obtain ⟨a, middle, ha, hb⟩ := Reading.gives_thenRead.mp hb
    obtain ⟨used, hts, hmem, hsame⟩ := h.reads ha
    obtain ⟨used', hmiddle, hmem', hsame'⟩ := (h' a middle ha.length_lt).reads hb
    subst hmiddle
    refine ⟨used ++ used', ?_, ?_, ?_⟩
    · rw [hts, List.append_assoc]
    · rw [List.map_append]
      exact Language.append_mem_mul hmem hmem'
    · intro finish' rest' hhead
      rw [List.append_assoc]
      exact (hsame finish' _ (head?_append_congr hhead used')).thenRead
        (hsame' finish' rest' hhead)
  blames := by
    intro finish before e hbefore hfails
    obtain hfirst | ⟨a, middle, ha, hnext⟩ := Reading.fails_thenRead.mp hfails
    · have hblame := h.blames (hbefore.mul_left hv) hfirst
      exact hblame.first fun finish' ts' e' _ hfails' => Reading.fails_thenRead.mpr (.inl hfails')
    · obtain ⟨used, hts, hmem, hsame⟩ := h.reads ha
      have hblame := (h' a middle ha.length_lt).blames (hbefore.mul_right hmem) hnext
      subst hts
      refine hblame.lift fun finish' ts' e' hhead hfails' => ?_
      exact Reading.fails_thenRead.mpr (.inr ⟨a, ts', hsame finish' ts' hhead, hfails'⟩)

/-- A reader of one token, which it takes or refuses for what it is. -/
theorem accountableOn_readToken
    (take : {n : Nat} → Token → (rest : List Token) → rest.length < n → Reading α n)
    (htake : ∀ t, (∃ a, [t.lexeme] ∈ L ∧ ∀ n rest (short : rest.length < n),
        take t rest short = .ok a rest short) ∨
      ∃ fault, fault.blamesToken ∧ ∀ n rest (short : rest.length < n),
        take t rest short = .failed ⟨fault, t.pos⟩ rest short)
    (hL : ∃ l, [l] ∈ L) (ts : List Token) :
    AccountableOn (fun finish ts => (readToken finish ts).andThen take) L ts where
  reads := by
    intro finish a rest ha
    obtain ⟨t, middle, short, ht, ha⟩ := Reading.gives_andThen.mp ha
    rw [gives_readToken] at ht
    subst ht
    obtain ⟨b, hmem, htaken⟩ | ⟨fault, _, hrefused⟩ := htake t
    · rw [htaken, Reading.gives_ok] at ha
      obtain ⟨rfl, rfl⟩ := ha
      refine ⟨[t], rfl, hmem, fun finish' rest' _ => ?_⟩
      refine Reading.gives_andThen.mpr
        ⟨t, rest', Nat.lt_succ_self _, gives_readToken.mpr rfl, ?_⟩
      rw [htaken]
      exact Reading.gives_ok.mpr ⟨rfl, rfl⟩
    · rw [hrefused] at ha
      exact absurd ha Reading.not_gives_failed
  blames := by
    intro finish before e hbefore hfails
    cases ts with
    | nil =>
      have he : (⟨.unexpectedEnd, finish⟩ : ParseError) = e := by
        simpa [readToken, Reading.andThen] using hfails
      obtain ⟨l, hl⟩ := hL
      subst he
      exact .finish (by simpa using hbefore.viable hl)
    | cons t rest =>
      have hfirst : ∀ finish' rest' e', ((readToken finish' (t :: rest')).andThen take).Fails e' ↔
          (take t rest' (Nat.lt_succ_self rest'.length)).Fails e' := by
        intro finish' rest' e'
        rfl
      rw [hfirst] at hfails
      obtain ⟨a, _, htaken⟩ | ⟨fault, hfault, hrefused⟩ := htake t
      · rw [htaken] at hfails
        exact absurd hfails Reading.not_fails_ok
      · rw [hrefused, Reading.fails_failed] at hfails
        subst hfails
        obtain ⟨l, hl⟩ := hL
        refine .token (List.nil_append (t :: rest)).symm hfault
          (by simpa using hbefore.viable hl) ?_
        intro finish' rest'
        rw [List.nil_append, hfirst, hrefused]
        exact Reading.fails_failed.mpr rfl

/-! ## Single tokens -/

theorem expect_accountableOn {m : Lexeme} (what : String)
    (hm : m.kind ≠ .number ∧ m.kind ≠ .identifier ∧ m.kind ≠ .string) (ts : List Token) :
    AccountableOn (fun finish => expect finish m.kind what) (Grammar.mark m) ts := by
  refine accountableOn_readToken
    (fun t rest short => if t.kind = m.kind then .ok t rest short
      else .failed ⟨.expected what t.kind, t.pos⟩ rest short)
    (fun t => ?_) ⟨m, Set.mem_singleton _⟩ ts
  by_cases ht : t.kind = m.kind
  · have hmark : t.lexeme = m := (kind_eq_iff hm).mp ht
    exact .inl ⟨t, congrArg (fun l => [l]) hmark, fun n rest short => if_pos ht⟩
  · exact .inr ⟨.expected what t.kind, rfl, fun n rest short => if_neg ht⟩

/-- What becomes of the token that a name is read from. -/
def takeName {n : Nat} (t : Token) (rest : List Token) (short : rest.length < n) :
    Reading Spelled n :=
  match t.lexeme with
  | .identifier name =>
    if isReserved name then .failed ⟨.reservedWord name, t.pos⟩ rest short
    else .ok ⟨name, t.span⟩ rest short
  | _ => .failed ⟨.expected "an identifier" t.kind, t.pos⟩ rest short

theorem readName_accountableOn (ts : List Token) :
    AccountableOn readName Grammar.name ts := by
  refine accountableOn_readToken (L := Grammar.name) takeName (fun t => ?_)
    ⟨.identifier mainName, mainName, by decide, rfl⟩ ts
  unfold takeName
  cases ht : t.lexeme with
  | identifier name =>
    cases hname : isReserved name with
    | true => exact .inr ⟨.reservedWord name, rfl, fun n rest short => if_pos hname⟩
    | false =>
      refine .inl ⟨⟨name, t.span⟩, ⟨name, hname, rfl⟩, fun n rest short => if_neg ?_⟩
      rw [hname]
      exact Bool.false_ne_true
  | _ => exact .inr ⟨.expected "an identifier" t.kind, rfl, fun n rest short => rfl⟩

/-- What becomes of the token that the keyword is read from. -/
def takeKeyword {n : Nat} (t : Token) (rest : List Token) (short : rest.length < n) :
    Reading Token n :=
  match t.lexeme with
  | .identifier name =>
    if name = shapeKeyword then .ok t rest short
    else .failed ⟨.expected "the 'shape' keyword" t.kind, t.pos⟩ rest short
  | _ => .failed ⟨.expected "the 'shape' keyword" t.kind, t.pos⟩ rest short

theorem readKeyword_accountableOn (ts : List Token) :
    AccountableOn readKeyword (Grammar.mark (.identifier shapeKeyword)) ts := by
  refine accountableOn_readToken takeKeyword (fun t => ?_)
    ⟨.identifier shapeKeyword, Set.mem_singleton _⟩ ts
  unfold takeKeyword
  cases ht : t.lexeme with
  | identifier name =>
    by_cases hname : name = shapeKeyword
    · refine .inl ⟨t, ?_, fun n rest short => if_pos hname⟩
      rw [hname]
      exact Set.mem_singleton _
    · exact .inr ⟨.expected "the 'shape' keyword" t.kind, rfl, fun n rest short => if_neg hname⟩
  | _ => exact .inr ⟨.expected "the 'shape' keyword" t.kind, rfl, fun n rest short => rfl⟩

/-! ## Lists -/

theorem nextIs_congr {kind : LexemeKind} {ts ts' : List Token} (h : ts'.head? = ts.head?) :
    nextIs kind ts' = nextIs kind ts := by
  cases ts <;> cases ts' <;> simp_all [nextIs]

theorem fails_readSeparated {item : (ts : List Token) → Reading α ts.length} {e : ParseError} :
    (readSeparated item ts).Fails e ↔
      (item ts).Fails e ∨ ∃ a t more, (item ts).Gives a (t :: more) ∧ t.lexeme = .comma ∧
        (readSeparated item more).Fails e := by
  rw [readSeparated, Reading.fails_andThen]
  constructor
  · rintro (h | ⟨a, middle, short, ha, h⟩)
    · exact .inl h
    · right
      split at h
      · rename_i span more short'
        exact ⟨a, _, more, ha, rfl, Reading.fails_map.mp (Reading.fails_below.mp h)⟩
      · exact absurd h Reading.not_fails_ok
  · rintro (h | ⟨a, ⟨lexeme, span⟩, more, ha, ht, h⟩)
    · exact .inl h
    · obtain rfl : lexeme = .comma := ht
      exact .inr ⟨a, _, ha.length_lt, ha, Reading.fails_below.mpr (Reading.fails_map.mpr h)⟩

section Lists

variable {item : Position → (ts : List Token) → Reading α ts.length}
  (hitem : ∀ ts, AccountableOn item L ts)
include hitem

theorem readSeparated_accountableOn (ts : List Token) :
    AccountableOn (fun finish => readSeparated (item finish)) (Grammar.separated L) ts := by
  obtain ⟨n, hn⟩ : ∃ n, n = ts.length := ⟨_, rfl⟩
  induction n using Nat.strongRecOn generalizing ts with
  | ind n ih =>
    subst hn
    rw [Grammar.separated_eq]
    constructor
    · intro finish as rest has
      obtain ⟨a, middle, ha, hlast | hmore⟩ := gives_readSeparated.mp has
      · obtain ⟨hcomma, rfl, rfl⟩ := hlast
        obtain ⟨used, hts, hmem, hsame⟩ := (hitem ts).reads ha
        refine ⟨used, hts, (Language.mem_add _ _ _).mpr (.inl hmem), fun finish' rest' hhead => ?_⟩
        refine gives_readSeparated.mpr ⟨a, rest', hsame finish' rest' hhead, .inl ⟨?_, rfl, rfl⟩⟩
        rw [nextIs_congr hhead, hcomma]
      · obtain ⟨t, more, as', rfl, ht, has', rfl⟩ := hmore
        obtain ⟨used, hts, hmem, hsame⟩ := (hitem ts).reads ha
        have hshort : more.length < ts.length := Nat.lt_of_succ_lt ha.length_lt
        obtain ⟨used', rfl, hmem', hsame'⟩ := (ih more.length hshort more rfl).reads has'
        refine ⟨used ++ t :: used', ?_, (Language.mem_add _ _ _).mpr (.inr ?_), ?_⟩
        · rw [hts, List.append_assoc, List.cons_append]
        · rw [List.map_append, List.map_cons, ht]
          exact Language.append_mem_mul hmem (Grammar.mem_mark_mul.mpr ⟨_, hmem', rfl⟩)
        · intro finish' rest' hhead
          rw [List.append_assoc, List.cons_append]
          exact gives_readSeparated.mpr ⟨a, _, hsame finish' _ rfl,
            .inr ⟨t, _, as', rfl, ht, hsame' finish' rest' hhead, rfl⟩⟩
    · intro finish before e hbefore hfails
      obtain hfirst | ⟨a, t, more, ha, ht, hmore⟩ := fails_readSeparated.mp hfails
      · have hone : Takes before L :=
          hbefore.mono fun w hw => (Language.mem_add _ _ _).mpr (.inl hw)
        refine ((hitem ts).blames hone hfirst).first fun finish' ts' e' _ hfails' => ?_
        exact fails_readSeparated.mpr (.inl hfails')
      · obtain ⟨used, hts, hmem, hsame⟩ := (hitem ts).reads ha
        have hshort : more.length < ts.length := Nat.lt_of_succ_lt ha.length_lt
        have hmany : Takes (before ++ (used ++ [t]).map Token.lexeme) (Grammar.separated L) := by
          refine hbefore.of_extends fun w hw => ⟨[], (Language.mem_add _ _ _).mpr (.inr ?_)⟩
          simp only [List.map_append, List.map_cons, List.map_nil, ht, List.append_nil,
            List.append_assoc, List.singleton_append]
          exact Language.append_mem_mul hmem (Grammar.mem_mark_mul.mpr ⟨w, hw, rfl⟩)
        have hblame := (ih more.length hshort more rfl).blames hmany hmore
        have hsplit : ts = used ++ [t] ++ more := by simpa using hts
        rw [hsplit]
        refine hblame.lift fun finish' ts' e' _ hfails' => ?_
        rw [List.append_assoc]
        exact fails_readSeparated.mpr (.inr ⟨a, t, ts', hsame finish' _ rfl, ht, hfails'⟩)

/-- A list from behind its opening parenthesis. -/
theorem readEnclosed_accountableOn (closing : String) (ts : List Token) :
    AccountableOn (fun finish => readEnclosed finish (item finish) closing)
      ((1 + Grammar.separated L) * Grammar.mark .closeParen) ts := by
  have hclose : ∀ ts, AccountableOn (fun finish => expect finish .closeParen closing)
      (Grammar.mark .closeParen) ts :=
    fun ts => expect_accountableOn (m := .closeParen) closing (by decide) ts
  cases hnext : nextIs .closeParen ts with
  | true =>
    refine (((hclose ts).map ([], ·)).mono ?_).congr fun finish ts' hhead => ?_
    · intro w hw
      exact Language.append_mem_mul ((Language.mem_add _ _ _).mpr (.inl Language.nil_mem_one)) hw
    · rw [readEnclosed, nextIs_congr hhead, hnext, if_pos rfl]
  | false =>
    have hitems := (readSeparated_accountableOn hitem ts).thenRead (Set.mem_singleton _)
      fun items rest _ => (hclose rest).map (items, ·)
    refine (hitems.mono ?_).congr fun finish ts' hhead => ?_
    · intro w hw
      obtain ⟨u, hu, v, hv, rfl⟩ := Language.mem_mul.mp hw
      exact Language.append_mem_mul ((Language.mem_add _ _ _).mpr (.inr hu)) hv
    · rw [readEnclosed, nextIs_congr hhead, hnext, if_neg Bool.false_ne_true]

end Lists

end Accountable

end ShapeScript
