/-
ShapeScript.Proofs.Reading — what a reader gives.

`Reading.Gives` forgets the bound that a reading carries: it says that a
reading succeeds with a value and which tokens it leaves unread. Each way
of composing readings has one lemma here that says when the composition
succeeds, so the theorems about readers never open a `Reading`.

`Spells ts w rest` says what was read: the tokens of `ts` before `rest`
are the lexemes `w`, whatever their spans are.
-/
import ShapeScript.Token.Reading

namespace ShapeScript

/-! ## What the tokens in front spell -/

/-- `ts` starts with tokens that are the lexemes `w`, and `rest` follows
them. -/
def Spells (ts : List Token) (w : List Lexeme) (rest : List Token) : Prop :=
  ∃ used, ts = used ++ rest ∧ used.map Token.lexeme = w

namespace Spells

variable {ts middle rest : List Token} {v w : List Lexeme}

theorem nil : Spells ts [] ts := ⟨[], rfl, rfl⟩

theorem nil_iff : Spells ts [] rest ↔ ts = rest := by
  constructor
  · intro h
    obtain ⟨used, rfl, h⟩ := h
    rw [List.map_eq_nil_iff] at h
    rw [h, List.nil_append]
  · rintro rfl
    exact nil

/-- To spell a word the first token spells its first lexeme. -/
theorem cons_iff {l : Lexeme} :
    Spells ts (l :: w) rest ↔ ∃ t more, ts = t :: more ∧ t.lexeme = l ∧ Spells more w rest := by
  constructor
  · intro h
    obtain ⟨used, rfl, h⟩ := h
    obtain ⟨t, more, rfl, ht, hw⟩ := List.map_eq_cons_iff.mp h
    exact ⟨t, more ++ rest, rfl, ht, more, rfl, hw⟩
  · intro h
    obtain ⟨t, more, rfl, rfl, used, rfl, rfl⟩ := h
    exact ⟨t :: used, rfl, rfl⟩

/-- A word in two parts is spelled in two parts. -/
theorem append_iff :
    Spells ts (v ++ w) rest ↔ ∃ middle, Spells ts v middle ∧ Spells middle w rest := by
  constructor
  · intro h
    obtain ⟨used, rfl, h⟩ := h
    obtain ⟨a, b, rfl, ha, hb⟩ := List.map_eq_append_iff.mp h
    exact ⟨b ++ rest, ⟨a, List.append_assoc a b rest, ha⟩, b, rfl, hb⟩
  · intro h
    obtain ⟨middle, ⟨a, rfl, rfl⟩, b, rfl, rfl⟩ := h
    exact ⟨a ++ b, (List.append_assoc a b rest).symm, List.map_append⟩

theorem cons {t : Token} (h : Spells ts w rest) : Spells (t :: ts) (t.lexeme :: w) rest :=
  cons_iff.mpr ⟨t, ts, rfl, rfl, h⟩

theorem append (h : Spells ts v middle) (h' : Spells middle w rest) :
    Spells ts (v ++ w) rest :=
  append_iff.mpr ⟨middle, h, h'⟩

/-- Reading one more token after what was read. -/
theorem snoc {t : Token} (h : Spells ts w (t :: rest)) : Spells ts (w ++ [t.lexeme]) rest :=
  h.append nil.cons

theorem iff_map_eq : Spells ts w [] ↔ ts.map Token.lexeme = w := by
  constructor
  · intro h
    obtain ⟨used, rfl, h⟩ := h
    rw [List.append_nil]
    exact h
  · intro h
    exact ⟨ts, (List.append_nil ts).symm, h⟩

end Spells

/-! ## Success of composed readings -/

namespace Reading

variable {α β : Type} {m n : Nat}

/-- The reading succeeds with `a` and leaves `rest` unread. -/
def Gives (r : Reading α n) (a : α) (rest : List Token) : Prop := ∃ short, r = ok a rest short

@[simp] theorem gives_ok {a b : α} {rest left : List Token} {short : rest.length < n} :
    (ok a rest short : Reading α n).Gives b left ↔ a = b ∧ rest = left := by
  constructor
  · intro h
    obtain ⟨_, h⟩ := h
    cases h
    exact ⟨rfl, rfl⟩
  · intro h
    obtain ⟨rfl, rfl⟩ := h
    exact ⟨short, rfl⟩

@[simp] theorem not_gives_error {e : ParseError} {a : α} {rest left : List Token}
    {fits : rest.length ≤ n} : ¬ (error e rest fits : Reading α n).Gives a left := by
  intro h
  obtain ⟨_, h⟩ := h
  cases h

@[simp] theorem not_gives_failed {e : ParseError} {a : α} {rest left : List Token}
    {short : rest.length < n} : ¬ (failed e rest short : Reading α n).Gives a left :=
  not_gives_error

@[simp] theorem gives_within {r : Reading α m} {h : m ≤ n} {a : α} {rest : List Token} :
    (r.within h).Gives a rest ↔ r.Gives a rest := by
  cases r <;> simp [within]

@[simp] theorem gives_below {r : Reading α m} {h : m < n} {a : α} {rest : List Token} :
    (r.below h).Gives a rest ↔ r.Gives a rest :=
  gives_within

@[simp] theorem gives_map {r : Reading α n} {f : α → β} {b : β} {rest : List Token} :
    (r.map f).Gives b rest ↔ ∃ a, r.Gives a rest ∧ f a = b := by
  cases r with
  | ok a left short =>
    simp only [map, gives_ok]
    constructor
    · intro h
      obtain ⟨rfl, rfl⟩ := h
      exact ⟨a, ⟨rfl, rfl⟩, rfl⟩
    · intro h
      obtain ⟨_, ⟨rfl, rfl⟩, rfl⟩ := h
      exact ⟨rfl, rfl⟩
  | error e left fits => simp [map]

/-- A sequence gives what the second reading gives behind the first. -/
theorem gives_andThen {r : Reading α n}
    {next : α → (rest : List Token) → rest.length < n → Reading β n} {b : β}
    {rest : List Token} :
    (r.andThen next).Gives b rest ↔
      ∃ a middle short, r.Gives a middle ∧ (next a middle short).Gives b rest := by
  cases r with
  | ok a left short =>
    simp only [andThen, gives_ok]
    constructor
    · intro h
      exact ⟨a, left, short, ⟨rfl, rfl⟩, h⟩
    · intro h
      obtain ⟨_, _, _, ⟨rfl, rfl⟩, h⟩ := h
      exact h
  | error e left fits => simp [andThen]

theorem gives_thenRead {r : Reading α n}
    {next : α → (rest : List Token) → Reading β rest.length} {b : β} {rest : List Token} :
    (r.thenRead next).Gives b rest ↔
      ∃ a middle, r.Gives a middle ∧ (next a middle).Gives b rest := by
  unfold thenRead
  rw [gives_andThen]
  constructor
  · intro h
    obtain ⟨a, middle, short, hr, h⟩ := h
    exact ⟨a, middle, hr, gives_below.mp h⟩
  · intro h
    obtain ⟨a, middle, hr, h⟩ := h
    obtain ⟨short, rfl⟩ := hr
    exact ⟨a, middle, short, gives_ok.mpr ⟨rfl, rfl⟩, gives_below.mpr h⟩

theorem Gives.map {r : Reading α n} {a : α} {rest : List Token} (h : r.Gives a rest)
    (f : α → β) : (r.map f).Gives (f a) rest :=
  gives_map.mpr ⟨a, h, rfl⟩

theorem Gives.thenRead {r : Reading α n}
    {next : α → (rest : List Token) → Reading β rest.length} {a : α} {b : β}
    {middle rest : List Token} (h : r.Gives a middle) (h' : (next a middle).Gives b rest) :
    (r.thenRead next).Gives b rest :=
  gives_thenRead.mpr ⟨a, middle, h, h'⟩

/-- A success leaves fewer tokens than its bound. -/
theorem Gives.length_lt {r : Reading α n} {a : α} {rest : List Token} (h : r.Gives a rest) :
    rest.length < n :=
  h.1

/-- A reading gives one thing. -/
theorem Gives.unique {r : Reading α n} {a b : α} {rest left : List Token} (h : r.Gives a rest)
    (h' : r.Gives b left) : a = b ∧ rest = left := by
  obtain ⟨short, rfl⟩ := h
  exact gives_ok.mp h'

theorem result_eq_ok_iff {r : Reading α n} {a : α} :
    r.result = .ok a ↔ ∃ rest, r.Gives a rest := by
  cases r with
  | ok b left short => simp [result]
  | error e left fits => simp [result]

/-- A complete reading leaves nothing. -/
theorem complete_eq_ok_iff {r : Reading α n} {wanted : String} {a : α} :
    r.complete wanted = .ok a ↔ r.Gives a [] := by
  cases r with
  | ok b left short => cases left <;> simp [complete]
  | error e left fits => simp [complete]

end Reading

/-! ## Single tokens -/

theorem gives_readToken {finish : Position} {ts : List Token} {t : Token} {rest : List Token} :
    (readToken finish ts).Gives t rest ↔ ts = t :: rest := by
  cases ts <;> simp [readToken]

/-- `expect` takes exactly one token, of the kind it is told. -/
theorem gives_expect {finish : Position} {kind : LexemeKind} {what : String} {ts : List Token}
    {t : Token} {rest : List Token} :
    (expect finish kind what ts).Gives t rest ↔ ts = t :: rest ∧ t.kind = kind := by
  unfold expect
  rw [Reading.gives_andThen]
  constructor
  · intro h
    obtain ⟨u, middle, short, hu, h⟩ := h
    rw [gives_readToken] at hu
    split at h
    · rename_i hk
      rw [Reading.gives_ok] at h
      obtain ⟨rfl, rfl⟩ := h
      exact ⟨hu, hk⟩
    · exact absurd h Reading.not_gives_failed
  · intro h
    obtain ⟨rfl, hk⟩ := h
    refine ⟨t, rest, Nat.lt_succ_self _, gives_readToken.mpr rfl, ?_⟩
    rw [if_pos hk]
    exact Reading.gives_ok.mpr ⟨rfl, rfl⟩

/-- `readName` takes exactly one token, a name that is not reserved. -/
theorem gives_readName {finish : Position} {ts : List Token} {s : Spelled} {rest : List Token} :
    (readName finish ts).Gives s rest ↔
      ts = ⟨.identifier s.name, s.span⟩ :: rest ∧ isReserved s.name = false := by
  unfold readName
  rw [Reading.gives_andThen]
  constructor
  · intro h
    obtain ⟨⟨lexeme, span⟩, middle, short, hu, h⟩ := h
    rw [gives_readToken] at hu
    dsimp only at h
    split at h
    · rename_i name
      split at h
      · exact absurd h Reading.not_gives_failed
      · rename_i hres
        rw [Reading.gives_ok] at h
        obtain ⟨rfl, rfl⟩ := h
        exact ⟨hu, by simpa using hres⟩
    · exact absurd h Reading.not_gives_failed
  · intro h
    obtain ⟨rfl, hres⟩ := h
    refine ⟨⟨.identifier s.name, s.span⟩, rest, Nat.lt_succ_self _, gives_readToken.mpr rfl, ?_⟩
    dsimp only
    rw [if_neg (by simp [hres])]
    exact Reading.gives_ok.mpr ⟨rfl, rfl⟩

/-- A name that is not reserved is read. -/
theorem readName_gives {finish : Position} {n : String} (h : isReserved n = false) (span : Span)
    (rest : List Token) :
    (readName finish (⟨.identifier n, span⟩ :: rest)).Gives ⟨n, span⟩ rest :=
  gives_readName.mpr ⟨rfl, h⟩

end ShapeScript
