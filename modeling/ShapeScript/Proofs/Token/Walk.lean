/-
ShapeScript.Proofs.Token.Walk — reading by an index, with no promise to end.

A reader is given the unread tokens, and its type bounds how many of them
it leaves. That bound is why its recursion is accepted, so nothing can be
said about a reader that does not end. A `Walk` has no bound. It moves an
index along a token list, an error leaves the index where it is, and where
it calls itself or goes round it is told how often it may. A walk for which
that is not enough has no outcome, and one that goes round for ever has
none, however often it may.

`Walk.Follows` says that a walk ends, with the answer of a reading and in
front of the tokens which that leaves unread, and how far it has come.
`Walk.Tracks` says it of a reader from every index, for walks that may go
round twice for every unread token. There is one lemma for each way of
composing readings and one for each reader.
-/
import ShapeScript.Proofs.Reading

namespace ShapeScript

/-- Moves an index along a token list, to a value or an error, or gives
up. -/
abbrev Walk (α : Type) : Type := ExceptT ParseError (StateT Nat Option) α

namespace Walk

variable {α β : Type}

/-- What a walk comes to that starts at an index: its value or error, and
the index after it. -/
def outcome (w : Walk α) (start : Nat) : Option (Except ParseError α × Nat) := w.run.run start

/-- The walk that gives up. -/
def exhausted : Walk α := ExceptT.mk fun _ => none

section Outcomes

variable {w : Walk α} {next : α → Walk β} {i j : Nat} {a : α} {e : ParseError}

theorem outcome_pure : (pure a : Walk α).outcome i = some (.ok a, i) := rfl

theorem outcome_throw : (throw e : Walk α).outcome i = some (.error e, i) := rfl

/-- A walk that comes to a value is replaced by it. -/
theorem outcome_bind_of_ok (h : w.outcome i = some (.ok a, j)) :
    (w >>= next).outcome i = (next a).outcome j := by
  change ((w.outcome i).bind _ : Option (Except ParseError β × Nat)) = _
  rw [h]
  rfl

/-- A walk that comes to an error is all of what it starts. -/
theorem outcome_bind_of_error (h : w.outcome i = some (.error e, j)) :
    (w >>= next).outcome i = some (.error e, j) := by
  change ((w.outcome i).bind _ : Option (Except ParseError β × Nat)) = _
  rw [h]
  rfl

end Outcomes

/-! ## Single tokens -/

section Tokens

variable (tokens : List Token)

/-- The next token, if one is left. -/
def peek : Walk (Option Token) := do
  let index ← getThe Nat
  return tokens[index]?

/-- The next token is of a kind. -/
def check (kind : LexemeKind) : Walk Bool := do
  match ← peek tokens with
  | some t => return t.kind == kind
  | none => return false

/-- Consumes the next token. -/
def advance : Walk Token := do
  match ← peek tokens with
  | some t => do
    modifyThe Nat (· + 1)
    return t
  | none => throw ⟨.unexpectedEnd, endOf tokens⟩

/-- Consumes the next token if it is of a kind. -/
def accept (kind : LexemeKind) : Walk (Option Token) := do
  if ← check tokens kind then
    let t ← advance tokens
    return some t
  else
    return none

/-- Consumes the next token, which should be of a kind. -/
def expect (kind : LexemeKind) (what : String) : Walk Token := do
  let t ← advance tokens
  if t.kind = kind then return t else throw ⟨.expected what t.kind, t.pos⟩

/-- Consumes the next token, which should be a name that is not reserved. -/
def name : Walk Spelled := do
  let t ← advance tokens
  match t.lexeme with
  | .identifier name =>
    if isReserved name then throw ⟨.reservedWord name, t.pos⟩ else return ⟨name, t.span⟩
  | _ => throw ⟨.expected "an identifier" t.kind, t.pos⟩

end Tokens

/-! ## Where a walk stands -/

/-- At the index `i` of the tokens, `ts` are unread. -/
structure At (tokens : List Token) (i : Nat) (ts : List Token) : Prop where
  le_length : i ≤ tokens.length
  drop_eq : tokens.drop i = ts

/-- The index behind the next token, or the end if none is left. -/
def beyond (tokens : List Token) (i : Nat) : Nat := min (i + 1) tokens.length

namespace At

variable {tokens rest : List Token} {t : Token} {i : Nat}

/-- Nothing is unread only at the end. -/
theorem eq_length (h : At tokens i []) : i = tokens.length :=
  Nat.le_antisymm h.le_length (List.drop_eq_nil_iff.mp h.drop_eq)

/-- Where a token is unread, the end is not reached. -/
theorem lt_length (h : At tokens i (t :: rest)) : i < tokens.length := by
  rw [← Nat.not_le, ← List.drop_eq_nil_iff, h.drop_eq]
  exact List.cons_ne_nil t rest

/-- The token at the index is the first unread one. -/
theorem getElem?_eq {ts : List Token} (h : At tokens i ts) : tokens[i]? = ts.head? := by
  rw [← h.drop_eq, List.head?_drop]

/-- Behind the next token the others are unread. -/
theorem tail (h : At tokens i (t :: rest)) : At tokens (i + 1) rest where
  le_length := h.lt_length
  drop_eq := by rw [← List.drop_drop, h.drop_eq, List.drop_one, List.tail_cons]

/-- The unread tokens tell the index. -/
theorem unique {ts : List Token} {j : Nat} (h : At tokens i ts) (h' : At tokens j ts) : i = j := by
  have hi := congrArg List.length h.drop_eq
  have hj := congrArg List.length h'.drop_eq
  rw [List.length_drop] at hi hj
  have hle := h.le_length
  have hle' := h'.le_length
  omega

theorem beyond_nil (h : At tokens i []) : beyond tokens i = i := by
  rw [beyond, ← h.eq_length]
  exact Nat.min_eq_right (Nat.le_succ i)

theorem beyond_cons (h : At tokens i (t :: rest)) : beyond tokens i = i + 1 :=
  Nat.min_eq_left h.lt_length

theorem le_beyond {ts : List Token} (h : At tokens i ts) : i ≤ beyond tokens i :=
  Nat.le_min.mpr ⟨Nat.le_succ i, h.le_length⟩

end At

/-- The walk that starts at `start` ends as the reading does: with its
answer, and at an index at which the tokens are unread that the reading
leaves. The index is `low` at least. -/
def Follows (tokens : List Token) (low start : Nat) (w : Walk α) {n : Nat} (r : Reading α n) :
    Prop :=
  ∃ index, w.outcome start = some (r.result, index) ∧ low ≤ index ∧ At tokens index r.rest

namespace Follows

variable {tokens ts rest : List Token} {low low' start i m n : Nat} {w : Walk α}
variable {next : α → Walk β} {r : Reading α n}

/-- A walk that comes as far as one index comes as far as those before it. -/
theorem mono (h : Follows tokens low start w r) (hlow : low' ≤ low) :
    Follows tokens low' start w r := by
  obtain ⟨index, hw, hindex, hat⟩ := h
  exact ⟨index, hw, Nat.le_trans hlow hindex, hat⟩

/-- What is followed does not depend on the bound of the reading. -/
theorem within (h : Follows tokens low start w r) (hn : n ≤ m) :
    Follows tokens low start w (r.within hn) := by
  cases r <;> exact h

theorem below (h : Follows tokens low start w r) (hn : n < m) :
    Follows tokens low start w (r.below hn) :=
  h.within (Nat.le_of_lt hn)

theorem ok {a : α} {short : ts.length < n} (hat : At tokens i ts) (hlow : low ≤ i) :
    Follows tokens low i (pure a) (.ok a ts short) :=
  ⟨i, outcome_pure, hlow, hat⟩

theorem error {e : ParseError} {fits : ts.length ≤ n} (hat : At tokens i ts) (hlow : low ≤ i) :
    Follows tokens low i (throw e : Walk α) (.error e ts fits) :=
  ⟨i, outcome_throw, hlow, hat⟩

theorem failed {e : ParseError} {short : ts.length < n} (hat : At tokens i ts) (hlow : low ≤ i) :
    Follows tokens low i (throw e : Walk α) (.failed e ts short) :=
  error hat hlow

/-- A walk that starts with one whose value is known goes on behind it. -/
theorem after {a : α} {s : Reading β n} (h : w.outcome start = some (.ok a, i))
    (hnext : Follows tokens low i (next a) s) : Follows tokens low start (w >>= next) s := by
  obtain ⟨index, hout, hlow, hat⟩ := hnext
  exact ⟨index, (outcome_bind_of_ok h).trans hout, hlow, hat⟩

/-- A walk that starts with one that fails is over. -/
theorem stop {e : ParseError} {fits : ts.length ≤ m} (h : w.outcome start = some (.error e, i))
    (hat : At tokens i ts) (hlow : low ≤ i) :
    Follows tokens low start (w >>= next) (.error e ts fits : Reading β m) :=
  ⟨i, outcome_bind_of_error h, hlow, hat⟩

/-- What follows starts wherever the first walk ends, and is known to go on
from there. -/
theorem andThen {more : α → (rest : List Token) → rest.length < n → Reading β n}
    (h : Follows tokens low start w r)
    (hnext : ∀ a i rest short, At tokens i rest →
      Follows tokens i i (next a) (more a rest short)) :
    Follows tokens low start (w >>= next) (r.andThen more) := by
  obtain ⟨i, hw, hlow, hat⟩ := h
  cases r with
  | ok a rest short => exact after hw ((hnext a i rest short hat).mono hlow)
  | error e rest fits => exact stop hw hat hlow

theorem map {f : α → β} (h : Follows tokens low start w r) :
    Follows tokens low start (do return f (← w)) (r.map f) := by
  obtain ⟨i, hw, hlow, hat⟩ := h
  cases r with
  | ok a rest short => exact after hw (ok hat hlow)
  | error e rest fits => exact stop hw hat hlow

end Follows

/-- Told `fuel`, the walk does what the reader does with the unread tokens,
from every index where `fuel` is more than twice their number; and it moves
on where a token is left. -/
def Tracks (tokens : List Token) (fuel : Nat) (w : Walk α)
    (read : (ts : List Token) → Reading α ts.length) : Prop :=
  ∀ i ts, At tokens i ts → 2 * ts.length < fuel →
    Follows tokens (beyond tokens i) i w (read ts)

/-- The tokens left are fewer than at the start, so what was enough there is
enough for what follows. -/
theorem Follows.thenRead {tokens : List Token} {low start n fuel : Nat} {w : Walk α}
    {r : Reading α n} {next : α → Walk β} {more : α → (rest : List Token) → Reading β rest.length}
    (h : Follows tokens low start w r) (hn : 2 * n < fuel)
    (hnext : ∀ a, Tracks tokens fuel (next a) (more a)) :
    Follows tokens low start (w >>= next) (r.thenRead more) := by
  refine h.andThen fun a i rest short hat => ?_
  have hrest : 2 * rest.length < fuel := by omega
  exact ((hnext a i rest hat hrest).mono hat.le_beyond).below short

namespace Tracks

variable {tokens : List Token} {fuel : Nat} {w : Walk α}
variable {read : (ts : List Token) → Reading α ts.length}

theorem thenRead {next : α → Walk β} {more : α → (rest : List Token) → Reading β rest.length}
    (h : Tracks tokens fuel w read) (hnext : ∀ a, Tracks tokens fuel (next a) (more a)) :
    Tracks tokens fuel (w >>= next) fun ts => (read ts).thenRead more :=
  fun i ts hat hfuel => (h i ts hat hfuel).thenRead hfuel hnext

theorem map {f : α → β} (h : Tracks tokens fuel w read) :
    Tracks tokens fuel (do return f (← w)) fun ts => (read ts).map f :=
  fun i ts hat hfuel => (h i ts hat hfuel).map

end Tracks

/-! ## Single tokens are followed -/

section Outcomes

variable {tokens ts rest : List Token} {t : Token} {i : Nat} {kind : LexemeKind}

/-- Looking at the next token does not move the index. -/
theorem outcome_peek (hat : At tokens i ts) :
    (peek tokens).outcome i = some (.ok ts.head?, i) := by
  rw [← hat.getElem?_eq]
  rfl

/-- Asking for its kind does not move it either. -/
theorem outcome_check (hat : At tokens i ts) (kind : LexemeKind) :
    (check tokens kind).outcome i = some (.ok (nextIs kind ts), i) := by
  rw [check, outcome_bind_of_ok (outcome_peek hat)]
  cases ts <;> rfl

/-- At the end no token can be consumed, and the index stays. -/
theorem outcome_advance_nil (hat : At tokens i []) :
    (advance tokens).outcome i = some (.error ⟨.unexpectedEnd, endOf tokens⟩, i) := by
  rw [advance, outcome_bind_of_ok (outcome_peek hat)]
  rfl

/-- Otherwise the index moves by one. -/
theorem outcome_advance_cons (hat : At tokens i (t :: rest)) :
    (advance tokens).outcome i = some (.ok t, i + 1) := by
  rw [advance, outcome_bind_of_ok (outcome_peek hat)]
  rfl

theorem outcome_accept_of_nextIs (hat : At tokens i (t :: rest))
    (hkind : nextIs kind (t :: rest) = true) :
    (accept tokens kind).outcome i = some (.ok (some t), i + 1) := by
  rw [accept, outcome_bind_of_ok (outcome_check hat kind), hkind, if_pos rfl,
    outcome_bind_of_ok (outcome_advance_cons hat)]
  rfl

/-- A token of another kind is not consumed. -/
theorem outcome_accept_of_not_nextIs (hat : At tokens i ts) (hkind : nextIs kind ts = false) :
    (accept tokens kind).outcome i = some (.ok none, i) := by
  rw [accept, outcome_bind_of_ok (outcome_check hat kind), hkind]
  rfl

end Outcomes

section Readers

variable (tokens : List Token) (fuel : Nat)

/-- Consuming a token, the walk is beyond the next one, or at the end. -/
theorem advance_tracks : Tracks tokens fuel (advance tokens) (readToken (endOf tokens)) := by
  intro i ts hat _
  cases ts with
  | nil => exact ⟨i, outcome_advance_nil hat, Nat.le_of_eq hat.beyond_nil, hat⟩
  | cons t rest =>
    exact ⟨i + 1, outcome_advance_cons hat, Nat.le_of_eq hat.beyond_cons, hat.tail⟩

/-- The token is consumed even if it is of a wrong kind. -/
theorem expect_tracks (kind : LexemeKind) (what : String) :
    Tracks tokens fuel (expect tokens kind what)
      (ShapeScript.expect (endOf tokens) kind what) := by
  intro i ts hat hfuel
  refine (advance_tracks tokens fuel i ts hat hfuel).andThen fun t j rest short hrest => ?_
  split
  · exact .ok hrest (Nat.le_refl j)
  · exact .failed hrest (Nat.le_refl j)

/-- The token is consumed even if it is no name, or a reserved one. -/
theorem name_tracks : Tracks tokens fuel (name tokens) (readName (endOf tokens)) := by
  intro i ts hat hfuel
  refine (advance_tracks tokens fuel i ts hat hfuel).andThen fun t j rest short hrest => ?_
  cases t.lexeme with
  | identifier name =>
    dsimp only
    split
    · exact .failed hrest (Nat.le_refl j)
    · exact .ok hrest (Nat.le_refl j)
  | _ => exact .failed hrest (Nat.le_refl j)

end Readers

/-! ## Lists -/

/-- Consumes one or more items with commas between them. -/
def separated (tokens : List Token) (item : Walk α) : Nat → Walk (List α)
  | 0 => exhausted
  | fuel + 1 => do
    let a ← item
    match ← accept tokens .comma with
    | some _ => do return a :: (← separated tokens item fuel)
    | none => return [a]

/-- Consumes items with commas between them up to a closing parenthesis,
and that too; there may be none. -/
def enclosed (tokens : List Token) (item : Walk α) (closing : String) (fuel : Nat) :
    Walk (List α × Token) := do
  let items ← if ← check tokens .closeParen then pure [] else separated tokens item fuel
  let t ← expect tokens .closeParen closing
  return (items, t)

namespace Tracks

variable {tokens : List Token} {fuel : Nat} {item : Walk α}
variable {read : (ts : List Token) → Reading α ts.length}

/-- Every round of a list but its last consumes a comma. -/
theorem separated_follows (h : Tracks tokens fuel item read) (rounds : Nat) {i : Nat}
    {ts : List Token} (hat : At tokens i ts) (hfuel : 2 * ts.length < fuel)
    (hrounds : ts.length < rounds) :
    Follows tokens (beyond tokens i) i (separated tokens item rounds) (readSeparated read ts) := by
  induction rounds generalizing i ts with
  | zero => exact absurd hrounds (Nat.not_lt_zero _)
  | succ rounds ih =>
    rw [Walk.separated, readSeparated]
    refine (h i ts hat hfuel).andThen fun a j rest short hrest => ?_
    cases rest with
    | nil => exact .after (outcome_accept_of_not_nextIs hrest rfl) (.ok hrest (Nat.le_refl j))
    | cons t more =>
      obtain ⟨lexeme, span⟩ := t
      cases lexeme with
      | comma =>
        have hshorter : more.length + 1 < ts.length := short
        have hlater := ih hrest.tail (by omega) (by omega)
        refine .after (outcome_accept_of_nextIs hrest rfl) ((hlater.map.below _).mono ?_)
        exact Nat.le_trans (Nat.le_succ j) hrest.tail.le_beyond
      | _ => exact .after (outcome_accept_of_not_nextIs hrest rfl) (.ok hrest (Nat.le_refl j))

/-- The unread tokens are a bound on the rounds of a list. -/
theorem separated (h : Tracks tokens fuel item read) :
    Tracks tokens fuel (separated tokens item fuel) (readSeparated read) := by
  intro i ts hat hfuel
  have hrounds : ts.length < fuel := by omega
  exact h.separated_follows fuel hat hfuel hrounds

/-- Whether there are items is decided by looking ahead. -/
theorem enclosed (h : Tracks tokens fuel item read) (closing : String) :
    Tracks tokens fuel (enclosed tokens item closing fuel)
      (readEnclosed (endOf tokens) read closing) := by
  intro i ts hat hfuel
  have hcheck := outcome_check hat .closeParen
  rw [Walk.enclosed, readEnclosed]
  cases hnext : nextIs .closeParen ts with
  | true =>
    rw [hnext] at hcheck
    refine .after hcheck (.after outcome_pure ?_)
    exact (expect_tracks tokens fuel _ _ i ts hat hfuel).map
  | false =>
    rw [hnext] at hcheck
    refine .after hcheck ((h.separated i ts hat hfuel).thenRead hfuel fun _ => ?_)
    exact (expect_tracks tokens fuel _ _).map

end Tracks

end Walk

end ShapeScript
