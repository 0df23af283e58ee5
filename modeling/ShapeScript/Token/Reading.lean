/-
ShapeScript.Token.Reading — reading things off a token list.

A reader takes the unread tokens and answers with a `Reading`: a value
or an error, and the tokens that are then unread. An error leaves the
tokens consumed that were looked at on the way to it. The answer is
indexed by a bound: fewer tokens than that stay unread after a success,
at most as many after an error. A reader that must consume a token has
the number of its tokens as the bound, and so recursion on what is
unread ends.

When the tokens run out, the error is reported where the list ended,
which the readers are told as `finish`.
-/
import ShapeScript.Problem
import ShapeScript.Program

namespace ShapeScript

/-- The answer of a reader, with what is unread after it. -/
inductive Reading (α : Type) (bound : Nat) where
  | ok (value : α) (rest : List Token) (short : rest.length < bound)
  | error (e : ParseError) (rest : List Token) (fits : rest.length ≤ bound)

namespace Reading

variable {α β : Type} {m n : Nat}

/-- The tokens that are unread. -/
def rest : Reading α n → List Token
  | ok _ rest _ | error _ rest _ => rest

/-- The value or the error. -/
def result : Reading α n → Except ParseError α
  | ok a _ _ => .ok a
  | error e _ _ => .error e

/-- The answer under a weaker bound. -/
def within (h : m ≤ n) : Reading α m → Reading α n
  | ok a rest short => ok a rest (Nat.lt_of_lt_of_le short h)
  | error e rest fits => error e rest (Nat.le_trans fits h)

/-- The answer under a strictly weaker bound. -/
def below (h : m < n) (r : Reading α m) : Reading α n := r.within (Nat.le_of_lt h)

/-- An error after a token was consumed. -/
def failed (e : ParseError) (rest : List Token) (short : rest.length < n) : Reading α n :=
  error e rest (Nat.le_of_lt short)

/-- The answer with its value changed. -/
def map (f : α → β) : Reading α n → Reading β n
  | ok a rest short => ok (f a) rest short
  | error e rest fits => error e rest fits

/-- Goes on with what is unread after a success. -/
def andThen (r : Reading α n)
    (next : α → (rest : List Token) → rest.length < n → Reading β n) : Reading β n :=
  match r with
  | ok a rest short => next a rest short
  | error e rest fits => error e rest fits

/-- Goes on with a reader that consumes a token of what is unread. -/
def thenRead (r : Reading α n) (next : α → (rest : List Token) → Reading β rest.length) :
    Reading β n :=
  r.andThen fun a rest short => (next a rest).below short

/-- No token stays unread. -/
def complete (r : Reading α n) (wanted : String) : Except ParseError α :=
  match r with
  | ok a [] _ => .ok a
  | ok _ (t :: _) _ => .error ⟨.expected wanted t.kind, t.pos⟩
  | error e _ _ => .error e

end Reading

/-! ## Single tokens -/

/-- Reads any token. -/
def readToken (finish : Position) : (ts : List Token) → Reading Token ts.length
  | [] => .error ⟨.unexpectedEnd, finish⟩ [] (Nat.le_refl _)
  | t :: rest => .ok t rest (Nat.lt_succ_self _)

/-- The next token is of a kind. -/
def nextIs (kind : LexemeKind) : List Token → Bool
  | [] => false
  | t :: _ => t.kind == kind

/-- Reads a token of a kind; a token of another kind is consumed by the
error that says `what` was wanted. -/
def expect (finish : Position) (kind : LexemeKind) (what : String) (ts : List Token) :
    Reading Token ts.length :=
  (readToken finish ts).andThen fun t rest h =>
    if t.kind = kind then .ok t rest h
    else .failed ⟨.expected what t.kind, t.pos⟩ rest h

/-- A name and the span it was read from. -/
structure Spelled where
  name : String
  span : Span
  deriving Repr

/-- Reads a name that is not reserved. -/
def readName (finish : Position) (ts : List Token) : Reading Spelled ts.length :=
  (readToken finish ts).andThen fun t rest h =>
    match t.lexeme with
    | .identifier name =>
      if isReserved name then .failed ⟨.reservedWord name, t.pos⟩ rest h
      else .ok ⟨name, t.span⟩ rest h
    | _ => .failed ⟨.expected "an identifier" t.kind, t.pos⟩ rest h

/-! ## Lists -/

/-- Reads one or more items with commas between them. -/
def readSeparated {α : Type} (item : (ts : List Token) → Reading α ts.length)
    (ts : List Token) : Reading (List α) ts.length :=
  (item ts).andThen fun a rest h =>
    match rest, h with
    | ⟨.comma, _⟩ :: more, h =>
      ((readSeparated item more).map (a :: ·)).below (Nat.lt_of_succ_lt h)
    | rest, h => .ok [a] rest h
termination_by ts.length
decreasing_by exact Nat.lt_of_succ_lt h

/-- Reads items with commas between them up to a closing parenthesis,
and that too; there may be none. Also gives the closing token. -/
def readEnclosed {α : Type} (finish : Position)
    (item : (ts : List Token) → Reading α ts.length) (closing : String) (ts : List Token) :
    Reading (List α × Token) ts.length :=
  if nextIs .closeParen ts then (expect finish .closeParen closing ts).map ([], ·)
  else
    (readSeparated item ts).thenRead fun items rest =>
      (expect finish .closeParen closing rest).map (items, ·)

end ShapeScript
