/-
ShapeScript.Token.Scanner — reading lexemes from a text.

The scanner stands somewhere in the text: a cursor holds the characters
not yet read, how many were read, and the position. Each of its steps
takes a cursor and gives the cursor it ends at, also when it fails, so a
failed step can be followed by another. `Cursor.next` reads one token
after any gap, `Cursor.tokens` all that remain, and `scan` a whole text
without the blanks around it.

A word or a number is the longest run of characters that can belong to
it; a string reaches to the next double quote. Every token consumes a
character, which is why `Cursor.tokens` ends.
-/
import ShapeScript.Problem
import ShapeScript.Text.Blank
import ShapeScript.Number.Decimal

namespace ShapeScript

/-- A place in a text: what is unread, how much is read, and where that
is. -/
structure Cursor where
  rest : List Char
  index : Nat
  pos : Position
  deriving DecidableEq, Repr

/-- Why a scanning step gives no token. A number's text without a digit
is a defect of whoever asked for a number there, not of the source. -/
inductive ScanFailure where
  | problem (e : LexError)
  | malformedNumber (text : String)

/-- What a scanning step gives, and the cursor it ends at. -/
abbrev Scanned (α : Type) := Except ScanFailure α × Cursor

/-! ## Classes of characters -/

/-- A letter of a name. -/
def isLetter (c : Char) : Bool := ('a' ≤ c && c ≤ 'z') || ('A' ≤ c && c ≤ 'Z')

/-- A decimal digit. -/
def isDigit (c : Char) : Bool := '0' ≤ c && c ≤ '9'

/-- A character that may follow the first letter of a name. -/
def isNameChar (c : Char) : Bool := isLetter c || isDigit c

/-- A character that separates lexemes. -/
def isGap (c : Char) : Bool := c == ' ' || c == '\t' || c == '\n' || c == '\r'

/-- The lexeme that a character is by itself. -/
def Lexeme.ofChar? : Char → Option Lexeme
  | '(' => some .openParen
  | ')' => some .closeParen
  | '{' => some .openBrace
  | '}' => some .closeBrace
  | '*' => some .times
  | '/' => some .divide
  | '+' => some .plus
  | '-' => some .minus
  | ':' => some .colon
  | ',' => some .comma
  | _ => none

/-- A number's text: digits, and if it has a point the digits after it. -/
structure NumberText where
  whole : List Char
  point : Bool
  fraction : List Char
  deriving DecidableEq, Repr

/-- The characters of a number's text. -/
def NumberText.chars (n : NumberText) : List Char :=
  n.whole ++ (if n.point then '.' :: n.fraction else [])

/-- The longest number's text at the start of a text: a point belongs to
it if no other point does. Both parts may lack digits. -/
def numberTextOf (cs : List Char) : NumberText :=
  match cs.dropWhile isDigit with
  | '.' :: more => ⟨cs.takeWhile isDigit, true, more.takeWhile isDigit⟩
  | _ => ⟨cs.takeWhile isDigit, false, []⟩

theorem whole_numberTextOf (cs : List Char) : (numberTextOf cs).whole = cs.takeWhile isDigit := by
  unfold numberTextOf; split <;> rfl

namespace Cursor

/-- A cursor at the start of a text, without the blanks around it. -/
def start (text : String) : Cursor := ⟨Text.strip text.toList, 0, .origin⟩

/-- The next character. -/
def peek (c : Cursor) : Option Char := c.rest.head?

/-- The cursor after the next character, if there is one. -/
def forward (c : Cursor) : Cursor :=
  match c.rest with
  | [] => c
  | x :: rest => ⟨rest, c.index + 1, c.pos.after x rest.head?⟩

/-- The cursor after the next `n` characters. -/
def forwardBy : Nat → Cursor → Cursor
  | 0, c => c
  | n + 1, c => forwardBy n c.forward

/-- The cursor after the run of characters in a class. -/
def skipWhile (p : Char → Bool) (c : Cursor) : Cursor :=
  c.forwardBy (c.rest.takeWhile p).length

/-- The cursor after a gap. -/
def skipGap (c : Cursor) : Cursor := c.skipWhile isGap

/-- A token from `c` to `d`. -/
def token (c d : Cursor) (lexeme : Lexeme) : Token := ⟨lexeme, ⟨c.pos, d.pos⟩⟩

/-- Reads `=` or `==`, taking the first character on trust. -/
def equals (c : Cursor) : Token × Cursor :=
  let one := c.forward
  if one.peek = some '=' then (c.token one.forward .compare, one.forward)
  else (c.token one .assign, one)

/-- Reads a string, taking the opening quote on trust. Without a closing
quote the cursor ends at the end of the text. -/
def string (c : Cursor) : Scanned Token :=
  let opened := c.forward
  let body := opened.rest.takeWhile (· != '"')
  let closing := opened.forwardBy body.length
  if closing.peek = some '"' then
    (.ok (c.token closing.forward (.string (String.ofList body))), closing.forward)
  else (.error (.problem ⟨.unterminatedString, c.pos⟩), closing)

/-- Reads a name. -/
def identifier (c : Cursor) : Scanned Token :=
  match c.rest with
  | [] => (.error (.problem ⟨.invalidIdentifier, c.pos⟩), c)
  | x :: _ =>
    if isLetter x then
      let name := c.rest.takeWhile isNameChar
      let after := c.forwardBy name.length
      (.ok (c.token after (.identifier (String.ofList name))), after)
    else (.error (.problem ⟨.invalidIdentifier, c.pos⟩), c)

/-- Reads a number: digits with at most one point among them. What was
read stays read when it holds no digit. -/
def number (c : Cursor) : Scanned Token :=
  let n := numberTextOf c.rest
  let after := c.forwardBy n.chars.length
  if n.whole.isEmpty && n.fraction.isEmpty then
    (.error (.malformedNumber (String.ofList n.chars)), after)
  else (.ok (c.token after (.number (Number.ofDigits n.whole n.fraction))), after)

/-- Reads the token at the cursor, which stands on the character `x`. -/
def tokenAt (c : Cursor) (x : Char) : Scanned Token :=
  match Lexeme.ofChar? x with
  | some lexeme => (.ok (c.token c.forward lexeme), c.forward)
  | none =>
    if x = '=' then (.ok c.equals.1, c.equals.2)
    else if x = '"' then c.string
    else if isLetter x then c.identifier
    else if isDigit x then c.number
    else (.error (.problem ⟨.unexpectedCharacter x, c.pos⟩), c)

/-- Skips a gap and reads a token, or gives none at the end of the
text. -/
def next (c : Cursor) : Scanned (Option Token) :=
  let here := c.skipGap
  match here.peek with
  | none => (.ok none, here)
  | some x =>
    match here.tokenAt x with
    | (.ok t, after) => (.ok (some t), after)
    | (.error e, after) => (.error e, after)

/-! ## Progress -/

@[simp] theorem rest_forward (c : Cursor) : c.forward.rest = c.rest.tail := by
  unfold forward; split <;> simp_all

@[simp] theorem rest_forwardBy (n : Nat) (c : Cursor) :
    (c.forwardBy n).rest = c.rest.drop n := by
  induction n generalizing c with
  | zero => rfl
  | succ n ih => simp [forwardBy, ih]

/-- Skipping a gap leaves no more to read. -/
theorem length_skipGap_le (c : Cursor) : c.skipGap.rest.length ≤ c.rest.length := by
  simp [skipGap, skipWhile]

/-- Reading a token leaves less to read. -/
theorem length_tokenAt_lt {c d : Cursor} {x : Char} {t : Token} (hx : c.peek = some x)
    (h : c.tokenAt x = (.ok t, d)) : d.rest.length < c.rest.length := by
  obtain ⟨rest, index, pos⟩ := c
  cases rest with
  | nil => simp [peek] at hx
  | cons y rest =>
    obtain rfl : y = x := by simpa [peek] using hx
    unfold tokenAt at h
    split at h
    · simp only [Prod.mk.injEq] at h
      obtain ⟨_, rfl⟩ := h
      simp
    · split at h
      · simp only [Prod.mk.injEq] at h
        obtain ⟨_, rfl⟩ := h
        unfold equals
        dsimp only
        split <;> simp only [rest_forward, List.length_tail, List.length_cons] <;> omega
      · split at h
        · unfold string at h
          dsimp only at h
          split at h
          · simp only [Prod.mk.injEq] at h
            obtain ⟨_, rfl⟩ := h
            simp only [rest_forward, rest_forwardBy, List.length_tail, List.length_drop,
              List.length_cons]
            omega
          · simp at h
        · split at h
          · rename_i hl
            simp only [identifier, hl, if_true, Prod.mk.injEq] at h
            obtain ⟨_, rfl⟩ := h
            simp only [rest_forwardBy, List.length_drop, List.takeWhile_cons, isNameChar, hl,
              Bool.true_or, ↓reduceIte, List.length_cons]
            omega
          · split at h
            · rename_i hd
              unfold number at h
              dsimp only at h
              split at h
              · simp at h
              · simp only [Prod.mk.injEq] at h
                obtain ⟨_, rfl⟩ := h
                have : 0 < (numberTextOf (y :: rest)).chars.length := by
                  simp [NumberText.chars, whole_numberTextOf, List.takeWhile, hd]
                simp only [rest_forwardBy, List.length_drop, List.length_cons]
                omega
            · simp at h

/-- A step that gives a token leaves less to read. -/
theorem length_next_lt {c d : Cursor} {t : Token} (h : c.next = (.ok (some t), d)) :
    d.rest.length < c.rest.length := by
  unfold next at h
  dsimp only at h
  split at h
  · simp at h
  · rename_i x hx
    split at h
    · rename_i t' after ht
      simp only [Prod.mk.injEq, Except.ok.injEq, Option.some.injEq] at h
      obtain ⟨_, rfl⟩ := h
      exact Nat.lt_of_lt_of_le (length_tokenAt_lt hx ht) (length_skipGap_le c)
    · simp at h

/-! ## Whole texts -/

/-- All tokens that remain. The first failure ends the reading, and the
cursor stays where it happened. -/
def tokens (c : Cursor) : Scanned (List Token) :=
  match _h : c.next with
  | (.error e, d) => (.error e, d)
  | (.ok none, d) => (.ok [], d)
  | (.ok (some t), d) =>
    match tokens d with
    | (.error e, last) => (.error e, last)
    | (.ok ts, last) => (.ok (t :: ts), last)
termination_by c.rest.length
decreasing_by exact length_next_lt _h

end Cursor

/-- The tokens of a text. -/
def scan (text : String) : Except ScanFailure (List Token) := (Cursor.start text).tokens.1

end ShapeScript
