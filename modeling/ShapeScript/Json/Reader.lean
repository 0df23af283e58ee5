/-
ShapeScript.Json.Reader — JSON from text.

The reader takes the text as a list of characters and gives what is left
of it with each value, so what is left gets shorter and the reading
ends. It reads the words for the infinities and NaN as well, a number
without a fraction or an exponent as an integer, and of two members of
one name the later.
-/
import ShapeScript.Json
import ShapeScript.Number.Decimal

namespace ShapeScript.Json

/-- A value read, with what is left, which is shorter than `n`. -/
abbrev Part (α : Type) (n : Nat) := Option (α × { rest : List Char // rest.length < n })

/-- White space between the parts of a text. -/
def isSpace (c : Char) : Bool := c == ' ' || c == '\n' || c == '\r' || c == '\t'

/-- The text without the white space at its start. -/
def skipSpace (cs : List Char) : List Char := cs.dropWhile isSpace

theorem length_dropWhile_le {α : Type} (p : α → Bool) (xs : List α) :
    (xs.dropWhile p).length ≤ xs.length :=
  (List.dropWhile_sublist p).length_le

theorem length_skipSpace_le (cs : List Char) : (skipSpace cs).length ≤ cs.length :=
  length_dropWhile_le _ cs

/-- A part changed into another, under a weaker bound. -/
def Part.change {α β : Type} {m n : Nat} (h : m ≤ n) (f : α → β) (p : Part α m) : Part β n :=
  p.map fun (a, rest) => (f a, ⟨rest.val, Nat.lt_of_lt_of_le rest.property h⟩)

/-! ## Strings -/

/-- The value of a hexadecimal digit. -/
def hexValue? (c : Char) : Option Nat :=
  if '0' ≤ c ∧ c ≤ '9' then some (c.toNat - '0'.toNat)
  else if 'a' ≤ c ∧ c ≤ 'f' then some (c.toNat - 'a'.toNat + 10)
  else if 'A' ≤ c ∧ c ≤ 'F' then some (c.toNat - 'A'.toNat + 10)
  else none

/-- The UTF-16 unit that four hexadecimal digits write. -/
def unit? (a b c d : Char) : Option Nat :=
  match hexValue? a, hexValue? b, hexValue? c, hexValue? d with
  | some a, some b, some c, some d => some (((a * 16 + b) * 16 + c) * 16 + d)
  | _, _, _, _ => none

/-- The character of a short escape. -/
def shortEscape? : Char → Option Char
  | '"' => some '"'
  | '\\' => some '\\'
  | '/' => some '/'
  | 'b' => some '\x08'
  | 'f' => some '\x0c'
  | 'n' => some '\n'
  | 'r' => some '\r'
  | 't' => some '\t'
  | _ => none

/-- The code point of a pair of UTF-16 units. -/
def pairValue (high low : Nat) : Nat := 0x10000 + (high - 0xD800) * 0x400 + (low - 0xDC00)

/-- Two units are a pair. -/
def isPair (high low : Nat) : Bool :=
  0xD800 ≤ high && high < 0xDC00 && 0xDC00 ≤ low && low < 0xE000

/-- A UTF-16 unit written with four digits. -/
def unitPart : (cs : List Char) → Part Nat cs.length
  | a :: b :: c :: d :: rest => (unit? a b c d).map fun u => (u, ⟨rest, by simp; omega⟩)
  | _ => none

/-- The character of the escapes that start with `u`: a unit, or a pair of
them. -/
def codePart (cs : List Char) : Part Char cs.length :=
  match unitPart cs with
  | none => none
  | some (high, rest) =>
    match _h : rest.val with
    | '\\' :: 'u' :: more =>
      match unitPart more with
      | some (low, after) =>
        if isPair high low then
          some (Char.ofNat (pairValue high low), ⟨after.val, by
            have := after.property; have := rest.property; simp_all; omega⟩)
        else some (Char.ofNat high, rest)
      | none => some (Char.ofNat high, rest)
    | _ => some (Char.ofNat high, rest)

/-- The character that an escape writes, after its backslash. -/
def escapePart : (cs : List Char) → Part Char cs.length
  | [] => none
  | 'u' :: rest => (codePart rest).change (Nat.le_succ _) id
  | c :: rest => (shortEscape? c).map fun c => (c, ⟨rest, Nat.lt_succ_self _⟩)

/-- The rest of a string literal, up to its closing quote. -/
def stringPart (cs : List Char) : Part (List Char) cs.length :=
  match cs with
  | [] => none
  | '"' :: rest => some ([], ⟨rest, Nat.lt_succ_self _⟩)
  | '\\' :: more =>
    match escapePart more with
    | none => none
    | some (c, rest) =>
      (stringPart rest.val).change (Nat.le_succ_of_le (Nat.le_of_lt rest.property)) (c :: ·)
  | c :: rest =>
    if c.toNat < 0x20 then none else (stringPart rest).change (Nat.le_succ _) (c :: ·)
termination_by cs.length
decreasing_by
  · have := rest.property; simp only [List.length_cons]; omega
  · simp only [List.length_cons]; omega

/-! ## Numbers -/

/-- A decimal digit. -/
def isNumeral (c : Char) : Bool := '0' ≤ c && c ≤ '9'

/-- The digits at the start of a text; there must be one. -/
def digitsPart (cs : List Char) : Part (List Char) cs.length :=
  match cs with
  | [] => none
  | c :: rest =>
    if isNumeral c then
      some (c :: rest.takeWhile isNumeral,
        ⟨rest.dropWhile isNumeral, Nat.lt_succ_of_le (length_dropWhile_le _ rest)⟩)
    else none

/-- The fraction of a number, if it has one. -/
def fractionPart (cs : List Char) : Option (List Char) × List Char :=
  match cs with
  | '.' :: more =>
    match digitsPart more with
    | some (ds, rest) => (some ds, rest.val)
    | none => (none, cs)
  | _ => (none, cs)

theorem length_fractionPart_le (cs : List Char) : (fractionPart cs).2.length ≤ cs.length := by
  unfold fractionPart
  split
  · split
    · rename_i rest _; have := rest.property; simp; omega
    · exact Nat.le_refl _
  · exact Nat.le_refl _

/-- The exponent of a number, if it has one. -/
def exponentPart (cs : List Char) : Option Int × List Char :=
  match cs with
  | e :: more =>
    if e = 'e' ∨ e = 'E' then
      match more with
      | '-' :: ds =>
        match digitsPart ds with
        | some (ds, rest) => (some (-(Number.valueOfDigits ds : Int)), rest.val)
        | none => (none, cs)
      | '+' :: ds =>
        match digitsPart ds with
        | some (ds, rest) => (some (Number.valueOfDigits ds : Int), rest.val)
        | none => (none, cs)
      | ds =>
        match digitsPart ds with
        | some (ds, rest) => (some (Number.valueOfDigits ds : Int), rest.val)
        | none => (none, cs)
    else (none, cs)
  | [] => (none, cs)

theorem length_exponentPart_le (cs : List Char) : (exponentPart cs).2.length ≤ cs.length := by
  unfold exponentPart
  split
  · split
    · split <;> split <;>
        first
        | exact Nat.le_refl _
        | (rename_i rest _; have := rest.property; simp at this ⊢; omega)
    · exact Nat.le_refl _
  · exact Nat.le_refl _

/-- The whole part of a number: digits, of which the first is no zero
unless it is the only one. -/
def wholePart (cs : List Char) : Part (List Char) cs.length :=
  match digitsPart cs with
  | some ('0' :: _ :: _, _) => none
  | part => part

/-- A number without its sign. -/
def numberPart (negative : Bool) (cs : List Char) : Part Json cs.length :=
  match wholePart cs with
  | none => none
  | some (whole, rest) =>
    let fraction := fractionPart rest.val
    let exponent := exponentPart fraction.2
    let left : { r : List Char // r.length < cs.length } :=
      ⟨exponent.2, Nat.lt_of_le_of_lt
        (Nat.le_trans (length_exponentPart_le _) (length_fractionPart_le _)) rest.property⟩
    match fraction.1, exponent.1 with
    | none, none =>
      let n : Int := Number.valueOfDigits whole
      some (int (if negative then -n else n), left)
    | ds, e =>
      let ds := ds.getD []
      some (number (Number.ofDecimal negative
        ⟨Number.valueOfDigits (whole ++ ds), e.getD 0 - ds.length⟩), left)

/-! ## Values -/

/-- The words that are values. -/
def words : List (String × Json) :=
  [("null", null), ("true", bool true), ("false", bool false),
   ("NaN", number (0.0 / 0.0)), ("Infinity", number (1.0 / 0.0)),
   ("-Infinity", number (-1.0 / 0.0))]

/-- A word that is a value, at the start of a text. -/
def wordPart (cs : List Char) : List (String × Json) → Part Json cs.length
  | [] => none
  | (word, v) :: more =>
    if h : word.toList.isPrefixOf cs ∧ 0 < word.length ∧ 0 < cs.length then
      some (v, ⟨cs.drop word.length, by simp; omega⟩)
    else wordPart cs more

mutual

/-- A value at the start of a text. -/
def valuePart (cs : List Char) : Part Json cs.length :=
  match cs with
  | '"' :: rest => (stringPart rest).change (Nat.le_succ _) (string <| String.ofList ·)
  | '[' :: rest =>
    if h : (skipSpace rest).head? = some ']' then
      some (array [], ⟨(skipSpace rest).tail, by
        have := length_skipSpace_le rest; simp; omega⟩)
    else (itemsPart (skipSpace rest)).change (Nat.le_succ_of_le (length_skipSpace_le rest)) array
  | '{' :: rest =>
    if h : (skipSpace rest).head? = some '}' then
      some (object [], ⟨(skipSpace rest).tail, by
        have := length_skipSpace_le rest; simp; omega⟩)
    else
      (membersPart (skipSpace rest) []).change (Nat.le_succ_of_le (length_skipSpace_le rest)) object
  | cs =>
    match wordPart cs words with
    | some part => some part
    | none =>
      match cs with
      | '-' :: rest => (numberPart true rest).change (Nat.le_succ _) id
      | cs => numberPart false cs
termination_by (cs.length, 0)
decreasing_by
  · have := length_skipSpace_le rest
    simp only [Prod.lex_def, List.length_cons]; omega
  · have := length_skipSpace_le rest
    simp only [Prod.lex_def, List.length_cons]; omega

/-- The items of an array, up to its closing bracket. -/
def itemsPart (cs : List Char) : Part (List Json) cs.length :=
  match valuePart cs with
  | none => none
  | some (v, rest) =>
    match _h : skipSpace rest.val with
    | ']' :: after => some ([v], ⟨after, by
        have := length_skipSpace_le rest.val; have := rest.property; simp_all; omega⟩)
    | ',' :: after =>
      have : after.length < cs.length := by
        have := length_skipSpace_le rest.val; have := rest.property; simp_all; omega
      (itemsPart (skipSpace after)).change
        (Nat.le_trans (length_skipSpace_le after) (Nat.le_of_lt this)) (v :: ·)
    | _ => none
termination_by (cs.length, 1)
decreasing_by
  · simp [Prod.lex_def]
  · have := length_skipSpace_le after
    simp only [Prod.lex_def]; omega

/-- The members of an object, up to its closing brace, added to those
before them. -/
def membersPart (cs : List Char) (before : List (String × Json)) :
    Part (List (String × Json)) cs.length :=
  match cs with
  | '"' :: more =>
    match stringPart more with
    | none => none
    | some (name, rest) =>
      match _h : skipSpace rest.val with
      | ':' :: after =>
        have hafter : after.length < more.length := by
          have := length_skipSpace_le rest.val; have := rest.property; simp_all; omega
        match valuePart (skipSpace after) with
        | none => none
        | some (v, rest) =>
          have hrest : rest.val.length < more.length := by
            have := length_skipSpace_le after; have := rest.property; omega
          let members := setMember before (String.ofList name) v
          match _h : skipSpace rest.val with
          | '}' :: after => some (members, ⟨after, by
              have := length_skipSpace_le rest.val; simp_all; omega⟩)
          | ',' :: after =>
            have hcomma : after.length < more.length := by
              have := length_skipSpace_le rest.val; simp_all; omega
            (membersPart (skipSpace after) members).change (by
              have := length_skipSpace_le after; simp only [List.length_cons]; omega) id
          | _ => none
      | _ => none
  | _ => none
termination_by (cs.length, 2)
decreasing_by
  · have := length_skipSpace_le after
    simp only [Prod.lex_def, List.length_cons]; omega
  · have := length_skipSpace_le after
    simp only [Prod.lex_def, List.length_cons]; omega

end

/-- The value that a text writes, white space around it aside. -/
def parse? (s : String) : Option Json :=
  match valuePart (skipSpace s.toList) with
  | some (v, rest) => if (skipSpace rest.val).isEmpty then some v else none
  | none => none

end ShapeScript.Json
