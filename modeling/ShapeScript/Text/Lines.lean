/-
ShapeScript.Text.Lines — line ends.

Two views of them are needed. A text read from a file or a pipe has its
CR LF pairs and lone CRs turned into LF. An editor splits a document at
more characters than the scanner does, and keeps each terminator with
the line it ends.
-/
namespace ShapeScript.Text

/-- CR LF and lone CR become LF. -/
def unifyLineEnds : List Char → List Char
  | [] => []
  | '\r' :: '\n' :: rest => '\n' :: unifyLineEnds rest
  | c :: rest => (if c = '\r' then '\n' else c) :: unifyLineEnds rest

/-- A character that ends a line of a document: LF, VT, FF, CR, the
controls U+001C to U+001E, NEL, and the line and paragraph separators. -/
def endsLine (c : Char) : Bool :=
  (0x0A ≤ c.toNat && c.toNat ≤ 0x0D) || (0x1C ≤ c.toNat && c.toNat ≤ 0x1E)
    || c.toNat == 0x85 || c.toNat == 0x2028 || c.toNat == 0x2029

/-- Puts a character in front of the first line. -/
def consToFirst (c : Char) : List (List Char) → List (List Char)
  | [] => [[c]]
  | line :: lines => (c :: line) :: lines

/-- The lines of a document, each with its terminator; CR LF is one
terminator, and a text that ends in a terminator has no line after it. -/
def lines : List Char → List (List Char)
  | [] => []
  | '\r' :: '\n' :: rest => ['\r', '\n'] :: lines rest
  | c :: rest => if endsLine c then [c] :: lines rest else consToFirst c (lines rest)

end ShapeScript.Text
