/-
ShapeScript.Proofs.Token.Places — positions as counts.

The scanner keeps a line and a column and moves them on character by
character. Here both are counted anew from the text: the line of an index
is the number of line ends before it, the column the number of characters
since the last of them. `placeAt_succ` says that one step of the scanner
is one step of the count, and so a cursor that stands at the place of its
index (`Cursor.On`) does so after any of its moves.

An LF ends a line, and so does a CR, unless an LF follows it directly.
Between the two the line has not ended yet, and the CR does not count for
the column either.
-/
import Mathlib.Order.Basic
import ShapeScript.Proofs.Token.Scanning

namespace ShapeScript

/-! ## Counting -/

/-- The character at an index ends a line. -/
def endsLineAt (text : List Char) (i : Nat) : Bool :=
  text[i]? == some '\n' || (text[i]? == some '\r' && text[i + 1]? != some '\n')

/-- The index lies between a CR and the LF directly behind it. -/
def splitsPair (text : List Char) (i : Nat) : Bool :=
  0 < i && text[i - 1]? == some '\r' && text[i]? == some '\n'

/-- How many of the characters before an index end a line. -/
def lineAt (text : List Char) (i : Nat) : Nat := (List.range i).countP (endsLineAt text)

/-- How many characters stand between the last line end before an index
and the index. -/
def sinceLineEnd (text : List Char) (i : Nat) : Nat :=
  ((List.range i).reverse.takeWhile fun j => !endsLineAt text j).length

/-- The position of an index: the line ends before it, and the characters
since the last of them without a CR whose LF is still to come. -/
def placeAt (text : List Char) (i : Nat) : Position :=
  ⟨lineAt text i, sinceLineEnd text i - if splitsPair text i then 1 else 0⟩

section Counting

variable {text : List Char} {i : Nat}

theorem lineAt_succ : lineAt text (i + 1) = lineAt text i + if endsLineAt text i then 1 else 0 := by
  simp [lineAt, List.range_succ]

theorem sinceLineEnd_succ :
    sinceLineEnd text (i + 1) = if endsLineAt text i then 0 else sinceLineEnd text i + 1 := by
  cases h : endsLineAt text i <;> simp [sinceLineEnd, List.range_succ, h]

theorem splitsPair_succ :
    splitsPair text (i + 1) = (text[i]? == some '\r' && text[i + 1]? == some '\n') := by
  simp [splitsPair]

/-- Only an LF stands behind the CR of a pair. -/
theorem splitsPair_eq_false {c : Char} (h : text[i]? = some c) (hc : c ≠ '\n') :
    splitsPair text i = false := by
  simp [splitsPair, h, hc]

theorem placeAt_zero : placeAt text 0 = .origin := by
  simp [placeAt, lineAt, sinceLineEnd, splitsPair, Position.origin]

/-- The place behind a character that ends a line. -/
theorem placeAt_succ_of_endsLine (h : endsLineAt text i) :
    placeAt text (i + 1) = ⟨(placeAt text i).line + 1, 0⟩ := by
  have hpair : splitsPair text (i + 1) = false := by
    rw [splitsPair_succ]
    simp only [endsLineAt, Bool.or_eq_true, Bool.and_eq_true, beq_iff_eq, bne_iff_ne] at h
    obtain h | ⟨_, h⟩ := h <;> simp [h]
  simp [placeAt, lineAt_succ, sinceLineEnd_succ, hpair, h]

/-- One step of the scanner is one step of the count. -/
theorem placeAt_succ {c : Char} (h : text[i]? = some c) :
    placeAt text (i + 1) = (placeAt text i).after c text[i + 1]? := by
  unfold Position.after
  by_cases hpair : c = '\r' ∧ text[i + 1]? = some '\n'
  · obtain ⟨rfl, hnext⟩ := hpair
    have hends : endsLineAt text i = false := by simp [endsLineAt, h, hnext]
    have hbefore : splitsPair text i = false := splitsPair_eq_false h (by decide)
    have hbetween : splitsPair text (i + 1) = true := by simp [splitsPair_succ, h, hnext]
    simp [placeAt, lineAt_succ, sinceLineEnd_succ, hends, hbefore, hbetween, hnext]
  · rw [if_neg hpair]
    by_cases hbreak : c = '\n' ∨ c = '\r'
    · have hends : endsLineAt text i = true := by
        obtain rfl | rfl := hbreak
        · simp [endsLineAt, h]
        · simp only [true_and] at hpair
          simp [endsLineAt, h, hpair]
      rw [if_pos hbreak, placeAt_succ_of_endsLine hends]
    · obtain ⟨hlf, hcr⟩ := not_or.mp hbreak
      have hends : endsLineAt text i = false := by simp [endsLineAt, h, hlf, hcr]
      have hbefore : splitsPair text i = false := splitsPair_eq_false h hlf
      have hbehind : splitsPair text (i + 1) = false := by simp [splitsPair_succ, h, hcr]
      simp [placeAt, lineAt_succ, sinceLineEnd_succ, hends, hbefore, hbehind, hlf, hcr]

end Counting

/-! ## Line breaks -/

/-- The ways to break a line, with the text behind the break: a CR is one
by itself if no LF follows. -/
inductive LineBreak : List Char → List Char → Prop
  | lf {rest : List Char} : LineBreak ['\n'] rest
  | crlf {rest : List Char} : LineBreak ['\r', '\n'] rest
  | cr {rest : List Char} (hrest : rest.head? ≠ some '\n') : LineBreak ['\r'] rest

/-- A line break of any kind counts as one line, and the next starts
behind it. -/
theorem placeAt_lineBreak {before brk rest : List Char} (h : LineBreak brk rest) :
    placeAt (before ++ (brk ++ rest)) (before.length + brk.length) =
      ⟨(placeAt (before ++ (brk ++ rest)) before.length).line + 1, 0⟩ := by
  cases h with
  | lf => exact placeAt_succ_of_endsLine (by simp [endsLineAt])
  | cr hrest =>
    refine placeAt_succ_of_endsLine ?_
    rw [List.head?_eq_getElem?] at hrest
    simpa [endsLineAt, List.getElem?_append_right] using hrest
  | crlf =>
    have hpair : placeAt (before ++ ('\r' :: '\n' :: rest)) (before.length + 1) =
        placeAt (before ++ ('\r' :: '\n' :: rest)) before.length := by
      rw [placeAt_succ (c := '\r') (by simp)]
      simp [Position.after]
    show placeAt (before ++ ('\r' :: '\n' :: rest)) (before.length + 1 + 1) = _
    rw [placeAt_succ_of_endsLine (by simp [endsLineAt]), hpair]
    rfl

/-! ## The order of positions -/

/-- Positions are ordered as they are read: line by line, and by columns
within a line. -/
instance : PartialOrder Position where
  le p q := p.line < q.line ∨ p.line = q.line ∧ p.column ≤ q.column
  lt p q := p.line < q.line ∨ p.line = q.line ∧ p.column < q.column
  le_refl p := .inr ⟨rfl, Int.le_refl _⟩
  le_trans p q r hpq hqr := by omega
  lt_iff_le_not_ge p q := by omega
  le_antisymm p q hpq hqp := by
    cases p
    cases q
    simp only [Position.mk.injEq]
    dsimp only at hpq hqp
    omega

theorem Position.lt_iff {p q : Position} :
    p < q ↔ p.line < q.line ∨ p.line = q.line ∧ p.column < q.column :=
  Iff.rfl

theorem Position.le_after (p : Position) (c : Char) (next : Option Char) : p ≤ p.after c next := by
  unfold Position.after
  split
  · exact le_refl p
  · refine le_of_lt (Position.lt_iff.mpr ?_)
    split
    · exact .inl (Int.lt_succ _)
    · exact .inr ⟨rfl, Int.lt_succ _⟩

/-- Every character but a CR moves the position on. -/
theorem Position.lt_after (p : Position) {c : Char} (hc : c ≠ '\r') (next : Option Char) :
    p < p.after c next := by
  rw [Position.after, if_neg fun h => hc h.1, Position.lt_iff]
  split
  · exact .inl (Int.lt_succ _)
  · exact .inr ⟨rfl, Int.lt_succ _⟩

theorem placeAt_le_placeAt {text : List Char} {i j : Nat} (h : i ≤ j) (hj : j ≤ text.length) :
    placeAt text i ≤ placeAt text j := by
  induction j, h using Nat.le_induction with
  | base => exact le_refl _
  | succ j _ ih =>
    obtain ⟨c, hc⟩ : ∃ c, text[j]? = some c := ⟨_, List.getElem?_eq_getElem hj⟩
    rw [placeAt_succ hc]
    exact le_trans (ih (Nat.le_of_succ_le hj)) (Position.le_after _ c _)

/-! ## Cursors -/

namespace Cursor

/-- The cursor stands in the text at its index: the rest of the text is
unread, and its position is the place of the index. -/
structure On (text : List Char) (c : Cursor) : Prop where
  index_le : c.index ≤ text.length
  rest_eq : c.rest = text.drop c.index
  pos_eq : c.pos = placeAt text c.index

variable {text : List Char} {c d : Cursor}

theorem on_start (source : String) : (start source).On (Text.strip source.toList) where
  index_le := Nat.zero_le _
  rest_eq := rfl
  pos_eq := placeAt_zero.symm

theorem On.forward (h : c.On text) : c.forward.On text := by
  unfold Cursor.forward
  split
  · exact h
  · rename_i x rest hrest
    have hdrop : text.drop c.index = x :: rest := h.rest_eq ▸ hrest
    have hx : text[c.index]? = some x := by
      rw [← List.head?_drop, hdrop, List.head?_cons]
    have hnext : rest = text.drop (c.index + 1) := by
      rw [← List.drop_drop, hdrop, List.drop_one, List.tail_cons]
    refine ⟨(List.getElem?_eq_some_iff.mp hx).1, hnext, ?_⟩
    show c.pos.after x rest.head? = placeAt text (c.index + 1)
    rw [placeAt_succ hx, h.pos_eq, hnext, List.head?_drop]

theorem On.forwardBy (h : c.On text) (n : Nat) : (c.forwardBy n).On text := by
  induction n generalizing c with
  | zero => exact h
  | succ n ih => exact ih h.forward

theorem index_le_forward (c : Cursor) : c.index ≤ c.forward.index := by
  unfold Cursor.forward
  split
  · exact Nat.le_refl _
  · exact Nat.le_succ _

theorem index_le_forwardBy (n : Nat) (c : Cursor) : c.index ≤ (c.forwardBy n).index := by
  induction n generalizing c with
  | zero => exact Nat.le_refl _
  | succ n ih => exact Nat.le_trans c.index_le_forward (ih c.forward)

/-- Moving on in two steps. -/
theorem forwardBy_add (m n : Nat) (c : Cursor) :
    c.forwardBy (m + n) = (c.forwardBy m).forwardBy n := by
  induction m generalizing c with
  | zero => rw [Nat.zero_add]; rfl
  | succ m ih => rw [Nat.succ_add]; exact ih c.forward

end Cursor

end ShapeScript
