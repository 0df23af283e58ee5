/-
ShapeScript.Proofs.Program.Grammar — the grammar of programs, and programs
written as lexemes.

The grammar is a language over lexemes, put together with product, sum and
star just as it is written down:

    program   := shape*
    shape     := "shape" name "(" [ parameter ("," parameter)* ] ")" block
    parameter := name [ "=" expression ]
    block     := "{" call* "}"
    call      := name "(" [ argument ("," argument)* ] ")"
    argument  := name ":" expression

`Program.lexemes` goes the other way and writes a tree. The lemmas named
`mem_…` say which words a rule derives, so that the theorems about readers
need not take products apart.
-/
import Mathlib.Computability.Language
import ShapeScript.Program
import ShapeScript.Proofs.Expr.Grammar

namespace ShapeScript

namespace Grammar

open scoped Computability

/-! ## Rules -/

/-- One lexeme. -/
def mark (l : Lexeme) : Language Lexeme := {[l]}

/-- A name that is not reserved. -/
def name : Language Lexeme := {w | ∃ n, isReserved n = false ∧ w = [.identifier n]}

def expression : Language Lexeme := {w | Expression w}

/-- One or more items with commas between them. -/
def separated (item : Language Lexeme) : Language Lexeme := item * (mark .comma * item)∗

/-- Any number of items with commas between them, in parentheses. -/
def enclosed (item : Language Lexeme) : Language Lexeme :=
  mark .openParen * (1 + separated item) * mark .closeParen

def argument : Language Lexeme := name * mark .colon * expression

def call : Language Lexeme := name * enclosed argument

def block : Language Lexeme := mark .openBrace * call∗ * mark .closeBrace

def parameter : Language Lexeme := name * (1 + mark .assign * expression)

def shape : Language Lexeme :=
  mark (.identifier shapeKeyword) * name * enclosed parameter * block

def program : Language Lexeme := shape∗

/-! ## Words of the rules -/

variable {item language : Language Lexeme} {l : Lexeme} {w : List Lexeme}

theorem mem_mark_mul : w ∈ mark l * language ↔ ∃ v ∈ language, w = l :: v := by
  rw [Language.mem_mul]
  constructor
  · intro h
    obtain ⟨_, rfl, v, hv, rfl⟩ := h
    exact ⟨v, hv, rfl⟩
  · intro h
    obtain ⟨v, hv, rfl⟩ := h
    exact ⟨[l], rfl, v, hv, rfl⟩

theorem mem_mul_mark : w ∈ language * mark l ↔ ∃ v ∈ language, w = v ++ [l] := by
  rw [Language.mem_mul]
  constructor
  · intro h
    obtain ⟨v, hv, _, rfl, rfl⟩ := h
    exact ⟨v, hv, rfl⟩
  · intro h
    obtain ⟨v, hv, rfl⟩ := h
    exact ⟨v, hv, [l], rfl, rfl⟩

theorem mem_name_mul :
    w ∈ name * language ↔
      ∃ n v, isReserved n = false ∧ v ∈ language ∧ w = .identifier n :: v := by
  rw [Language.mem_mul]
  constructor
  · intro h
    obtain ⟨_, ⟨n, hn, rfl⟩, v, hv, rfl⟩ := h
    exact ⟨n, v, hn, hv, rfl⟩
  · intro h
    obtain ⟨n, v, hn, hv, rfl⟩ := h
    exact ⟨_, ⟨n, hn, rfl⟩, v, hv, rfl⟩

/-- Between the parentheses there are items, or nothing. -/
theorem mem_enclosed :
    w ∈ enclosed item ↔
      ∃ v, (v = [] ∨ v ∈ separated item) ∧ w = .openParen :: (v ++ [.closeParen]) := by
  rw [enclosed, mul_assoc, mem_mark_mul]
  constructor
  · intro h
    obtain ⟨_, h, rfl⟩ := h
    obtain ⟨v, hv, rfl⟩ := mem_mul_mark.mp h
    exact ⟨v, hv, rfl⟩
  · intro h
    obtain ⟨v, hv, rfl⟩ := h
    exact ⟨_, mem_mul_mark.mpr ⟨v, hv, rfl⟩, rfl⟩

theorem mem_argument :
    w ∈ argument ↔
      ∃ n v, isReserved n = false ∧ Expression v ∧ w = .identifier n :: .colon :: v := by
  rw [argument, mul_assoc, mem_name_mul]
  constructor
  · intro h
    obtain ⟨n, _, hn, h, rfl⟩ := h
    obtain ⟨v, hv, rfl⟩ := mem_mark_mul.mp h
    exact ⟨n, v, hn, hv, rfl⟩
  · intro h
    obtain ⟨n, v, hn, hv, rfl⟩ := h
    exact ⟨n, _, hn, mem_mark_mul.mpr ⟨v, hv, rfl⟩, rfl⟩

/-- A default stands behind an equals sign. -/
theorem mem_parameter :
    w ∈ parameter ↔
      ∃ n v, isReserved n = false ∧ (v = [] ∨ ∃ u, Expression u ∧ v = .assign :: u) ∧
        w = .identifier n :: v := by
  rw [parameter, mem_name_mul]
  refine exists_congr fun n => exists_congr fun v => and_congr_right fun _ => ?_
  rw [Language.mem_add, Language.mem_one, mem_mark_mul]
  rfl

theorem mem_shape :
    w ∈ shape ↔
      ∃ n u v, isReserved n = false ∧ u ∈ enclosed parameter ∧ v ∈ block ∧
        w = .identifier shapeKeyword :: .identifier n :: (u ++ v) := by
  rw [shape, mul_assoc, mul_assoc, mem_mark_mul]
  constructor
  · intro h
    obtain ⟨_, h, rfl⟩ := h
    obtain ⟨n, _, hn, huv, rfl⟩ := mem_name_mul.mp h
    obtain ⟨u, hu, v, hv, rfl⟩ := Language.mem_mul.mp huv
    exact ⟨n, u, v, hn, hu, hv, rfl⟩
  · intro h
    obtain ⟨n, u, v, hn, hu, hv, rfl⟩ := h
    exact ⟨_, mem_name_mul.mpr ⟨n, _, hn, Language.append_mem_mul hu hv, rfl⟩, rfl⟩

/-- Arguments, parameters and calls start with a name. -/
theorem starts_of_mem_name_mul (h : w ∈ name * language) : ∃ n v, w = .identifier n :: v := by
  obtain ⟨n, v, _, _, rfl⟩ := mem_name_mul.mp h
  exact ⟨n, v, rfl⟩

theorem starts_of_mem_parameter (h : w ∈ parameter) : ∃ n v, w = .identifier n :: v :=
  starts_of_mem_name_mul h

theorem starts_of_mem_argument (h : w ∈ argument) : ∃ n v, w = .identifier n :: v := by
  rw [argument, mul_assoc] at h
  exact starts_of_mem_name_mul h

/-- One item, or one item, a comma and more items. -/
theorem separated_eq :
    separated item = item + item * (mark .comma * separated item) := by
  have hstar := Language.one_add_self_mul_kstar_eq_kstar (mark .comma * item)
  calc separated item = item * (1 + mark .comma * item * (mark .comma * item)∗) := by
        rw [hstar, separated]
    _ = item + item * (mark .comma * separated item) := by
        rw [mul_add, mul_one, mul_assoc, separated]

/-- A word of the star is empty, or a word of the language and more. -/
theorem mem_kstar_iff : w ∈ language∗ ↔ w = [] ∨ ∃ u ∈ language, ∃ v ∈ language∗, w = u ++ v := by
  rw [← Language.one_add_self_mul_kstar_eq_kstar, Language.mem_add, Language.mem_one,
    Language.mem_mul, Language.one_add_self_mul_kstar_eq_kstar]
  simp only [eq_comm]

end Grammar

/-! ## Writing trees -/

/-- Texts in parentheses with commas between them. -/
def enclosedLexemes (items : List (List Lexeme)) : List Lexeme :=
  .openParen :: ([Lexeme.comma].intercalate items ++ [.closeParen])

theorem mem_enclosedLexemes {items : List (List Lexeme)} {v : List Lexeme} {l : Lexeme}
    (hv : v ∈ items) (hl : l ∈ v) : l ∈ enclosedLexemes items := by
  refine List.mem_cons_of_mem _ (List.mem_append_left _ ?_)
  induction items with
  | nil => cases hv
  | cons u items ih =>
    cases items with
    | nil =>
      rw [List.intercalate_singleton, ← List.mem_singleton.mp hv]
      exact hl
    | cons u' items =>
      rw [List.intercalate_cons_cons, List.append_assoc]
      obtain rfl | hv := List.mem_cons.mp hv
      · exact List.mem_append_left _ hl
      · exact List.mem_append_right _ (List.mem_append_right _ (ih hv))

def Argument.lexemes (a : Argument) : List Lexeme :=
  .identifier a.name :: .colon :: a.value.lexemes

def Call.lexemes (c : Call) : List Lexeme :=
  .identifier c.callee :: enclosedLexemes (c.arguments.map Argument.lexemes)

def Block.lexemes (b : Block) : List Lexeme :=
  .openBrace :: (b.calls.flatMap Call.lexemes ++ [.closeBrace])

def Parameter.lexemes (p : Parameter) : List Lexeme :=
  .identifier p.name ::
    match p.fallback with
    | some e => .assign :: e.lexemes
    | none => []

def Shape.lexemes (s : Shape) : List Lexeme :=
  .identifier shapeKeyword :: .identifier s.name ::
    (enclosedLexemes (s.parameters.map Parameter.lexemes) ++ s.body.lexemes)

/-- The lexemes of a program from first to last. -/
def Program.lexemes (p : Program) : List Lexeme := p.shapes.flatMap Shape.lexemes

end ShapeScript
