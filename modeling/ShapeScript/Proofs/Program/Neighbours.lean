/-
ShapeScript.Proofs.Program.Neighbours — which lexemes a program has next
to each other.

A name directly behind a number would be written as one word with it, and
the scanner would still take the two apart. The grammar lets this happen
nowhere: what follows an expression is an operator, a comma or a bracket.
`apart_lexemes` says so of any program, with one lemma for each kind of
node, and `getLast?_lexemes` that a program ends with a brace.
-/
import Mathlib.Data.List.Chain
import ShapeScript.Proofs.Program.Grammar

namespace ShapeScript

/-- No name stands directly behind a number. -/
def Apart (ls : List Lexeme) : Prop :=
  ls.IsChain fun l m => l.kind = .number → m.kind ≠ .identifier

section Lists

variable {α : Type} {l m : Lexeme} {v w : List Lexeme}

theorem apart_singleton (l : Lexeme) : Apart [l] := List.isChain_singleton l

/-- Any lexeme but a number may stand in front. -/
theorem Apart.cons (hw : Apart w) (hl : l.kind ≠ .number) : Apart (l :: w) :=
  List.isChain_cons.mpr ⟨fun _ _ hnumber => absurd hnumber hl, hw⟩

/-- Any lexeme but an identifier may stand behind. -/
theorem Apart.append_cons (hv : Apart v) (hw : Apart (m :: w)) (hm : m.kind ≠ .identifier) :
    Apart (v ++ m :: w) := by
  refine List.isChain_append.mpr ⟨hv, hw, fun _ _ y hy _ => ?_⟩
  obtain rfl := Option.some.inj hy
  exact hm

/-- Pieces that do not end with a number stand apart. -/
theorem apart_flatMap {write : α → List Lexeme} {as : List α} (has : ∀ a ∈ as, Apart (write a))
    (hlast : ∀ a ∈ as, ∀ l ∈ (write a).getLast?, l.kind ≠ .number) : Apart (as.flatMap write) := by
  induction as with
  | nil => exact List.isChain_nil
  | cons a as ih =>
    rw [List.forall_mem_cons] at has hlast
    refine List.isChain_append.mpr ⟨has.1, ih has.2 hlast.2, ?_⟩
    exact fun x hx _ _ hnumber => absurd hnumber (hlast.1 x hx)

theorem apart_enclosed {items : List (List Lexeme)} (h : ∀ item ∈ items, Apart item) :
    Apart (enclosedLexemes items) := by
  suffices hitems : Apart ([Lexeme.comma].intercalate items) by
    exact (hitems.append_cons (apart_singleton _) (by nofun)).cons (by nofun)
  induction items with
  | nil => exact List.isChain_nil
  | cons item items ih =>
    obtain ⟨hitem, hmore⟩ := List.forall_mem_cons.mp h
    cases items with
    | nil =>
      rw [List.intercalate_singleton]
      exact hitem
    | cons next more =>
      rw [List.intercalate_cons_cons, List.append_assoc]
      exact hitem.append_cons ((ih hmore).cons (by nofun)) (by nofun)

end Lists

/-! ## Nodes -/

/-- Between operands there is an operator or a parenthesis. -/
theorem apart_expr (e : Expr) : Apart e.lexemes := by
  induction e with
  | number x _ => exact apart_singleton _
  | string s _ => exact apart_singleton _
  | name n _ => exact apart_singleton _
  | binary left op right _ _ ihl ihr =>
    exact ihl.append_cons (ihr.cons (by cases op <;> nofun)) (by cases op <;> nofun)
  | negation operand _ _ ih => exact ih.cons (by nofun)
  | grouping inner _ ih => exact (ih.append_cons (apart_singleton _) (by nofun)).cons (by nofun)

theorem apart_argument (a : Argument) : Apart a.lexemes :=
  ((apart_expr a.value).cons (by nofun)).cons (by nofun)

theorem apart_call (c : Call) : Apart c.lexemes :=
  (apart_enclosed (List.forall_mem_map.mpr fun a _ => apart_argument a)).cons (by nofun)

theorem getLast?_enclosed (items : List (List Lexeme)) :
    (enclosedLexemes items).getLast? = some .closeParen := by
  rw [enclosedLexemes, ← List.cons_append, List.getLast?_concat]

theorem getLast?_call (c : Call) : c.lexemes.getLast? = some .closeParen := by
  rw [Call.lexemes, List.getLast?_cons, getLast?_enclosed]
  rfl

theorem apart_block (b : Block) : Apart b.lexemes := by
  have hcalls : Apart (b.calls.flatMap Call.lexemes) := by
    refine apart_flatMap (fun c _ => apart_call c) fun c _ l hl => ?_
    obtain rfl := Option.some.inj ((getLast?_call c).symm.trans hl)
    nofun
  exact (hcalls.append_cons (apart_singleton _) (by nofun)).cons (by nofun)

theorem apart_parameter (p : Parameter) : Apart p.lexemes := by
  obtain ⟨name, fallback, span⟩ := p
  cases fallback with
  | none => exact apart_singleton _
  | some e => exact ((apart_expr e).cons (by nofun)).cons (by nofun)

theorem apart_shape (s : Shape) : Apart s.lexemes := by
  have hparameters : Apart (enclosedLexemes (s.parameters.map Parameter.lexemes)) :=
    apart_enclosed (List.forall_mem_map.mpr fun p _ => apart_parameter p)
  exact ((hparameters.append_cons (apart_block s.body) (by nofun)).cons (by nofun)).cons (by nofun)

theorem getLast?_shape (s : Shape) : s.lexemes.getLast? = some .closeBrace := by
  have hblock : s.body.lexemes.getLast? = some .closeBrace := by
    rw [Block.lexemes, ← List.cons_append, List.getLast?_concat]
  rw [Shape.lexemes, List.getLast?_cons, List.getLast?_cons, List.getLast?_append, hblock]
  rfl

/-- In a program no name stands directly behind a number. -/
theorem apart_lexemes (p : Program) : Apart p.lexemes := by
  refine apart_flatMap (fun s _ => apart_shape s) fun s _ l hl => ?_
  obtain rfl := Option.some.inj ((getLast?_shape s).symm.trans hl)
  nofun

/-- The last lexeme of a program closes the body of a shape. -/
theorem getLast?_lexemes (p : Program) : ∀ l ∈ p.lexemes.getLast?, l = .closeBrace := by
  intro l hl
  rw [Program.lexemes, List.getLast?_flatMap] at hl
  obtain ⟨s, -, hs⟩ := List.exists_of_findSome?_eq_some hl
  exact Option.some.inj (hs.symm.trans (getLast?_shape s))

end ShapeScript
