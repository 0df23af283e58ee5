/-
ShapeScript.Proofs.Node.Matching — trees that say the same.

Two nodes match if they are equal but for spans and operator positions, and
but for their numbers, which only have to be equal as doubles. This is told
class by class, on the nodes themselves. Comparing the outlines of two nodes
finds no difference exactly if they match: `Node.difference?_eq_none_iff`.
-/
import Mathlib.Data.List.Forall2
import Mathlib.Tactic.MkIffOfInductiveProp
import ShapeScript.Node.Difference

namespace ShapeScript

/-! ## Definitions -/

/-- Expressions of the same classes with equal operators, names and texts,
and with numbers that are equal as doubles. -/
def Expr.Matches : Expr → Expr → Prop
  | .number x _, .number y _ => (x == y) = true
  | .string s _, .string t _ => s = t
  | .name m _, .name n _ => m = n
  | .binary left op right _ _, .binary left' op' right' _ _ =>
    left.Matches left' ∧ op = op' ∧ right.Matches right'
  | .negation operand _ _, .negation operand' _ _ => operand.Matches operand'
  | .grouping inner _, .grouping inner' _ => inner.Matches inner'
  | _, _ => False

@[mk_iff]
structure Argument.Matches (a b : Argument) : Prop where
  name : a.name = b.name
  value : a.value.Matches b.value

@[mk_iff]
structure Call.Matches (c d : Call) : Prop where
  callee : c.callee = d.callee
  arguments : List.Forall₂ Argument.Matches c.arguments d.arguments

@[mk_iff]
structure Block.Matches (b c : Block) : Prop where
  calls : List.Forall₂ Call.Matches b.calls c.calls

@[mk_iff]
structure Parameter.Matches (p q : Parameter) : Prop where
  name : p.name = q.name
  fallback : Option.Rel Expr.Matches p.fallback q.fallback

@[mk_iff]
structure Shape.Matches (s t : Shape) : Prop where
  name : s.name = t.name
  parameters : List.Forall₂ Parameter.Matches s.parameters t.parameters
  body : s.body.Matches t.body

/-- The end of a program is not ignored. -/
@[mk_iff]
structure Program.Matches (p q : Program) : Prop where
  shapes : List.Forall₂ Shape.Matches p.shapes q.shapes
  finish : p.finish = q.finish

/-- Nodes of one class that match. -/
inductive Node.Matches : Node → Node → Prop
  | expr {e f : Expr} (h : e.Matches f) : Node.Matches (.expr e) (.expr f)
  | argument {a b : Argument} (h : a.Matches b) : Node.Matches (.argument a) (.argument b)
  | call {c d : Call} (h : c.Matches d) : Node.Matches (.call c) (.call d)
  | block {b c : Block} (h : b.Matches c) : Node.Matches (.block b) (.block c)
  | parameter {p q : Parameter} (h : p.Matches q) : Node.Matches (.parameter p) (.parameter q)
  | shape {s t : Shape} (h : s.Matches t) : Node.Matches (.shape s) (.shape t)
  | program {p q : Program} (h : p.Matches q) : Node.Matches (.program p) (.program q)

/-! ## Outlines without a difference -/

namespace Outline

variable {c name : String} {x y : Outline} {fs gs : List (String × Outline)}

@[simp] theorem valuesDiffer_eq_none {same : Bool} {actual expected : String} :
    valuesDiffer same actual expected = none ↔ same = true := by
  cases same <;> simp [valuesDiffer]

@[simp] theorem difference?_text_eq_none {s t : String} :
    (text s).difference? (text t) = none ↔ s = t := by
  rw [difference?, valuesDiffer_eq_none, beq_iff_eq]

@[simp] theorem difference?_record_eq_none :
    (record c fs).difference? (record c gs) = none ↔ fieldDifference? c fs gs = none := by
  rw [difference?, if_pos rfl]

@[simp] theorem fieldDifference?_nil : fieldDifference? c [] [] = none := rfl

@[simp] theorem fieldDifference?_cons_eq_none :
    fieldDifference? c ((name, x) :: fs) ((name, y) :: gs) = none ↔
      x.difference? y = none ∧ fieldDifference? c fs gs = none := by
  rw [fieldDifference?]
  cases x.difference? y <;> simp

theorem itemDifference?_cons_eq_none {i : Nat} {xs ys : List Outline} :
    itemDifference? i (x :: xs) (y :: ys) = none ↔
      x.difference? y = none ∧ itemDifference? (i + 1) xs ys = none := by
  rw [itemDifference?]
  cases x.difference? y <;> simp

/-- Lists have no difference if they have one length and their items have
none. -/
theorem difference?_list_eq_none {xs ys : List Outline} :
    (list xs).difference? (list ys) = none ↔
      List.Forall₂ (fun x y => x.difference? y = none) xs ys := by
  rw [difference?]
  split
  · rename_i hlength
    generalize 0 = i
    induction xs generalizing ys i with
    | nil =>
      obtain rfl := List.length_eq_zero_iff.mp hlength.symm
      simp [itemDifference?]
    | cons x xs ih =>
      cases ys with
      | nil => cases hlength
      | cons y ys =>
        rw [itemDifference?_cons_eq_none, List.forall₂_cons, ih (Nat.succ.inj hlength)]
  · rename_i hlength
    exact ⟨nofun, fun h => absurd h.length_eq hlength⟩

/-- Lists of nodes have no difference if their nodes match. -/
theorem difference?_map_eq_none {α : Type} {outline : α → Outline} {V : α → α → Prop}
    (h : ∀ a b, (outline a).difference? (outline b) = none ↔ V a b) {as bs : List α} :
    (list (as.map outline)).difference? (list (bs.map outline)) = none ↔ List.Forall₂ V as bs := by
  simp only [difference?_list_eq_none, List.forall₂_map_left_iff, List.forall₂_map_right_iff, h]

end Outline

/-! ## Nodes without a difference -/

open Outline

theorem Expr.difference?_eq_none_iff {e f : Expr} :
    (Outline.ofExpr e).difference? (.ofExpr f) = none ↔ e.Matches f := by
  induction e generalizing f with
  | number x s => cases f <;> simp [ofExpr, difference?, Matches]
  | string text s => cases f <;> simp [ofExpr, difference?, Matches]
  | name n s => cases f <;> simp [ofExpr, difference?, Matches]
  | binary left op right p s ihl ihr =>
    cases f with
    | binary => simp [ofExpr, difference?, Matches, ihl, ihr]
    | _ => simp [ofExpr, difference?, Matches]
  | negation operand p s ih => cases f <;> simp [ofExpr, difference?, Matches, ih]
  | grouping inner s ih => cases f <;> simp [ofExpr, difference?, Matches, ih]

theorem Argument.difference?_eq_none_iff {a b : Argument} :
    (ofArgument a).difference? (ofArgument b) = none ↔ a.Matches b := by
  simp only [ofArgument, difference?_record_eq_none, fieldDifference?_cons_eq_none,
    fieldDifference?_nil, and_true, difference?_text_eq_none, Expr.difference?_eq_none_iff,
    Argument.matches_iff]

theorem Call.difference?_eq_none_iff {c d : Call} :
    (ofCall c).difference? (ofCall d) = none ↔ c.Matches d := by
  simp only [ofCall, difference?_record_eq_none, fieldDifference?_cons_eq_none,
    fieldDifference?_nil, and_true, difference?_text_eq_none, Call.matches_iff,
    difference?_map_eq_none fun _ _ => Argument.difference?_eq_none_iff]

theorem Block.difference?_eq_none_iff {b c : Block} :
    (ofBlock b).difference? (ofBlock c) = none ↔ b.Matches c := by
  simp only [ofBlock, difference?_record_eq_none, fieldDifference?_cons_eq_none,
    fieldDifference?_nil, and_true, Block.matches_iff,
    difference?_map_eq_none fun _ _ => Call.difference?_eq_none_iff]

/-- A default is outlined as its expression, or as nothing. -/
theorem Outline.ofParameter_eq (p : Parameter) :
    ofParameter p = .record "Parameter"
      [("name", .text p.name), ("default", (p.fallback.map ofExpr).getD .absent)] := by
  rcases p with ⟨name, _ | e, span⟩ <;> rfl

theorem Outline.difference?_fallback_eq_none {m n : Option Expr} :
    ((m.map ofExpr).getD .absent).difference? ((n.map ofExpr).getD .absent) = none ↔
      Option.Rel Expr.Matches m n := by
  cases m with
  | none =>
    cases n with
    | none => simp [difference?]
    | some f => cases f <;> simp [ofExpr, difference?]
  | some e =>
    cases n with
    | none => cases e <;> simp [ofExpr, difference?]
    | some f => simp [Expr.difference?_eq_none_iff]

theorem Parameter.difference?_eq_none_iff {p q : Parameter} :
    (ofParameter p).difference? (ofParameter q) = none ↔ p.Matches q := by
  simp only [ofParameter_eq, difference?_record_eq_none, fieldDifference?_cons_eq_none,
    fieldDifference?_nil, and_true, difference?_text_eq_none, difference?_fallback_eq_none,
    Parameter.matches_iff]

theorem Shape.difference?_eq_none_iff {s t : Shape} :
    (ofShape s).difference? (ofShape t) = none ↔ s.Matches t := by
  simp only [ofShape, difference?_record_eq_none, fieldDifference?_cons_eq_none,
    fieldDifference?_nil, and_true, difference?_text_eq_none, Block.difference?_eq_none_iff,
    Shape.matches_iff, difference?_map_eq_none fun _ _ => Parameter.difference?_eq_none_iff]

theorem Outline.difference?_ofPosition_eq_none {p q : Position} :
    (ofPosition p).difference? (ofPosition q) = none ↔ p = q := by
  obtain ⟨line, column⟩ := p
  obtain ⟨line', column'⟩ := q
  simp [ofPosition, difference?]

theorem Program.difference?_eq_none_iff {p q : Program} :
    (ofProgram p).difference? (ofProgram q) = none ↔ p.Matches q := by
  simp only [ofProgram, difference?_record_eq_none, fieldDifference?_cons_eq_none,
    fieldDifference?_nil, and_true, difference?_ofPosition_eq_none,
    Program.matches_iff, difference?_map_eq_none fun _ _ => Shape.difference?_eq_none_iff]

theorem Expr.className_cases (e : Expr) :
    e.className = "NumberLiteral" ∨ e.className = "StringLiteral" ∨ e.className = "Identifier" ∨
      e.className = "BinaryExpression" ∨ e.className = "UnaryExpression" ∨
      e.className = "Grouping" := by
  cases e <;> simp [className]

/-- A node's outline is a record of the node's class. -/
theorem Node.outline_eq_record (n : Node) : ∃ fs, n.outline = .record n.className fs := by
  cases n with
  | expr e => cases e <;> exact ⟨_, rfl⟩
  | _ => exact ⟨_, rfl⟩

/-- Nodes of two classes differ. -/
theorem Node.className_eq_of_difference? {a b : Node} (h : a.difference? b = none) :
    a.className = b.className := by
  obtain ⟨fs, ha⟩ := a.outline_eq_record
  obtain ⟨gs, hb⟩ := b.outline_eq_record
  rw [Node.difference?, ha, hb, Outline.difference?] at h
  by_contra hne
  rw [if_neg hne] at h
  cases h

/-- The verdict of a comparison: no difference is found exactly if the nodes
match. -/
theorem Node.difference?_eq_none_iff {a b : Node} : a.difference? b = none ↔ a.Matches b := by
  constructor
  · intro h
    have hclass := className_eq_of_difference? h
    cases a <;> cases b
    case expr.expr => exact .expr (Expr.difference?_eq_none_iff.mp h)
    case argument.argument => exact .argument (Argument.difference?_eq_none_iff.mp h)
    case call.call => exact .call (Call.difference?_eq_none_iff.mp h)
    case block.block => exact .block (Block.difference?_eq_none_iff.mp h)
    case parameter.parameter => exact .parameter (Parameter.difference?_eq_none_iff.mp h)
    case shape.shape => exact .shape (Shape.difference?_eq_none_iff.mp h)
    case program.program => exact .program (Program.difference?_eq_none_iff.mp h)
    -- The other pairs have two classes.
    all_goals grind [Node.className, Expr.className_cases]
  · rintro (h | h | h | h | h | h | h)
    · exact Expr.difference?_eq_none_iff.mpr h
    · exact Argument.difference?_eq_none_iff.mpr h
    · exact Call.difference?_eq_none_iff.mpr h
    · exact Block.difference?_eq_none_iff.mpr h
    · exact Parameter.difference?_eq_none_iff.mpr h
    · exact Shape.difference?_eq_none_iff.mpr h
    · exact Program.difference?_eq_none_iff.mpr h

end ShapeScript
