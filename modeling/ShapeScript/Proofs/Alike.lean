/-
ShapeScript.Proofs.Alike — trees that differ in their positions only.

Two tokens, or two trees, are alike when they are equal up to spans and
operator positions, and corresponding positions are related by a given
relation `Q`. Of a node's positions only the one that diagnostics about
it point at has to be related; nothing else is ever reported.

The relation has two uses. If it relates any two positions, alike means
equal up to positions, and what is proved of alike things says that
positions do not matter. If it relates a position in a set to everything,
a tree that is alike to itself is one whose positions are in the set, and
what is proved says where positions come from.
-/
import Mathlib.Data.List.Forall2
import ShapeScript.Node.Outline
import ShapeScript.Problem
import ShapeScript.Program

namespace ShapeScript

/-- Any position is related to any other. -/
abbrev AnyPositions : Position → Position → Prop := fun _ _ => True

section Definitions

variable (Q : Position → Position → Prop)

/-- Both outcomes are values, related by `V`, or both are the same fault,
at related positions. -/
inductive Agree {φ α : Type} (V : α → α → Prop) :
    Except (Located φ) α → Except (Located φ) α → Prop
  | ok {a a' : α} (hvalue : V a a') : Agree V (.ok a) (.ok a')
  | error {e e' : Located φ} (hfault : e.fault = e'.fault) (hpos : Q e.pos e'.pos) :
      Agree V (.error e) (.error e')

/-- Equal tokens up to spans, starting at related positions. -/
structure Token.Alike (t t' : Token) : Prop where
  lexeme : t.lexeme = t'.lexeme
  pos : Q t.pos t'.pos

/-- Equal expressions up to positions, with related positions. -/
inductive Expr.Alike : Expr → Expr → Prop
  | number {x : Float} {s s' : Span} (hpos : Q s.start s'.start) :
      Expr.Alike (.number x s) (.number x s')
  | string {text : String} {s s' : Span} (hpos : Q s.start s'.start) :
      Expr.Alike (.string text s) (.string text s')
  | name {n : String} {s s' : Span} (hpos : Q s.start s'.start) :
      Expr.Alike (.name n s) (.name n s')
  | binary {left left' right right' : Expr} {op : BinaryOp} {p p' : Position} {s s' : Span}
      (hleft : Expr.Alike left left') (hright : Expr.Alike right right') (hpos : Q p p') :
      Expr.Alike (.binary left op right p s) (.binary left' op right' p' s')
  | negation {operand operand' : Expr} {p p' : Position} {s s' : Span}
      (hoperand : Expr.Alike operand operand') (hpos : Q p p') :
      Expr.Alike (.negation operand p s) (.negation operand' p' s')
  | grouping {inner inner' : Expr} {s s' : Span} (hinner : Expr.Alike inner inner') :
      Expr.Alike (.grouping inner s) (.grouping inner' s')

structure Argument.Alike (a a' : Argument) : Prop where
  name : a.name = a'.name
  value : Expr.Alike Q a.value a'.value
  pos : Q a.pos a'.pos

structure Call.Alike (c c' : Call) : Prop where
  callee : c.callee = c'.callee
  arguments : List.Forall₂ (Argument.Alike Q) c.arguments c'.arguments
  pos : Q c.pos c'.pos

structure Block.Alike (b b' : Block) : Prop where
  calls : List.Forall₂ (Call.Alike Q) b.calls b'.calls

structure Parameter.Alike (p p' : Parameter) : Prop where
  name : p.name = p'.name
  fallback : Option.Rel (Expr.Alike Q) p.fallback p'.fallback

structure Shape.Alike (s s' : Shape) : Prop where
  name : s.name = s'.name
  parameters : List.Forall₂ (Parameter.Alike Q) s.parameters s'.parameters
  body : Block.Alike Q s.body s'.body
  pos : Q s.pos s'.pos

structure Program.Alike (p p' : Program) : Prop where
  shapes : List.Forall₂ (Shape.Alike Q) p.shapes p'.shapes
  finish : Q p.finish p'.finish

end Definitions

variable {Q : Position → Position → Prop}

theorem Token.Alike.kind {t t' : Token} (h : t.Alike Q t') : t.kind = t'.kind :=
  congrArg Lexeme.kind h.lexeme

/-- A grouping has no position of its own: diagnostics about it point at what it
holds. -/
theorem Expr.Alike.pos {e e' : Expr} (h : e.Alike Q e') : Q e.pos e'.pos := by
  induction h with
  | number hpos => exact hpos
  | string hpos => exact hpos
  | name hpos => exact hpos
  | binary _ _ hpos => exact hpos
  | negation _ hpos => exact hpos
  | grouping _ ih => exact ih

/-! ## Everything is like itself -/

section Refl

variable (hQ : ∀ p, Q p p)
include hQ

/-- If every position is related to itself, so is every tree. -/
theorem Expr.alike_refl (e : Expr) : e.Alike Q e := by
  induction e with
  | number x s => exact .number (hQ _)
  | string text s => exact .string (hQ _)
  | name n s => exact .name (hQ _)
  | binary left op right p s ihl ihr => exact .binary ihl ihr (hQ _)
  | negation operand p s ih => exact .negation ih (hQ _)
  | grouping inner s ih => exact .grouping ih

theorem Call.alike_refl (c : Call) : c.Alike Q c :=
  ⟨rfl, List.forall₂_same.mpr fun a _ => ⟨rfl, a.value.alike_refl hQ, hQ _⟩, hQ _⟩

theorem Parameter.alike_refl (p : Parameter) : p.Alike Q p := by
  refine ⟨rfl, ?_⟩
  cases p.fallback with
  | none => exact .none
  | some e => exact .some (e.alike_refl hQ)

theorem Shape.alike_refl (s : Shape) : s.Alike Q s :=
  ⟨rfl, List.forall₂_same.mpr fun p _ => p.alike_refl hQ,
    ⟨List.forall₂_same.mpr fun c _ => c.alike_refl hQ⟩, hQ _⟩

end Refl

/-! ## Outlines -/

/-- Outlines have no positions. -/
theorem Expr.Alike.outline {e e' : Expr} (h : e.Alike Q e') :
    Outline.ofExpr e = Outline.ofExpr e' := by
  induction h with
  | number => rfl
  | string => rfl
  | name => rfl
  | binary _ _ _ ihl ihr => rw [Outline.ofExpr, Outline.ofExpr, ihl, ihr]
  | negation _ _ ih => rw [Outline.ofExpr, Outline.ofExpr, ih]
  | grouping _ ih => rw [Outline.ofExpr, Outline.ofExpr, ih]

/-- Lists of alike items have equal lists of outlines. -/
theorem map_eq_map_of_alike {α β : Type} {V : α → α → Prop} {f : α → β} {as as' : List α}
    (h : List.Forall₂ V as as') (hf : ∀ a a', V a a' → f a = f a') : as.map f = as'.map f := by
  induction h with
  | nil => rfl
  | cons hhead _ ih => rw [List.map_cons, List.map_cons, hf _ _ hhead, ih]

theorem Argument.Alike.outline {a a' : Argument} (h : a.Alike Q a') :
    Outline.ofArgument a = Outline.ofArgument a' := by
  rw [Outline.ofArgument, Outline.ofArgument, h.name, h.value.outline]

theorem Call.Alike.outline {c c' : Call} (h : c.Alike Q c') :
    Outline.ofCall c = Outline.ofCall c' := by
  rw [Outline.ofCall, Outline.ofCall, h.callee,
    map_eq_map_of_alike h.arguments fun _ _ ha => ha.outline]

theorem Block.Alike.outline {b b' : Block} (h : b.Alike Q b') :
    Outline.ofBlock b = Outline.ofBlock b' := by
  rw [Outline.ofBlock, Outline.ofBlock, map_eq_map_of_alike h.calls fun _ _ hc => hc.outline]

theorem Parameter.Alike.outline {p p' : Parameter} (h : p.Alike Q p') :
    Outline.ofParameter p = Outline.ofParameter p' := by
  obtain ⟨name, fallback, span⟩ := p
  obtain ⟨name', fallback', span'⟩ := p'
  obtain ⟨rfl, hfallback⟩ := h
  cases hfallback with
  | none => rfl
  | some hvalue => simp only [Outline.ofParameter, hvalue.outline]

theorem Shape.Alike.outline {s s' : Shape} (h : s.Alike Q s') :
    Outline.ofShape s = Outline.ofShape s' := by
  rw [Outline.ofShape, Outline.ofShape, h.name, h.body.outline,
    map_eq_map_of_alike h.parameters fun _ _ hp => hp.outline]

/-- Alike programs declare shapes with equal outlines. -/
theorem Program.Alike.outlines {p p' : Program} (h : p.Alike Q p') :
    p.shapes.map Outline.ofShape = p'.shapes.map Outline.ofShape :=
  map_eq_map_of_alike h.shapes fun _ _ hs => hs.outline

end ShapeScript
