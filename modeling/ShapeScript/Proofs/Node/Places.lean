/-
ShapeScript.Proofs.Node.Places — the places of a tree.

The places of an outline are listed in the order of its fields and items,
each with the way to it (`Outline.walk`). The outlines of nodes are regular:
each of their records has the fields of its class, and no class has two
fields of one name. So the way to a place leads to it and to nothing else
(`Outline.at?_of_mem_walk`), and outlines of one class can be walked side by
side (`Outline.SameClass`).
-/
import ShapeScript.Node.Difference

namespace ShapeScript

/-! ## Ways -/

/-- A step from a record into one of its fields, or from a list to one of
its items. -/
inductive Step where
  | field (name className : String)
  | item (index : Nat)

namespace Step

/-- The line for a step in a message. -/
def line : Step → String
  | field name className => "Mismatch in field '" ++ name ++ "' of " ++ className ++ ":\n"
  | item index => "Mismatch at index [" ++ toString index ++ "] of a list:\n"

/-- A difference that lies one step further down. -/
def before : Step → Difference → Difference
  | field name className, d => .inField name className d
  | item index, d => .atIndex index d

end Step

namespace Difference

/-- The way to a difference. -/
def path : Difference → List Step
  | inField name className d => .field name className :: d.path
  | atIndex index d => .item index :: d.path
  | _ => []

/-- What differs at the end of the way. -/
def reason : Difference → Difference
  | inField _ _ d | atIndex _ d => d.reason
  | d => d

/-- A message has a line for each step, and then tells what differs. -/
theorem message_eq (d : Difference) :
    d.message = (d.path.map Step.line).foldr (· ++ ·) d.reason.message := by
  induction d with
  | inField name className d ih => exact congrArg ((Step.field name className).line ++ ·) ih
  | atIndex index d ih => exact congrArg ((Step.item index).line ++ ·) ih
  | _ => rfl

/-- A step in front lengthens the way and keeps the reason. -/
theorem path_before (s : Step) (d : Difference) : (s.before d).path = s :: d.path := by
  cases s <;> rfl

theorem reason_before (s : Step) (d : Difference) : (s.before d).reason = d.reason := by
  cases s <;> rfl

end Difference

/-! ## Places -/

/-- A place of an outline: a part of it, and the way there. -/
structure Site where
  path : List Step
  outline : Outline

/-- The place one step further down. -/
def Site.below (s : Step) (p : Site) : Site := ⟨s :: p.path, p.outline⟩

namespace Outline

mutual

/-- All places of an outline, first itself, then those in its fields or
items in order. -/
def walk : Outline → List Site
  | list items => ⟨[], list items⟩ :: walkItems 0 items
  | record className fields => ⟨[], record className fields⟩ :: walkFields className fields
  | x => [⟨[], x⟩]

/-- The places in the items of a list from an index on. -/
def walkItems : Nat → List Outline → List Site
  | _, [] => []
  | i, x :: xs => x.walk.map (.below (.item i)) ++ walkItems (i + 1) xs

/-- The places in the fields of a record. -/
def walkFields (className : String) : List (String × Outline) → List Site
  | [] => []
  | (name, x) :: fs => x.walk.map (.below (.field name className)) ++ walkFields className fs

end

/-- The part of an outline that a way leads to. -/
def at? : Outline → List Step → Option Outline
  | x, [] => some x
  | list items, .item i :: path => items[i]?.bind fun x => x.at? path
  | record c fields, .field name d :: path =>
    if c = d then (fields.lookup name).bind fun x => x.at? path else none
  | _, _ => none

/-- The compared fields of each class, in order. -/
def classFields : List (String × List String) :=
  [("NumberLiteral", ["kind", "value"]), ("StringLiteral", ["kind", "value"]),
   ("Identifier", ["kind", "name"]), ("BinaryExpression", ["kind", "left", "op", "right"]),
   ("UnaryExpression", ["kind", "op", "operand"]), ("Grouping", ["kind", "inner"]),
   ("NamedArgument", ["name", "value"]), ("FunctionCall", ["function", "args"]),
   ("Block", ["calls"]), ("Parameter", ["name", "default"]),
   ("ShapeDefinition", ["name", "params", "body"]), ("Program", ["shapes", "end"]),
   ("Position", ["line", "column"])]

/-- An outline all of whose records have the fields of their class. -/
inductive Regular : Outline → Prop
  | absent : Regular absent
  | number (x : Float) : Regular (number x)
  | text (s : String) : Regular (text s)
  | count (n : Int) : Regular (count n)
  | binaryOp (op : BinaryOp) : Regular (binaryOp op)
  | negationOp : Regular negationOp
  | list {items : List Outline} (h : ∀ x ∈ items, Regular x) : Regular (list items)
  | record {className : String} {fields : List (String × Outline)}
    (hclass : classFields.lookup className = some (fields.map Prod.fst))
    (h : ∀ f ∈ fields, Regular f.2) : Regular (record className fields)

/-! ## Regular outlines of one class -/

variable {a b : Outline}

/-- No class is called like something that is not a record. -/
theorem typeName_ne_of_class {c : String} {names : List String}
    (h : classFields.lookup c = some names) {x : Outline} (hx : ∀ d gs, x ≠ record d gs) :
    x.typeName ≠ c := by
  rintro rfl
  cases x with
  | record d gs => exact hx d gs rfl
  | _ => cases h

/-- Regular outlines of one class. -/
inductive SameClass : Outline → Outline → Prop
  | absent : SameClass absent absent
  | number (x y : Float) : SameClass (number x) (number y)
  | text (s t : String) : SameClass (text s) (text t)
  | count (m n : Int) : SameClass (count m) (count n)
  | binaryOp (p q : BinaryOp) : SameClass (binaryOp p) (binaryOp q)
  | negationOp : SameClass negationOp negationOp
  | list {xs ys : List Outline} (hx : ∀ x ∈ xs, x.Regular) (hy : ∀ y ∈ ys, y.Regular) :
    SameClass (list xs) (list ys)
  | record (c : String) {fs gs : List (String × Outline)}
    (hnames : fs.map Prod.fst = gs.map Prod.fst) (hf : ∀ f ∈ fs, f.2.Regular)
    (hg : ∀ g ∈ gs, g.2.Regular) : SameClass (record c fs) (record c gs)

/-- Regular outlines of one type name are records of the same fields, or of the
same kind of value. -/
theorem sameClass_of_typeName (ha : a.Regular) (hb : b.Regular) (h : a.typeName = b.typeName) :
    SameClass a b := by
  cases ha with
  | record hc hf =>
    cases hb with
    | record hd hg =>
      obtain rfl := h
      exact .record _ (Option.some.inj (hc.symm.trans hd)) hf hg
    | _ => exact absurd h.symm (typeName_ne_of_class hc nofun)
  | _ =>
    cases hb with
    | record hd hg => exact absurd h (typeName_ne_of_class hd nofun)
    | _ => first | constructor <;> assumption | simp [typeName] at h

/-! ## Ways and their places -/

/-- A place in a list lies in one of its items. -/
theorem exists_of_mem_walkItems {p : Site} :
    ∀ {i : Nat} {xs : List Outline}, p ∈ walkItems i xs →
      ∃ (j : Nat) (x : Outline) (q : Site),
        xs[j]? = some x ∧ q ∈ x.walk ∧ p = q.below (.item (i + j))
  | i, x :: xs, h => by
    rw [walkItems, List.mem_append, List.mem_map] at h
    obtain ⟨q, hq, rfl⟩ | h := h
    · exact ⟨0, x, q, rfl, hq, rfl⟩
    · obtain ⟨j, y, q, hy, hq, rfl⟩ := exists_of_mem_walkItems h
      exact ⟨j + 1, y, q, hy, hq, by rw [Nat.add_assoc, Nat.add_comm 1 j]⟩

theorem exists_of_mem_walkFields {p : Site} {c : String} :
    ∀ {fs : List (String × Outline)}, p ∈ walkFields c fs →
      ∃ (name : String) (x : Outline) (q : Site),
        (name, x) ∈ fs ∧ q ∈ x.walk ∧ p = q.below (.field name c)
  | (name, x) :: fs, h => by
    rw [walkFields, List.mem_append, List.mem_map] at h
    obtain ⟨q, hq, rfl⟩ | h := h
    · exact ⟨name, x, q, .head _, hq, rfl⟩
    · obtain ⟨name', y, q, hy, hq, rfl⟩ := exists_of_mem_walkFields h
      exact ⟨name', y, q, .tail _ hy, hq, rfl⟩

/-- A place of an outline is itself, or lies in one of its items or
fields. -/
theorem mem_walk_cases {p : Site} (h : p ∈ a.walk) :
    p = ⟨[], a⟩ ∨
      (∃ (xs : List Outline) (j : Nat) (x : Outline) (q : Site),
        a = list xs ∧ xs[j]? = some x ∧ q ∈ x.walk ∧ p = q.below (.item j)) ∨
      ∃ (c : String) (fs : List (String × Outline)) (name : String) (x : Outline) (q : Site),
        a = record c fs ∧ (name, x) ∈ fs ∧ q ∈ x.walk ∧ p = q.below (.field name c) := by
  cases a with
  | list xs =>
    obtain rfl | h := List.mem_cons.mp h
    · exact .inl rfl
    · obtain ⟨j, x, q, hx, hq, rfl⟩ := exists_of_mem_walkItems h
      exact .inr (.inl ⟨xs, j, x, q, rfl, hx, hq, by rw [Nat.zero_add]⟩)
  | record c fs =>
    obtain rfl | h := List.mem_cons.mp h
    · exact .inl rfl
    · obtain ⟨name, x, q, hx, hq, rfl⟩ := exists_of_mem_walkFields h
      exact .inr (.inr ⟨c, fs, name, x, q, rfl, hx, hq, rfl⟩)
  | _ => exact .inl (List.mem_singleton.mp h)

/-- No class has two fields of one name. -/
theorem nodup_of_class {c : String} {names : List String}
    (h : classFields.lookup c = some names) : names.Nodup := by
  have hrows : ∀ row ∈ classFields, row.2.Nodup := by decide
  obtain ⟨rows, rows', hsplit, _⟩ := List.lookup_eq_some_iff.mp h
  exact hrows (c, names) (hsplit ▸ List.mem_append_cons_self)

theorem lookup_of_mem {fs : List (String × Outline)} {name : String} {x : Outline}
    (hnodup : (fs.map Prod.fst).Nodup) (h : (name, x) ∈ fs) : fs.lookup name = some x := by
  obtain ⟨before, after, rfl⟩ := List.append_of_mem h
  rw [List.map_append, List.map_cons, List.nodup_append] at hnodup
  refine List.lookup_eq_some_iff.mpr ⟨before, after, rfl, fun f hf => bne_iff_ne.mpr ?_⟩
  exact (hnodup.2.2 f.1 (List.mem_map_of_mem hf) name (.head _)).symm

/-- The way to a place leads to it. -/
theorem at?_of_mem_walk {path : List Step} {x : Outline} (ha : a.Regular)
    (h : ⟨path, x⟩ ∈ a.walk) : a.at? path = some x := by
  induction path generalizing a with
  | nil =>
    obtain h | ⟨_, _, _, q, _, _, _, h⟩ | ⟨_, _, _, _, q, _, _, _, h⟩ := mem_walk_cases h
    · obtain rfl : x = a := congrArg Site.outline h
      rw [at?]
    · cases h
    · cases h
  | cons s path ih =>
    obtain h | ⟨xs, j, y, q, rfl, hy, hq, h⟩ | ⟨c, fs, name, y, q, rfl, hy, hq, h⟩ :=
      mem_walk_cases h
    · cases h
    · cases h
      cases ha with
      | list hxs =>
        rw [at?, hy, Option.bind_some]
        exact ih (hxs y (List.mem_of_getElem? hy)) hq
    · cases h
      cases ha with
      | record hc hfs =>
        rw [at?, if_pos rfl, lookup_of_mem (nodup_of_class hc) hy, Option.bind_some]
        exact ih (hfs _ hy) hq

/-! ## Outlines of nodes -/

theorem regular_map {α : Type} {outline : α → Outline} (h : ∀ x, (outline x).Regular)
    (xs : List α) : (list (xs.map outline)).Regular :=
  .list (List.forall_mem_map.mpr fun x _ => h x)

theorem regular_ofExpr (e : Expr) : (ofExpr e).Regular := by
  induction e with
  | number x s => exact .record rfl (by simp [Regular.text, Regular.number])
  | string text s => exact .record rfl (by simp [Regular.text])
  | name n s => exact .record rfl (by simp [Regular.text])
  | binary left op right p s ihl ihr =>
    exact .record rfl (by simp [Regular.text, Regular.binaryOp, ihl, ihr])
  | negation operand p s ih => exact .record rfl (by simp [Regular.text, Regular.negationOp, ih])
  | grouping inner s ih => exact .record rfl (by simp [Regular.text, ih])

theorem regular_ofArgument (a : Argument) : (ofArgument a).Regular :=
  .record rfl (by simp [Regular.text, regular_ofExpr])

theorem regular_ofCall (c : Call) : (ofCall c).Regular :=
  .record rfl (by simp [Regular.text, regular_map regular_ofArgument])

theorem regular_ofBlock (b : Block) : (ofBlock b).Regular :=
  .record rfl (by simp [regular_map regular_ofCall])

theorem regular_ofParameter (p : Parameter) : (ofParameter p).Regular := by
  obtain ⟨name, _ | e, span⟩ := p
  · exact .record rfl (by simp [Regular.text, Regular.absent])
  · exact .record rfl (by simp [Regular.text, regular_ofExpr])

theorem regular_ofShape (s : Shape) : (ofShape s).Regular :=
  .record rfl (by simp [Regular.text, regular_map regular_ofParameter, regular_ofBlock])

theorem regular_ofPosition (p : Position) : (ofPosition p).Regular :=
  .record rfl (by simp [Regular.count])

theorem regular_ofProgram (p : Program) : (ofProgram p).Regular :=
  .record rfl (by simp [regular_map regular_ofShape, regular_ofPosition])

end Outline

open Outline in
/-- What is compared are the outlines of nodes, so all of them are regular. -/
theorem Node.regular_outline (n : Node) : n.outline.Regular := by
  cases n with
  | expr e => exact regular_ofExpr e
  | argument a => exact regular_ofArgument a
  | call c => exact regular_ofCall c
  | block b => exact regular_ofBlock b
  | parameter p => exact regular_ofParameter p
  | shape s => exact regular_ofShape s
  | program p => exact regular_ofProgram p

end ShapeScript
