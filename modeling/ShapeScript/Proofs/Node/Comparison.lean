/-
ShapeScript.Proofs.Node.Comparison — where a comparison stops.

`Outline.compared_difference?` tells what a comparison finds on the walks of
two regular outlines: nothing if all their places are alike, and else the
first places that are not. So matching, which is alikeness place by place, is
symmetric and transitive, and a node matches itself unless one of its numbers
is a NaN. What is shown of a difference is the way to it and how the places
differ: `Node.difference_leads_to_first`.
-/
import ShapeScript.Proofs.Node.Matching
import ShapeScript.Proofs.Node.Places
import ShapeScript.Proofs.Number.Equality

namespace ShapeScript

/-! ## Definitions -/

namespace Outline

/-- Outlines that are alike but for what is below them. -/
inductive SameHead : Outline → Outline → Prop
  | absent : SameHead absent absent
  | number {x y : Float} (h : (x == y) = true) : SameHead (number x) (number y)
  | text (s : String) : SameHead (text s) (text s)
  | count (n : Int) : SameHead (count n) (count n)
  | binaryOp (op : BinaryOp) : SameHead (binaryOp op) (binaryOp op)
  | negationOp : SameHead negationOp negationOp
  | list {xs ys : List Outline} (h : xs.length = ys.length) : SameHead (list xs) (list ys)
  | record (className : String) (fs gs : List (String × Outline)) :
    SameHead (record className fs) (record className gs)

/-- Outlines of two classes, lists of two lengths or two values, and how
their difference is told. -/
inductive Differs : Outline → Outline → Difference → Prop
  | types {x y : Outline} (h : x.typeName ≠ y.typeName) :
    Differs x y (.types x.typeName y.typeName)
  | lengths {xs ys : List Outline} (h : xs.length ≠ ys.length) :
    Differs (list xs) (list ys) (.lengths xs.length ys.length)
  | numbers {x y : Float} (h : (x == y) = false) :
    Differs (number x) (number y) (.values (differenceNumber x) (differenceNumber y))
  | texts {s t : String} (h : s ≠ t) : Differs (text s) (text t) (.values s t)
  | counts {m n : Int} (h : m ≠ n) :
    Differs (count m) (count n) (.values (toString m) (toString n))
  | binaryOps {p q : BinaryOp} (h : p ≠ q) :
    Differs (binaryOp p) (binaryOp q)
      (.values ("BinaryOperator." ++ p.name) ("BinaryOperator." ++ q.name))

end Outline

/-- Places on one way that are alike but for what is below them. -/
structure Site.Alike (p q : Site) : Prop where
  path : p.path = q.path
  head : p.outline.SameHead q.outline

/-- What a comparison finds on two walks: nothing if all places are alike,
and else the first places that differ. -/
inductive Compared : Option Difference → List Site → List Site → Prop
  | alike {ps qs : List Site} (h : List.Forall₂ Site.Alike ps qs) : Compared none ps qs
  | differ {d : Difference} {x y : Outline} {ps qs : List Site} (ps' qs' : List Site)
    (h : List.Forall₂ Site.Alike ps qs) (hd : x.Differs y d.reason) :
    Compared (some d) (ps ++ ⟨d.path, x⟩ :: ps') (qs ++ ⟨d.path, y⟩ :: qs')

/-! ## Walking side by side -/

namespace Compared

variable {r : Option Difference} {d : Difference} {ps qs ps' qs' : List Site} {x y : Outline}

theorem nil : Compared none [] [] := .alike .nil

theorem cons (h : x.SameHead y) (hrest : Compared r ps qs) :
    Compared r (⟨[], x⟩ :: ps) (⟨[], y⟩ :: qs) := by
  have hhead : Site.Alike ⟨[], x⟩ ⟨[], y⟩ := ⟨rfl, h⟩
  cases hrest with
  | alike hall => exact .alike (.cons hhead hall)
  | differ ps' qs' hall hd => exact .differ ps' qs' (.cons hhead hall) hd

theorem append (h : Compared none ps qs) (h' : Compared r ps' qs') :
    Compared r (ps ++ ps') (qs ++ qs') := by
  cases h with
  | alike hall =>
    cases h' with
    | alike hall' => exact .alike (List.rel_append hall hall')
    | differ ps'' qs'' hall' hd =>
      rw [← List.append_assoc, ← List.append_assoc]
      exact .differ ps'' qs'' (List.rel_append hall hall') hd

theorem append_some (h : Compared (some d) ps qs) (ps' qs' : List Site) :
    Compared (some d) (ps ++ ps') (qs ++ qs') := by
  cases h with
  | differ ps'' qs'' hall hd =>
    rw [List.append_assoc, List.append_assoc]
    exact .differ (ps'' ++ ps') (qs'' ++ qs') hall hd

theorem below (s : Step) (h : Compared r ps qs) :
    Compared (r.map s.before) (ps.map (.below s)) (qs.map (.below s)) := by
  have hbelow {ps qs : List Site} (hall : List.Forall₂ Site.Alike ps qs) :
      List.Forall₂ Site.Alike (ps.map (.below s)) (qs.map (.below s)) := by
    rw [List.forall₂_map_left_iff, List.forall₂_map_right_iff]
    exact hall.imp fun _ _ halike => ⟨congrArg (s :: ·) halike.path, halike.head⟩
  cases h with
  | alike hall => exact .alike (hbelow hall)
  | @differ d x y ps qs ps' qs' hall hd =>
    have hd' : x.Differs y (s.before d).reason := by rwa [Difference.reason_before]
    simpa [Site.below, Difference.path_before] using
      Compared.differ (ps'.map (.below s)) (qs'.map (.below s)) (hbelow hall) hd'

/-- One part after another: what is behind the first part matters only if
nothing is found in it. -/
theorem next (s : Step) {r' : Option Difference} (h : Compared r ps qs)
    (h' : Compared r' ps' qs') :
    Compared ((r.map s.before).or r') (ps.map (.below s) ++ ps') (qs.map (.below s) ++ qs') := by
  cases r with
  | none => exact (h.below s).append h'
  | some d => exact (h.below s).append_some ps' qs'

/-- Two values at one place are alike or differ. -/
theorem values {same : Bool} {actual expected : String} (hsame : same = true → x.SameHead y)
    (hdiff : same = false → x.Differs y (.values actual expected)) :
    Compared (Outline.valuesDiffer same actual expected) [⟨[], x⟩] [⟨[], y⟩] := by
  cases same with
  | true => exact nil.cons (hsame rfl)
  | false => exact .differ [] [] .nil (hdiff rfl)

end Compared

namespace Outline

variable {a b : Outline}

theorem walk_eq_cons (x : Outline) : ∃ ps, x.walk = ⟨[], x⟩ :: ps := by
  cases x <;> exact ⟨_, rfl⟩

theorem itemDifference?_cons {i : Nat} {x y : Outline} {xs ys : List Outline} :
    itemDifference? i (x :: xs) (y :: ys) =
      ((x.difference? y).map (Step.item i).before).or (itemDifference? (i + 1) xs ys) := by
  rw [itemDifference?]
  cases x.difference? y <;> rfl

theorem fieldDifference?_cons {c name name' : String} {x y : Outline}
    {fs gs : List (String × Outline)} :
    fieldDifference? c ((name, x) :: fs) ((name', y) :: gs) =
      ((x.difference? y).map (Step.field name c).before).or (fieldDifference? c fs gs) := by
  rw [fieldDifference?]
  cases x.difference? y <;> rfl

/-- What differs in its class is told by the names of the classes. -/
theorem difference?_of_typeName_ne (h : a.typeName ≠ b.typeName) :
    a.difference? b = some (.types a.typeName b.typeName) := by
  cases a <;> cases b
  case record.record => exact if_neg h
  all_goals first
    | exact absurd rfl h
    | rfl

theorem compared_of_typeName_ne (h : a.typeName ≠ b.typeName) :
    Compared (a.difference? b) a.walk b.walk := by
  obtain ⟨ps, ha⟩ := a.walk_eq_cons
  obtain ⟨qs, hb⟩ := b.walk_eq_cons
  rw [difference?_of_typeName_ne h, ha, hb]
  exact .differ ps qs .nil (.types h)

mutual

/-- What a comparison of regular outlines finds on their walks. -/
theorem compared_difference? (a b : Outline) (ha : a.Regular) (hb : b.Regular) :
    Compared (a.difference? b) a.walk b.walk := by
  by_cases hname : a.typeName = b.typeName
  case neg => exact compared_of_typeName_ne hname
  match sameClass_of_typeName ha hb hname with
  | .absent => exact Compared.nil.cons .absent
  | .negationOp => exact Compared.nil.cons .negationOp
  | .number x y => exact .values .number .numbers
  | .text s t =>
    exact .values (fun h => eq_of_beq h ▸ .text s) fun h => .texts (ne_of_beq_false h)
  | .count m n =>
    exact .values (fun h => eq_of_beq h ▸ .count m) fun h => .counts (ne_of_beq_false h)
  | .binaryOp p q =>
    exact .values (fun h => eq_of_beq h ▸ .binaryOp p) fun h => .binaryOps (ne_of_beq_false h)
  | @SameClass.list xs ys hx hy =>
    rw [difference?]
    split
    · rename_i hlength
      exact (compared_itemDifference? 0 xs ys hlength hx hy).cons (.list hlength)
    · rename_i hlength
      exact .differ (walkItems 0 xs) (walkItems 0 ys) .nil (.lengths hlength)
  | @SameClass.record c fs gs hnames hf hg =>
    rw [difference?, if_pos rfl]
    exact (compared_fieldDifference? c fs gs hnames hf hg).cons (.record c fs gs)

theorem compared_itemDifference? (i : Nat) (xs ys : List Outline) (hlength : xs.length = ys.length)
    (hx : ∀ x ∈ xs, x.Regular) (hy : ∀ y ∈ ys, y.Regular) :
    Compared (itemDifference? i xs ys) (walkItems i xs) (walkItems i ys) := by
  match xs, ys with
  | [], [] => exact .nil
  | x :: xs, y :: ys =>
    rw [itemDifference?_cons, walkItems, walkItems]
    rw [List.forall_mem_cons] at hx hy
    exact (compared_difference? x y hx.1 hy.1).next (.item i)
      (compared_itemDifference? (i + 1) xs ys (Nat.succ.inj hlength) hx.2 hy.2)

theorem compared_fieldDifference? (c : String) (fs gs : List (String × Outline))
    (hnames : fs.map Prod.fst = gs.map Prod.fst)
    (hf : ∀ f ∈ fs, f.2.Regular) (hg : ∀ g ∈ gs, g.2.Regular) :
    Compared (fieldDifference? c fs gs) (walkFields c fs) (walkFields c gs) := by
  match fs, gs with
  | [], [] => exact .nil
  | (name, x) :: fs, (name', y) :: gs =>
    rw [List.map_cons, List.map_cons, List.cons.injEq] at hnames
    obtain ⟨rfl, hnames⟩ := hnames
    rw [fieldDifference?_cons, walkFields, walkFields]
    rw [List.forall_mem_cons] at hf hg
    exact (compared_difference? x y hf.1 hg.1).next (.field name c)
      (compared_fieldDifference? c fs gs hnames hf.2 hg.2)

end

end Outline

/-! ## Matching, place by place -/

theorem Outline.Differs.not_sameHead {x y : Outline} {d : Difference} (h : x.Differs y d) :
    ¬ x.SameHead y := by
  cases h with
  | types hname => rintro ⟨⟩ <;> exact hname rfl
  | lengths hlength => exact fun | .list h => hlength h
  | numbers hne => exact fun | .number h => absurd h (Bool.eq_false_iff.mp hne)
  | texts hne => exact fun | .text _ => hne rfl
  | counts hne => exact fun | .count _ => hne rfl
  | binaryOps hne => exact fun | .binaryOp _ => hne rfl

/-- Nothing is found exactly if all places are alike. -/
theorem Compared.eq_none_iff {r : Option Difference} {ps qs : List Site} (h : Compared r ps qs) :
    r = none ↔ List.Forall₂ Site.Alike ps qs := by
  cases h with
  | alike hall => exact ⟨fun _ => hall, fun _ => rfl⟩
  | @differ d x y ps qs ps' qs' hall hd =>
    refine ⟨nofun, fun h => ?_⟩
    have hrest := List.forall₂_drop ps.length h
    rw [List.drop_left, hall.length_eq, List.drop_left, List.forall₂_cons] at hrest
    exact absurd hrest.1.head hd.not_sameHead

theorem Node.matches_iff_alike {a b : Node} :
    a.Matches b ↔ List.Forall₂ Site.Alike a.outline.walk b.outline.walk := by
  rw [← Node.difference?_eq_none_iff]
  exact (Outline.compared_difference? _ _ a.regular_outline b.regular_outline).eq_none_iff

theorem Outline.SameHead.symm {x y : Outline} (h : x.SameHead y) : y.SameHead x := by
  cases h with
  | number h => exact .number (Number.beq_symm h)
  | list h => exact .list h.symm
  | _ => constructor

theorem Outline.SameHead.trans {x y z : Outline} (h : x.SameHead y) (h' : y.SameHead z) :
    x.SameHead z := by
  cases h with
  | number h => cases h' with | number h' => exact .number (Number.beq_trans h h')
  | list h => cases h' with | list h' => exact .list (h.trans h')
  | record c fs gs => cases h' with | record _ _ hs => exact .record c fs hs
  | _ => exact h'

theorem Outline.sameHead_self_iff {x : Outline} :
    x.SameHead x ↔ ∀ y, x = .number y → Number.isNaN y = false := by
  constructor
  · rintro h y rfl
    cases h with
    | number h => exact Number.beq_self_iff.mp h
  · intro h
    cases x with
    | number y => exact .number (Number.beq_self_iff.mpr (h y rfl))
    | list xs => exact .list rfl
    | _ => constructor

theorem Site.Alike.symm {p q : Site} (h : p.Alike q) : q.Alike p :=
  ⟨h.path.symm, h.head.symm⟩

theorem Site.Alike.trans {p q r : Site} (h : p.Alike q) (h' : q.Alike r) : p.Alike r :=
  ⟨h.path.trans h'.path, h.head.trans h'.head⟩

/-- A node none of whose numbers is a NaN. -/
def Node.NaNFree (n : Node) : Prop :=
  ∀ path x, ⟨path, .number x⟩ ∈ n.outline.walk → Number.isNaN x = false

namespace Node

variable {a b c : Node}

/-- A node matches itself if none of its numbers is a NaN. -/
theorem matches_self_iff : a.Matches a ↔ a.NaNFree := by
  rw [matches_iff_alike, List.forall₂_same]
  constructor
  · exact fun h path x hx => Outline.sameHead_self_iff.mp (h _ hx).head x rfl
  · rintro h ⟨path, x⟩ hx
    refine ⟨rfl, Outline.sameHead_self_iff.mpr ?_⟩
    rintro y rfl
    exact h path y hx

theorem Matches.symm (h : a.Matches b) : b.Matches a := by
  rw [matches_iff_alike] at h ⊢
  exact (h.imp fun _ _ halike => halike.symm).flip

theorem Matches.trans (h : a.Matches b) (h' : b.Matches c) : a.Matches c := by
  rw [matches_iff_alike] at h h' ⊢
  generalize a.outline.walk = ps, b.outline.walk = qs, c.outline.walk = rs at h h' ⊢
  induction h generalizing rs with
  | nil => exact h'
  | cons hp hps ih =>
    cases h' with
    | cons hq hqs => exact .cons (hp.trans hq) (ih _ hqs)

end Node

/-! ## What a comparison tells -/

/-- A difference leads, in both outlines, to the first places that differ,
and tells how they differ. All places that come before are alike. -/
structure Difference.LeadsTo (d : Difference) (a b x y : Outline) : Prop where
  reached : a.at? d.path = some x
  reached' : b.at? d.path = some y
  differ : x.Differs y d.reason
  first : ∃ before before' after after',
    a.walk = before ++ ⟨d.path, x⟩ :: after ∧ b.walk = before' ++ ⟨d.path, y⟩ :: after' ∧
      List.Forall₂ Site.Alike before before'

theorem Outline.leadsTo_of_difference? {a b : Outline} {d : Difference} (ha : a.Regular)
    (hb : b.Regular) (h : a.difference? b = some d) : ∃ x y, d.LeadsTo a b x y := by
  have hcompared := compared_difference? a b ha hb
  rw [h] at hcompared
  generalize hps : a.walk = ps, hqs : b.walk = qs at hcompared
  cases hcompared with
  | @differ _ x y before before' after after' hall hd =>
    refine ⟨x, y, ?_, ?_, hd, before, before', after, after', hps, hqs, hall⟩
    · exact at?_of_mem_walk ha (hps ▸ List.mem_append_cons_self)
    · exact at?_of_mem_walk hb (hqs ▸ List.mem_append_cons_self)

/-- A comparison finds no difference exactly if the nodes match, which is
symmetric, transitive, and reflexive on nodes without a NaN. The difference
that it finds otherwise leads to the first places that differ, and its
message has a line for each step on the way. -/
theorem Node.difference_leads_to_first (a b : Node) :
    (a.difference? b = none ↔ a.Matches b) ∧
      (a.difference? a = none ↔ a.NaNFree) ∧
      (a.difference? b = none → b.difference? a = none) ∧
      (∀ c, a.difference? b = none → b.difference? c = none → a.difference? c = none) ∧
      ∀ d, a.difference? b = some d →
        d.message = (d.path.map Step.line).foldr (· ++ ·) d.reason.message ∧
        ∃ x y, d.LeadsTo a.outline b.outline x y := by
  refine ⟨difference?_eq_none_iff, ?_, ?_, fun c => ?_, fun d h => ⟨d.message_eq, ?_⟩⟩
  · rw [difference?_eq_none_iff, matches_self_iff]
  · simp only [difference?_eq_none_iff]
    exact Matches.symm
  · simp only [difference?_eq_none_iff]
    exact Matches.trans
  · exact Outline.leadsTo_of_difference? a.regular_outline b.regular_outline h

/-- A sum of a number and a name. -/
def Node.sum (x : Float) (name : String) : Node :=
  .expr (.binary (.number x default) .plus (.name name default) default default)

/-- Zeros of both signs agree, so two sums first differ in their names. -/
theorem Node.sums_differ_in_their_names :
    (Node.sum 0.0 "x").difference? (Node.sum (-0.0) "y") =
        some (.inField "right" "BinaryExpression"
          (.inField "name" "Identifier" (.values "x" "y"))) ∧
      ∃ x y, Difference.LeadsTo
        (.inField "right" "BinaryExpression" (.inField "name" "Identifier" (.values "x" "y")))
        (Node.sum 0.0 "x").outline (Node.sum (-0.0) "y").outline x y := by
  have h : (Node.sum 0.0 "x").difference? (Node.sum (-0.0) "y") =
      some (.inField "right" "BinaryExpression"
        (.inField "name" "Identifier" (.values "x" "y"))) := by decide
  obtain ⟨_, _, _, _, hfirst⟩ :=
    Node.difference_leads_to_first (Node.sum 0.0 "x") (Node.sum (-0.0) "y")
  exact ⟨h, (hfirst _ h).2⟩

end ShapeScript
