/-
ShapeScript.Proofs.Node.Derivation — nodes and the tokens they were read
from.

A node is written as a row of pieces, each a mark of its own or a node in
it (`Node.pieces`). `ReadFrom n ts` says that `n` was read from exactly the
tokens `ts`: they fall into the pieces of `n`, one token for each mark and
one segment for each node in it, which was read from that segment in turn.
At every node of such a derivation the span reaches from the first token
to the last, and the position that diagnostics point at is that of the
first mark; a grouping defers to what it holds.

Where tokens follow one another, so do the spans of segments. That the
spans of a tree are nested and ordered is therefore one argument about
rows of pieces (`PiecesFrom.pairwise_spans`, `Ordered.spanOf_segment`), and
not one for each kind of node.
-/
import Mathlib.Logic.Relation
import ShapeScript.Node
import ShapeScript.Proofs.Expr.Flattening
import ShapeScript.Proofs.Token.Spans

namespace ShapeScript

/-! ## Segments of tokens -/

/-- Where a token list starts: at its first token, or at the origin if
there is none. -/
def startOf : List Token → Position
  | [] => .origin
  | t :: _ => t.pos

/-- From the first token to the last. -/
def spanOf (ts : List Token) : Span := ⟨startOf ts, endOf ts⟩

section Segments

variable {ts us : List Token} {t : Token}

theorem startOf_append (h : ts ≠ []) : startOf (ts ++ us) = startOf ts := by
  cases ts with
  | nil => exact absurd rfl h
  | cons t ts => rfl

theorem endOf_append (h : us ≠ []) : endOf (ts ++ us) = endOf us := by
  rw [endOf, endOf, List.getLast?_append_of_ne_nil ts h]

theorem endOf_cons (h : us ≠ []) : endOf (t :: us) = endOf us := by
  rw [← List.singleton_append, endOf_append h]

@[simp] theorem endOf_concat : endOf (ts ++ [t]) = t.span.finish :=
  endOf_append (List.cons_ne_nil t [])

namespace Ordered

/-- A part of a token list is ordered as the whole is. -/
theorem of_sublist (h : Ordered us) (hts : ts.Sublist us) : Ordered ts :=
  ⟨fun t ht => h.nonempty t (hts.subset ht), h.disjoint.sublist hts⟩

theorem startOf_le (h : Ordered ts) (ht : t ∈ ts) : startOf ts ≤ t.span.start := by
  cases ts with
  | nil => cases ht
  | cons u ts =>
    rcases List.mem_cons.mp ht with rfl | ht
    · exact le_refl _
    · exact le_trans (h.nonempty u List.mem_cons_self).le ((List.pairwise_cons.mp h.disjoint).1 t ht)

theorem le_endOf (h : Ordered ts) (ht : t ∈ ts) : t.span.finish ≤ endOf ts := by
  obtain rfl | ⟨ts, u, rfl⟩ := List.eq_nil_or_concat' ts
  · cases ht
  · rw [endOf_concat]
    rcases List.mem_append.mp ht with ht | ht
    · exact le_trans ((List.pairwise_append.mp h.disjoint).2.2 t ht u List.mem_cons_self)
        (h.nonempty u (by simp)).le
    · rw [List.mem_singleton.mp ht]

/-- A segment lies inside the whole. -/
theorem spanOf_segment (h : Ordered us) (hts : ts <:+: us) (hne : ts ≠ []) :
    startOf us ≤ startOf ts ∧ endOf ts ≤ endOf us := by
  constructor
  · obtain ⟨t, more, rfl⟩ := List.exists_cons_of_ne_nil hne
    exact h.startOf_le (hts.subset List.mem_cons_self)
  · obtain rfl | ⟨more, t, rfl⟩ := List.eq_nil_or_concat' ts
    · exact absurd rfl hne
    · rw [endOf_concat]
      exact h.le_endOf (hts.subset (by simp))

/-- What stands behind a segment starts behind its end. -/
theorem endOf_le_startOf (h : Ordered (ts ++ us)) (hts : ts ≠ []) (hus : us ≠ []) :
    endOf ts ≤ startOf us := by
  obtain rfl | ⟨before, t, rfl⟩ := List.eq_nil_or_concat' ts
  · exact absurd rfl hts
  · obtain ⟨u, more, rfl⟩ := List.exists_cons_of_ne_nil hus
    rw [endOf_concat]
    exact (List.pairwise_append.mp h.disjoint).2.2 t (by simp) u List.mem_cons_self

end Ordered

end Segments

/-! ## How nodes are written -/

/-- A piece of a node: a mark of its own, or a node in it. -/
inductive NodePiece where
  | mark (l : Lexeme)
  | node (n : Node)

/-- The node that a piece is. -/
def NodePiece.node? : NodePiece → Option Node
  | mark _ => none
  | node n => some n

/-- Nodes with commas between them. -/
def separatedPieces (ns : List Node) : List NodePiece := (ns.map .node).intersperse (.mark .comma)

/-- Nodes in parentheses with commas between them. -/
def enclosedPieces (ns : List Node) : List NodePiece :=
  .mark .openParen :: (separatedPieces ns ++ [.mark .closeParen])

namespace Node

/-- The pieces of a node from left to right. -/
def pieces : Node → List NodePiece
  | expr (.number x _) => [.mark (.number x)]
  | expr (.string s _) => [.mark (.string s)]
  | expr (.name n _) => [.mark (.identifier n)]
  | expr (.binary left op right _ _) =>
    [.node (expr left), .mark op.lexeme, .node (expr right)]
  | expr (.negation operand _ _) => [.mark .minus, .node (expr operand)]
  | expr (.grouping inner _) => [.mark .openParen, .node (expr inner), .mark .closeParen]
  | argument a => [.mark (.identifier a.name), .mark .colon, .node (expr a.value)]
  | call c => .mark (.identifier c.callee) :: enclosedPieces (c.arguments.map argument)
  | block b => .mark .openBrace :: (b.calls.map (.node <| call ·) ++ [.mark .closeBrace])
  | parameter p =>
    .mark (.identifier p.name) ::
      match p.fallback with
      | some e => [.mark .assign, .node (expr e)]
      | none => []
  | shape s =>
    .mark (.identifier shapeKeyword) :: .mark (.identifier s.name) ::
      (enclosedPieces (s.parameters.map parameter) ++ [.node (block s.body)])
  | program p => p.shapes.map (.node <| shape ·)

/-- The nodes right below a node, from left to right. -/
def children (n : Node) : List Node := n.pieces.filterMap NodePiece.node?

/-- The second node is the first or lies somewhere below it. -/
def Contains : Node → Node → Prop := Relation.ReflTransGen fun n m => m ∈ n.children

/-- The span of a node. A program has none. -/
def span? : Node → Option Span
  | expr e => some e.span
  | argument a => some a.span
  | call c => some c.span
  | block b => some b.span
  | parameter p => some p.span
  | shape s => some s.span
  | program _ => none

/-- The position that diagnostics about a node point at. -/
def pos? : Node → Option Position
  | expr e => some e.pos
  | argument a => some a.pos
  | call c => some c.pos
  | block b => some b.span.start
  | parameter p => some p.span.start
  | shape s => some s.pos
  | program _ => none

/-- The node is a grouping. -/
def isGrouping : Node → Bool
  | expr (.grouping _ _) => true
  | _ => false

end Node

/-- The operator that an expression applies, as it is written, through any
number of groupings. -/
def Expr.applied? : Expr → Option Lexeme
  | binary _ op _ _ _ => some op.lexeme
  | negation _ _ _ => some .minus
  | grouping inner _ => inner.applied?
  | _ => none

/-! ## Derivations -/

mutual

/-- The node was read from these tokens: they are its pieces, it spans
them, and unless it is a grouping its position is that of the first of its
own marks. -/
inductive ReadFrom : Node → List Token → Prop
  | intro {n : Node} {ts marks : List Token} (hpieces : PiecesFrom n.pieces ts marks)
      (hspan : ∀ s ∈ n.span?, s = spanOf ts)
      (hpos : n.isGrouping = false → ∀ p ∈ n.pos?, ∃ t ∈ marks.head?, p = t.pos) : ReadFrom n ts

/-- The tokens are the pieces one behind the other, and these of them are
the marks. -/
inductive PiecesFrom : List NodePiece → List Token → List Token → Prop
  | nil : PiecesFrom [] [] []
  | mark {l : Lexeme} {t : Token} {ps : List NodePiece} {ts marks : List Token} (ht : t.lexeme = l)
      (h : PiecesFrom ps ts marks) : PiecesFrom (.mark l :: ps) (t :: ts) (t :: marks)
  | node {n : Node} {ps : List NodePiece} {segment ts marks : List Token} (hn : ReadFrom n segment)
      (h : PiecesFrom ps ts marks) : PiecesFrom (.node n :: ps) (segment ++ ts) marks

end

/-- Diagnostics about the node point at this one of its tokens: the first
of its own marks, or for a grouping the one for what it holds. -/
inductive PointsAt : Node → List Token → Token → Prop
  | mark {n : Node} {ts more : List Token} {t : Token} (hn : n.isGrouping = false)
      (hpieces : PiecesFrom n.pieces ts (t :: more)) : PointsAt n ts t
  | grouping {inner : Expr} {s : Span} {before ts after : List Token} {t : Token}
      (h : PointsAt (.expr inner) ts t) :
      PointsAt (.expr (.grouping inner s)) (before ++ (ts ++ after)) t

/-! ## Rows of pieces -/

namespace PiecesFrom

variable {ps qs : List NodePiece} {ts us marks marks' : List Token}

theorem append (h : PiecesFrom ps ts marks) (h' : PiecesFrom qs us marks') :
    PiecesFrom (ps ++ qs) (ts ++ us) (marks ++ marks') := by
  induction ps generalizing ts marks with
  | nil =>
    cases h
    exact h'
  | cons p ps ih =>
    cases h with
    | mark ht h => exact (ih h).mark ht
    | node hn h =>
      rw [List.append_assoc]
      exact (ih h).node hn

/-- A single node. -/
theorem single {n : Node} (h : ReadFrom n ts) : PiecesFrom [.node n] ts [] := by
  rw [← List.append_nil ts]
  exact nil.node h

theorem marks_sublist (h : PiecesFrom ps ts marks) : marks.Sublist ts := by
  induction ps generalizing ts marks with
  | nil =>
    cases h
    exact List.Sublist.refl _
  | cons p ps ih =>
    cases h with
    | mark _ h => exact (ih h).cons_cons _
    | node _ h => exact (ih h).trans (List.sublist_append_right _ _)

/-- A row with a mark in it takes a token. -/
theorem ne_nil {l : Lexeme} (h : PiecesFrom ps ts marks) (hl : .mark l ∈ ps) : ts ≠ [] := by
  induction ps generalizing ts marks with
  | nil => cases hl
  | cons p ps ih =>
    cases h with
    | mark _ h => exact List.cons_ne_nil _ _
    | node _ h =>
      obtain ⟨⟩ | ⟨_, hl⟩ := hl
      exact fun hnil => ih h hl (List.append_eq_nil_iff.mp hnil).2

/-- Every node of a row has a segment of its own. -/
theorem exists_segment {n : Node} (h : PiecesFrom ps ts marks)
    (hn : n ∈ ps.filterMap NodePiece.node?) : ∃ segment, segment <:+: ts ∧ ReadFrom n segment := by
  induction ps generalizing ts marks with
  | nil => cases hn
  | cons p ps ih =>
    cases h with
    | mark _ h =>
      obtain ⟨segment, hseg, hread⟩ := ih h hn
      exact ⟨segment, hseg.trans (List.suffix_cons _ _).isInfix, hread⟩
    | @node m ps segment ts _ hm h =>
      rcases List.mem_cons.mp (show n ∈ m :: ps.filterMap NodePiece.node? from hn) with rfl | hn
      · exact ⟨segment, List.infix_append' [] segment ts, hm⟩
      · obtain ⟨segment', hseg, hread⟩ := ih h hn
        exact ⟨segment', hseg.trans (List.suffix_append _ _).isInfix, hread⟩

end PiecesFrom

/-! ## Spans -/

namespace ReadFrom

variable {n m : Node} {ts : List Token}

theorem span_eq (h : ReadFrom n ts) : ∀ s ∈ n.span?, s = spanOf ts := by
  cases h with
  | intro _ hspan _ => exact hspan

/-- Nothing but an empty program is read from no token. -/
theorem ne_nil (h : ReadFrom n ts) {s : Span} (hs : s ∈ n.span?) : ts ≠ [] := by
  have hmark : ∃ l, .mark l ∈ n.pieces := by
    cases n with
    | program p => cases hs
    | expr e => cases e <;> simp [Node.pieces]
    | _ => simp [Node.pieces]
  obtain ⟨l, hl⟩ := hmark
  cases h with
  | intro hpieces _ _ => exact hpieces.ne_nil hl

/-- What lies below a node was read from a segment of its tokens. -/
theorem exists_segment (h : ReadFrom n ts) (hm : n.Contains m) :
    ∃ segment, segment <:+: ts ∧ ReadFrom m segment := by
  induction hm with
  | refl => exact ⟨ts, List.infix_refl ts, h⟩
  | tail _ hchild ih =>
    obtain ⟨segment, hseg, hread⟩ := ih
    cases hread with
    | intro hpieces _ _ =>
      obtain ⟨segment', hseg', hread'⟩ := hpieces.exists_segment hchild
      exact ⟨segment', hseg'.trans hseg, hread'⟩

/-- A child's span lies inside its parent's. -/
theorem span_child (h : ReadFrom n ts) (hts : Ordered ts) (hm : m ∈ n.children) :
    ∀ s ∈ n.span?, ∀ s' ∈ m.span?, s.start ≤ s'.start ∧ s'.finish ≤ s.finish := by
  intro s hs s' hs'
  rw [h.span_eq s hs]
  cases h with
  | intro hpieces _ _ =>
    obtain ⟨segment, hseg, hread⟩ := hpieces.exists_segment hm
    rw [hread.span_eq s' hs']
    exact hts.spanOf_segment hseg (hread.ne_nil hs')

end ReadFrom

/-- The spans of the nodes of a row are in order and do not overlap. -/
theorem PiecesFrom.pairwise_spans {ps : List NodePiece} {ts marks : List Token}
    (h : PiecesFrom ps ts marks) (hts : Ordered ts) :
    (ps.filterMap NodePiece.node?).Pairwise fun m n =>
      ∀ s ∈ m.span?, ∀ s' ∈ n.span?, s.finish ≤ s'.start := by
  induction ps generalizing ts marks with
  | nil => exact List.Pairwise.nil
  | cons p ps ih =>
    cases h with
    | mark _ h => exact ih h (hts.of_sublist (List.sublist_cons_self _ _))
    | node hm h =>
      refine List.pairwise_cons.mpr ⟨?_, ih h (hts.of_sublist (List.sublist_append_right _ _))⟩
      intro n hn s hs s' hs'
      obtain ⟨segment, hseg, hread⟩ := h.exists_segment hn
      have hbehind := (hts.of_sublist (List.sublist_append_right _ _)).spanOf_segment hseg
        (hread.ne_nil hs')
      rw [hm.span_eq s hs, hread.span_eq s' hs']
      refine le_trans (hts.endOf_le_startOf (hm.ne_nil hs) ?_) hbehind.1
      rintro rfl
      exact hread.ne_nil hs' (List.infix_nil.mp hseg)

theorem ReadFrom.pairwise_spans {n : Node} {ts : List Token} (h : ReadFrom n ts)
    (hts : Ordered ts) :
    n.children.Pairwise fun m m' => ∀ s ∈ m.span?, ∀ s' ∈ m'.span?, s.finish ≤ s'.start := by
  cases h with
  | intro hpieces _ _ => exact hpieces.pairwise_spans hts

/-! ## Positions -/

theorem PointsAt.mem {n : Node} {ts : List Token} {t : Token} (h : PointsAt n ts t) : t ∈ ts := by
  induction h with
  | mark _ hpieces => exact hpieces.marks_sublist.subset List.mem_cons_self
  | grouping _ ih => exact List.mem_append_right _ (List.mem_append_left _ ih)

/-- The token of an operator is the one that writes it. -/
theorem PointsAt.lexeme_eq {e : Expr} {ts : List Token} {t : Token} (h : PointsAt (.expr e) ts t) :
    ∀ l ∈ e.applied?, t.lexeme = l := by
  induction e generalizing ts with
  | binary left op right p s =>
    rintro _ ⟨⟩
    cases h with
    | mark _ hpieces =>
      cases hpieces with
      | node _ h =>
        cases h with
        | mark ht _ => exact ht
  | negation operand p s =>
    rintro _ ⟨⟩
    cases h with
    | mark _ hpieces =>
      cases hpieces with
      | mark ht _ => exact ht
  | grouping inner s ih =>
    cases h with
    | mark hn _ => cases hn
    | grouping h => exact ih h
  | _ => rintro _ ⟨⟩

/-- Every node has a token that diagnostics about it point at. -/
theorem ReadFrom.exists_pointsAt {n : Node} {ts : List Token} (h : ReadFrom n ts) :
    ∀ p ∈ n.pos?, ∃ t, PointsAt n ts t ∧ p = t.pos := by
  have hmark : ∀ {n ts}, ReadFrom n ts → n.isGrouping = false →
      ∀ p ∈ n.pos?, ∃ t, PointsAt n ts t ∧ p = t.pos := by
    intro n ts h hn p hp
    cases h with
    | @intro _ _ marks hpieces _ hpos =>
      obtain ⟨t, ht, rfl⟩ := hpos hn p hp
      obtain ⟨more, rfl⟩ := List.head?_eq_some_iff.mp ht
      exact ⟨t, .mark hn hpieces, rfl⟩
  cases n with
  | expr e =>
    induction e generalizing ts with
    | grouping inner s ih =>
      intro p hp
      cases h with
      | intro hpieces _ _ =>
        cases hpieces with
        | mark _ hpieces =>
          cases hpieces with
          | @node _ _ segment after _ hinner _ =>
            obtain ⟨t, ht, rfl⟩ := ih hinner p hp
            exact ⟨t, @PointsAt.grouping _ _ [_] _ _ _ ht, rfl⟩
    | _ => exact hmark h rfl
  | _ => exact hmark h rfl

end ShapeScript
