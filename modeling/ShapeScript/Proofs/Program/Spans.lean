/-
ShapeScript.Proofs.Program.Spans — the spans of a program that was read.

Each reader assembles the span of its node in its own way: from a keyword,
a name or an operand to the left, and from a closing mark, a value or a
default to the right. There is one lemma for each which says that the node
is read from the tokens consumed, and so spans them. The lemma about the
loop over operators takes the tokens of the left operand with it, since
the tree that is read grows to the right around it.

`spans_cover_tokens` is the main statement, about every node of a program
at once.
-/
import ShapeScript.Proofs.Library.Builtin
import ShapeScript.Proofs.Node.Derivation
import ShapeScript.Proofs.Program.Recognition

namespace ShapeScript

variable {finish : Position} {α : Type}

/-- What was taken from the tokens `ts` in front of `rest` is what the node
was read from. -/
def ReadsNode (n : Node) (ts rest : List Token) : Prop :=
  ∃ used, ts = used ++ rest ∧ ReadFrom n used

theorem ReadFrom.expr_ne_nil {e : Expr} {ts : List Token} (h : ReadFrom (.expr e) ts) : ts ≠ [] :=
  h.ne_nil rfl

theorem ReadFrom.expr_span {e : Expr} {ts : List Token} (h : ReadFrom (.expr e) ts) :
    e.span = spanOf ts :=
  h.span_eq _ rfl

/-! ## Expressions -/

/-- An expression of one token. -/
theorem readFrom_leaf {e : Expr} {l : Lexeme} {t : Token} (hpieces : (Node.expr e).pieces = [.mark l])
    (ht : t.lexeme = l) (hspan : e.span = t.span) (hpos : e.pos = t.pos) :
    ReadFrom (.expr e) [t] := by
  have hrow : PiecesFrom (Node.expr e).pieces [t] [t] := hpieces ▸ PiecesFrom.mark ht .nil
  refine .intro hrow ?_ ?_
  · rintro _ ⟨⟩
    exact hspan
  · rintro _ _ ⟨⟩
    exact ⟨t, rfl, hpos⟩

theorem readFrom_negation {operand : Expr} {t : Token} {ts : List Token} (ht : t.lexeme = .minus)
    (h : ReadFrom (.expr operand) ts) :
    ReadFrom (.expr (.negation operand t.pos ⟨t.span.start, operand.span.finish⟩)) (t :: ts) := by
  refine .intro (.mark ht (.single h)) ?_ ?_
  · rintro _ ⟨⟩
    rw [Expr.span, h.expr_span, spanOf, spanOf, endOf_cons h.expr_ne_nil]
    rfl
  · rintro _ _ ⟨⟩
    exact ⟨t, rfl, rfl⟩

theorem readFrom_grouping {inner : Expr} {t close : Token} {ts : List Token}
    (ht : t.lexeme = .openParen) (h : ReadFrom (.expr inner) ts)
    (hclose : close.lexeme = .closeParen) :
    ReadFrom (.expr (.grouping inner ⟨t.span.start, close.span.finish⟩)) (t :: (ts ++ [close])) := by
  refine .intro (.mark ht (.node h (.mark hclose .nil))) ?_ nofun
  rintro _ ⟨⟩
  rw [spanOf, endOf_cons (List.append_ne_nil_of_right_ne_nil ts (List.cons_ne_nil close [])),
    endOf_concat]
  rfl

theorem readFrom_binary {left right : Expr} {op : BinaryOp} {t : Token} {ts us : List Token}
    (hleft : ReadFrom (.expr left) ts) (ht : t.lexeme = op.lexeme)
    (hright : ReadFrom (.expr right) us) :
    ReadFrom (.expr (.binary left op right t.pos ⟨left.span.start, right.span.finish⟩))
      (ts ++ t :: us) := by
  refine .intro (.node hleft (.mark ht (.single hright))) ?_ ?_
  · rintro _ ⟨⟩
    rw [Expr.span, hleft.expr_span, hright.expr_span, spanOf, spanOf, spanOf,
      startOf_append hleft.expr_ne_nil, endOf_append (List.cons_ne_nil t us),
      endOf_cons hright.expr_ne_nil]
  · rintro _ _ ⟨⟩
    exact ⟨t, rfl, rfl⟩

/-- What reading an expression takes. -/
def ExpressionReads (finish : Position) (ts : List Token) : Prop :=
  ∀ (r : Int) (e : Expr) (rest : List Token), (expression finish r ts).Gives e rest →
    ReadsNode (.expr e) ts rest

/-- What the loop takes behind the tokens of the tree to its left. -/
def ContinuationReads (finish : Position) (ts : List Token) : Prop :=
  ∀ (r : Int) (left e : Expr) (before rest : List Token), ReadFrom (.expr left) before →
    (continuation finish r left ts).Gives e rest → ReadsNode (.expr e) (before ++ ts) rest

theorem operand_readsNode {t : Token} {ts : List Token} (ih : ExpressionReads finish ts) {e : Expr}
    {rest : List Token} (h : OperandAt finish t ts e rest) :
    ReadsNode (.expr e) (t :: ts) rest := by
  cases h with
  | name ht _ => exact ⟨[t], rfl, readFrom_leaf rfl ht rfl rfl⟩
  | number ht => exact ⟨[t], rfl, readFrom_leaf rfl ht rfl rfl⟩
  | string ht => exact ⟨[t], rfl, readFrom_leaf rfl ht rfl rfl⟩
  | negation ht he =>
    obtain ⟨used, rfl, hread⟩ := ih _ _ _ he
    exact ⟨t :: used, rfl, readFrom_negation ht hread⟩
  | @grouping inner close rest ht he hc =>
    obtain ⟨used, rfl, hread⟩ := ih _ _ _ he
    exact ⟨t :: (used ++ [close]), by simp, readFrom_grouping ht hread hc⟩

theorem continuation_readsNode_step {ts : List Token}
    (ih : ∀ ts' : List Token, ts'.length < ts.length →
      ExpressionReads finish ts' ∧ ContinuationReads finish ts') :
    ContinuationReads finish ts := by
  intro r left e before rest hleft h
  cases hb : bindsTighter r ts with
  | false =>
    obtain ⟨rfl, rfl⟩ := (gives_continuation_stop hb).mp h
    exact ⟨before, rfl, hleft⟩
  | true =>
    cases ts with
    | nil => cases hb
    | cons t more =>
      obtain ⟨next, middle, hn, hmore⟩ := (gives_continuation_step (of_decide_eq_true hb)).mp h
      obtain ⟨op, right, ht, hright, rfl⟩ := gives_application.mp hn
      obtain ⟨used, rfl, hread⟩ := (ih more (Nat.lt_succ_self _)).1 _ _ _ hright
      obtain ⟨all, hall, hread'⟩ := (ih middle (Nat.lt_succ_of_lt hright.length_lt)).2 _ _ _ _ _
        (readFrom_binary hleft ht hread) hmore
      exact ⟨all, by rw [← hall]; simp, hread'⟩

theorem expression_and_continuation_readsNode (ts : List Token) :
    ExpressionReads finish ts ∧ ContinuationReads finish ts := by
  -- by strong induction on the number of tokens
  induction hn : ts.length using Nat.strongRecOn generalizing ts with
  | ind n ih =>
    subst hn
    have ih' : ∀ ts' : List Token, ts'.length < ts.length →
        ExpressionReads finish ts' ∧ ContinuationReads finish ts' :=
      fun ts' h => ih ts'.length h ts' rfl
    refine ⟨?_, continuation_readsNode_step ih'⟩
    intro r e rest h
    obtain ⟨t, more, left, middle, rfl, hl, h⟩ := gives_expression.mp h
    obtain ⟨used, hused, hread⟩ :=
      operand_readsNode (ih' more (Nat.lt_succ_self _)).1 (.of_gives hl)
    obtain ⟨all, hall, hread'⟩ := (ih' middle hl.length_lt).2 _ _ _ _ _ hread h
    exact ⟨all, hused.trans hall, hread'⟩

theorem expression_readsNode {r : Int} {ts : List Token} {e : Expr} {rest : List Token}
    (h : (expression finish r ts).Gives e rest) : ReadsNode (.expr e) ts rest :=
  (expression_and_continuation_readsNode ts).1 r e rest h

/-! ## Lists -/

section Lists

variable {item : (ts : List Token) → Reading α ts.length} {toNode : α → Node}

theorem readSeparated_pieces
    (hitem : ∀ {ts a rest}, (item ts).Gives a rest → ReadsNode (toNode a) ts rest)
    {ts : List Token} {as : List α} {rest : List Token}
    (h : (readSeparated item ts).Gives as rest) :
    ∃ used marks, ts = used ++ rest ∧ PiecesFrom (separatedPieces (as.map toNode)) used marks := by
  induction as generalizing ts with
  | nil => exact absurd rfl (readSeparated_ne_nil h)
  | cons a as ih =>
    obtain ⟨_, middle, ha, ⟨_, hlast, rfl⟩ | ⟨t, more, as', rfl, ht, has, hcons⟩⟩ :=
      gives_readSeparated.mp h
    · obtain ⟨rfl, rfl⟩ := List.cons.inj hlast
      obtain ⟨used, rfl, hread⟩ := hitem ha
      exact ⟨used, _, rfl, .single hread⟩
    · obtain ⟨rfl, rfl⟩ := List.cons.inj hcons
      obtain ⟨used, rfl, hread⟩ := hitem ha
      obtain ⟨behind, marks, rfl, hpieces⟩ := ih has
      obtain ⟨b, bs, rfl⟩ := List.exists_cons_of_ne_nil (readSeparated_ne_nil has)
      exact ⟨used ++ t :: behind, _, by simp, .node hread (.mark ht hpieces)⟩

/-- A list in parentheses, from behind the opening one to the closing one,
which is the last token taken. -/
theorem readEnclosed_pieces
    (hitem : ∀ {ts a rest}, (item ts).Gives a rest → ReadsNode (toNode a) ts rest)
    {closing : String} {ts : List Token} {as : List α × Token} {rest : List Token}
    (h : (readEnclosed finish item closing ts).Gives as rest) :
    ∃ used marks, ts = used ++ as.2 :: rest ∧
      PiecesFrom (separatedPieces (as.1.map toNode) ++ [.mark .closeParen]) (used ++ [as.2])
        marks := by
  rw [readEnclosed] at h
  split at h
  · obtain ⟨t, hread, rfl⟩ := Reading.gives_map.mp h
    obtain ⟨rfl, ht⟩ := (gives_expect_mark (m := .closeParen) (by decide)).mp hread
    exact ⟨[], _, rfl, .mark ht .nil⟩
  · obtain ⟨items, middle, hitems, hclose⟩ := Reading.gives_thenRead.mp h
    obtain ⟨t, hread, rfl⟩ := Reading.gives_map.mp hclose
    obtain ⟨rfl, ht⟩ := (gives_expect_mark (m := .closeParen) (by decide)).mp hread
    obtain ⟨used, marks, rfl, hpieces⟩ := readSeparated_pieces hitem hitems
    exact ⟨used, _, rfl, hpieces.append (.mark ht .nil)⟩

end Lists

/-! ## Declarations -/

theorem readArgument_readsNode {ts : List Token} {a : Argument} {rest : List Token}
    (h : (readArgument finish ts).Gives a rest) : ReadsNode (.argument a) ts rest := by
  obtain ⟨s, middle, hname, h⟩ := Reading.gives_thenRead.mp h
  obtain ⟨t, behind, hcolon, h⟩ := Reading.gives_thenRead.mp h
  obtain ⟨e, he, rfl⟩ := Reading.gives_map.mp h
  obtain ⟨rfl, _⟩ := gives_readName.mp hname
  obtain ⟨rfl, ht⟩ := (gives_expect_mark (m := .colon) (by decide)).mp hcolon
  obtain ⟨used, rfl, hread⟩ := expression_readsNode he
  refine ⟨_ :: t :: used, rfl, .intro (.mark rfl (.mark ht (.single hread))) ?_ ?_⟩
  · rintro _ ⟨⟩
    rw [hread.expr_span, spanOf, spanOf, endOf_cons (List.cons_ne_nil _ _),
      endOf_cons hread.expr_ne_nil]
    rfl
  · rintro _ _ ⟨⟩
    exact ⟨_, rfl, rfl⟩

theorem readCall_readsNode {ts : List Token} {c : Call} {rest : List Token}
    (h : (readCall finish ts).Gives c rest) : ReadsNode (.call c) ts rest := by
  obtain ⟨s, middle, hname, h⟩ := Reading.gives_thenRead.mp h
  obtain ⟨t, behind, hopen, h⟩ := Reading.gives_thenRead.mp h
  obtain ⟨⟨as, close⟩, has, rfl⟩ := Reading.gives_map.mp h
  obtain ⟨rfl, _⟩ := gives_readName.mp hname
  obtain ⟨rfl, ht⟩ := (gives_expect_mark (m := .openParen) (by decide)).mp hopen
  obtain ⟨used, marks, rfl, hpieces⟩ := readEnclosed_pieces readArgument_readsNode has
  refine ⟨⟨.identifier s.name, s.span⟩ :: t :: (used ++ [close]), by simp,
    .intro (.mark rfl (.mark ht hpieces)) ?_ ?_⟩
  · rintro _ ⟨⟩
    rw [spanOf, ← List.cons_append, ← List.cons_append, endOf_concat]
    rfl
  · rintro _ _ ⟨⟩
    exact ⟨_, rfl, rfl⟩

/-- The calls of a block up to its closing brace, which is the last token
taken. -/
theorem readCalls_pieces {ts : List Token} {cs : List Call} {close : Token} {rest : List Token}
    (h : (readCalls finish ts).Gives (cs, close) rest) :
    ∃ used marks, ts = used ++ close :: rest ∧
      PiecesFrom (cs.map (.node <| .call ·) ++ [.mark .closeBrace]) (used ++ [close]) marks := by
  induction cs generalizing ts with
  | nil =>
    obtain ⟨_, rfl, ht⟩ | ⟨_, _, _, _, _, _, hnil⟩ := (gives_readCalls finish).mp h
    · exact ⟨[], _, rfl, .mark ht .nil⟩
    · cases hnil
  | cons c cs ih =>
    obtain ⟨hnil, _⟩ | ⟨_, middle, _, _, hc, hcs, hcons⟩ := (gives_readCalls finish).mp h
    · cases hnil
    · obtain ⟨rfl, rfl⟩ := List.cons.inj hcons
      obtain ⟨used, rfl, hread⟩ := readCall_readsNode hc
      obtain ⟨behind, marks, rfl, hpieces⟩ := ih hcs
      refine ⟨used ++ behind, marks, by simp, ?_⟩
      rw [List.append_assoc]
      exact .node hread hpieces

theorem readBlock_readsNode {ts : List Token} {b : Block} {rest : List Token}
    (h : (readBlock finish ts).Gives b rest) : ReadsNode (.block b) ts rest := by
  obtain ⟨t, middle, hopen, h⟩ := Reading.gives_thenRead.mp h
  obtain ⟨⟨cs, close⟩, hcs, rfl⟩ := Reading.gives_map.mp h
  obtain ⟨rfl, ht⟩ := (gives_expect_mark (m := .openBrace) (by decide)).mp hopen
  obtain ⟨used, marks, rfl, hpieces⟩ := readCalls_pieces hcs
  refine ⟨t :: (used ++ [close]), by simp, .intro (.mark ht hpieces) ?_ ?_⟩
  · rintro _ ⟨⟩
    rw [spanOf, ← List.cons_append, endOf_concat]
    rfl
  · rintro _ _ ⟨⟩
    exact ⟨t, rfl, rfl⟩

theorem readParameter_readsNode {ts : List Token} {p : Parameter} {rest : List Token}
    (h : (readParameter finish ts).Gives p rest) : ReadsNode (.parameter p) ts rest := by
  obtain ⟨s, middle, hname, hmore⟩ := (gives_readParameter finish).mp h
  obtain ⟨rfl, _⟩ := gives_readName.mp hname
  obtain ⟨_, rfl, rfl⟩ | ⟨t, more, e, rfl, ht, he, rfl⟩ := hmore
  · refine ⟨[_], rfl, .intro (.mark rfl .nil) ?_ ?_⟩
    · rintro _ ⟨⟩
      rfl
    · rintro _ _ ⟨⟩
      exact ⟨_, rfl, rfl⟩
  · obtain ⟨used, rfl, hread⟩ := expression_readsNode he
    refine ⟨_ :: t :: used, rfl, .intro (.mark rfl (.mark ht (.single hread))) ?_ ?_⟩
    · rintro _ ⟨⟩
      rw [hread.expr_span, spanOf, spanOf, endOf_cons (List.cons_ne_nil _ _),
        endOf_cons hread.expr_ne_nil]
      rfl
    · rintro _ _ ⟨⟩
      exact ⟨_, rfl, rfl⟩

theorem readShape_readsNode {ts : List Token} {s : Shape} {rest : List Token}
    (h : (readShape finish ts).Gives s rest) : ReadsNode (.shape s) ts rest := by
  obtain ⟨keyword, afterKeyword, hkeyword, h⟩ := Reading.gives_thenRead.mp h
  obtain ⟨n, afterName, hname, h⟩ := Reading.gives_thenRead.mp h
  obtain ⟨t, afterOpen, hopen, h⟩ := Reading.gives_thenRead.mp h
  obtain ⟨⟨ps, close⟩, afterParameters, hps, h⟩ := Reading.gives_thenRead.mp h
  obtain ⟨b, hb, rfl⟩ := Reading.gives_map.mp h
  obtain ⟨rfl, hk⟩ := (gives_readKeyword finish).mp hkeyword
  obtain ⟨rfl, _⟩ := gives_readName.mp hname
  obtain ⟨rfl, ht⟩ := (gives_expect_mark (m := .openParen) (by decide)).mp hopen
  obtain ⟨used, marks, rfl, hpieces⟩ := readEnclosed_pieces readParameter_readsNode hps
  obtain ⟨body, rfl, hbody⟩ := readBlock_readsNode hb
  have hne : body ≠ [] := hbody.ne_nil rfl
  refine ⟨keyword :: ⟨.identifier n.name, n.span⟩ :: t :: (used ++ [close] ++ body), by simp,
    .intro (.mark hk (.mark rfl (.mark ht (hpieces.append (.single hbody))))) ?_ ?_⟩
  · rintro _ ⟨⟩
    rw [hbody.span_eq _ rfl, spanOf, spanOf, ← List.cons_append, ← List.cons_append,
      ← List.cons_append, endOf_append hne]
    rfl
  · rintro _ _ ⟨⟩
    exact ⟨keyword, rfl, rfl⟩

theorem readShapes_pieces {ts : List Token} {shapes : List Shape} {rest : List Token}
    (h : (readShapes finish ts).Gives shapes rest) :
    ∃ marks, PiecesFrom (shapes.map (.node <| .shape ·)) ts marks := by
  induction shapes generalizing ts with
  | nil =>
    obtain ⟨_, rfl, rfl⟩ | ⟨_, _, _, _, _, _, hnil⟩ := (gives_readShapes finish).mp h
    · exact ⟨[], .nil⟩
    · cases hnil
  | cons s shapes ih =>
    obtain ⟨hnil, _⟩ | ⟨_, middle, _, _, hs, hshapes, hcons⟩ := (gives_readShapes finish).mp h
    · cases hnil
    · obtain ⟨rfl, rfl⟩ := List.cons.inj hcons
      obtain ⟨used, rfl, hread⟩ := readShape_readsNode hs
      obtain ⟨marks, hpieces⟩ := ih hshapes
      exact ⟨marks, .node hread hpieces⟩

/-- A program is read from all tokens. -/
theorem parseProgram_readFrom {ts : List Token} {p : Program} (h : parseProgram ts = .ok p) :
    ReadFrom (.program p) ts ∧ p.finish = endOf ts := by
  obtain ⟨shapes, hshapes, rfl⟩ := parseProgram_eq_ok.mp h
  obtain ⟨marks, hpieces⟩ := readShapes_pieces hshapes
  exact ⟨.intro hpieces nofun nofun, rfl⟩

/-- Spans cover exactly the tokens read. Every node of a program was read
from a segment of the program's tokens and spans it from its first token
to its last; so the span of a child lies inside its parent's, and those of
siblings follow one another. Diagnostics about a node point at the start
of one of its tokens, and for an operator, through any number of
groupings, that is the token of the operator. The program ends with its
last token. -/
theorem spans_cover_tokens {source : String} {ts : List Token} {p : Program}
    (hscan : scan source = .ok ts) (hparse : parseProgram ts = .ok p) :
    ReadFrom (.program p) ts ∧ p.finish = endOf ts ∧
    ∀ n, (Node.program p).Contains n →
      (∃ segment, segment <:+: ts ∧ ReadFrom n segment ∧
        (∀ s ∈ n.span?, segment ≠ [] ∧ s = ⟨startOf segment, endOf segment⟩) ∧
        ∀ q ∈ n.pos?, ∃ t ∈ segment, PointsAt n segment t ∧ q = t.pos ∧
          ∀ e, n = .expr e → ∀ l ∈ e.applied?, t.lexeme = l) ∧
      (∀ m ∈ n.children, ∀ s ∈ n.span?, ∀ s' ∈ m.span?, s.start ≤ s'.start ∧ s'.finish ≤ s.finish) ∧
      n.children.Pairwise fun m m' => ∀ s ∈ m.span?, ∀ s' ∈ m'.span?, s.finish ≤ s'.start := by
  have hordered : Ordered ts := ordered_of_scan hscan
  obtain ⟨hread, hfinish⟩ := parseProgram_readFrom hparse
  refine ⟨hread, hfinish, fun n hn => ?_⟩
  obtain ⟨segment, hsegment, hread⟩ := hread.exists_segment hn
  have hordered : Ordered segment := hordered.of_sublist hsegment.sublist
  refine ⟨⟨segment, hsegment, hread, fun s hs => ⟨hread.ne_nil hs, hread.span_eq s hs⟩, ?_⟩,
    fun m hm => hread.span_child hordered hm, hread.pairwise_spans hordered⟩
  intro q hq
  obtain ⟨t, ht, rfl⟩ := hread.exists_pointsAt q hq
  refine ⟨t, ht.mem, ht, rfl, ?_⟩
  rintro e rfl
  exact ht.lexeme_eq

/-- A program that writes the negation of a grouping. -/
def negatedGrouping : String := "shape main() \x7b svg(value: -(\"a\" + 1)) \x7d"

/-- Its characters. -/
def negatedGroupingChars : { cs : List Char // negatedGrouping = .ofList cs } := ⟨_, rfl⟩

theorem negatedGroupingChars_parses : (programOfChars negatedGroupingChars.1).isSome := by
  decide +kernel

/-- Every node of that program spans the segment of tokens that it was read
from. -/
theorem negatedGrouping_spans : ∃ ts p, scan negatedGrouping = .ok ts ∧ parseProgram ts = .ok p ∧
    ∀ n, (Node.program p).Contains n → ∃ segment, segment <:+: ts ∧ ReadFrom n segment ∧
      ∀ s ∈ n.span?, segment ≠ [] ∧ s = ⟨startOf segment, endOf segment⟩ := by
  obtain ⟨p, hp⟩ := Option.isSome_iff_exists.mp negatedGroupingChars_parses
  obtain ⟨ts, hscan, hparse⟩ := parse_ofList hp
  rw [← negatedGroupingChars.2] at hscan
  obtain ⟨_, _, hnodes⟩ := spans_cover_tokens hscan hparse
  refine ⟨ts, p, hscan, hparse, fun n hn => ?_⟩
  obtain ⟨⟨segment, hinfix, hread, hspan, _⟩, _, _⟩ := hnodes n hn
  exact ⟨segment, hinfix, hread, hspan⟩

end ShapeScript
