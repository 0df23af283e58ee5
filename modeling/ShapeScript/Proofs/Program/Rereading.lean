/-
ShapeScript.Proofs.Program.Rereading — what is read from the lexemes of a
tree is that tree.

`Recognition` says which lexemes are read; this is about what comes of
them. A tree can be read back if its expressions are well formed and no
name in it is reserved. Where its lexemes stand in front of what may follow
it, its reader then gives the tree itself, up to positions: `Rereads`. The
readers have one theorem each, put together from those of the readers that
they call, and `parseProgram_rereads` is the one for whole token lists.
-/
import ShapeScript.Proofs.Alike
import ShapeScript.Proofs.Program.Recognition

namespace ShapeScript

/-! ## Definitions -/

structure Argument.Readable (a : Argument) : Prop where
  free : isReserved a.name = false
  wellFormed : a.value.WellFormed
  namesFree : a.value.NamesFree

structure Call.Readable (c : Call) : Prop where
  free : isReserved c.callee = false
  arguments : ∀ a ∈ c.arguments, a.Readable

structure Parameter.Readable (p : Parameter) : Prop where
  free : isReserved p.name = false
  wellFormed : ∀ e ∈ p.fallback, e.WellFormed
  namesFree : ∀ e ∈ p.fallback, e.NamesFree

structure Shape.Readable (s : Shape) : Prop where
  free : isReserved s.name = false
  parameters : ∀ p ∈ s.parameters, p.Readable
  calls : ∀ c ∈ s.body.calls, c.Readable

/-- The reader gives back what was written, up to `V`, where tokens follow
for which `follow` holds. -/
def Rereads {α : Type} {bound : List Token → Nat} (read : (ts : List Token) → Reading α (bound ts))
    (V : α → α → Prop) (write : α → List Lexeme) (follow : List Token → Prop) (a : α) : Prop :=
  ∀ {ts rest : List Token}, Spells ts (write a) rest → follow rest →
    ∃ a', (read ts).Gives a' rest ∧ V a' a

variable (finish : Position) {α : Type}

/-! ## Expressions, arguments and parameters -/

/-- Trees with one outline differ in their positions only. -/
theorem Expr.SameOutline.alike {e f : Expr} (h : e.SameOutline f) : e.Alike AnyPositions f := by
  induction e generalizing f with
  | number x s => obtain ⟨s', rfl⟩ := h.of_number; exact .number trivial
  | string x s => obtain ⟨s', rfl⟩ := h.of_string; exact .string trivial
  | name n s => obtain ⟨s', rfl⟩ := h.of_name; exact .name trivial
  | binary left op right p s ihl ihr =>
    obtain ⟨left', right', p', s', rfl, hl, hr⟩ := h.of_binary
    exact .binary (ihl hl) (ihr hr) trivial
  | negation operand p s ih =>
    obtain ⟨operand', p', s', rfl, ho⟩ := h.of_negation
    exact .negation (ih ho) trivial
  | grouping inner s ih =>
    obtain ⟨inner', s', rfl, hi⟩ := h.of_grouping
    exact .grouping (ih hi)

/-- An expression ends where no operator follows. -/
theorem expression_rereads {e : Expr} (hwell : e.WellFormed) (hfree : e.NamesFree) :
    Rereads (expression finish 0) (Expr.Alike AnyPositions) Expr.lexemes
      (fun rest => bindsTighter 0 rest = false) e := by
  intro ts rest hspell hrest
  obtain ⟨e', hsame, he'⟩ := expression_gives finish hwell hfree hspell hrest
  exact ⟨e', he', hsame.alike⟩

theorem readArgument_rereads {a : Argument} (ha : a.Readable) :
    Rereads (readArgument finish) (Argument.Alike AnyPositions) Argument.lexemes ItemEnd a := by
  intro ts rest hspell hrest
  obtain ⟨span, middle, rfl, hmiddle⟩ := Spells.name_iff.mp hspell
  obtain ⟨colon, behind, rfl, hcolon, hvalue⟩ := Spells.cons_iff.mp hmiddle
  obtain ⟨e, he, halike⟩ :=
    expression_rereads finish ha.wellFormed ha.namesFree hvalue hrest.bindsTighter_eq
  exact ⟨_, (readName_gives ha.free span _).thenRead ((expect_gives hcolon _ _).thenRead
    (he.map _)), rfl, halike, trivial⟩

/-- Without a default a parameter ends behind its name, where no equals sign may
follow. -/
theorem readParameter_rereads {p : Parameter} (hp : p.Readable) :
    Rereads (readParameter finish) (Parameter.Alike AnyPositions) Parameter.lexemes ItemEnd p := by
  intro ts rest hspell hrest
  obtain ⟨span, middle, rfl, hmiddle⟩ := Spells.name_iff.mp hspell
  have hname := @readName_gives finish _ hp.free span middle
  obtain ⟨name, fallback, _⟩ := p
  cases fallback with
  | none =>
    obtain rfl := Spells.nil_iff.mp hmiddle
    exact ⟨_, (gives_readParameter finish).mpr ⟨_, _, hname, .inl ⟨hrest.nextIs_assign, rfl, rfl⟩⟩,
      rfl, .none⟩
  | some e =>
    obtain ⟨t, more, rfl, ht, hvalue⟩ := Spells.cons_iff.mp hmiddle
    obtain ⟨e', he', halike⟩ :=
      expression_rereads finish (hp.wellFormed e rfl) (hp.namesFree e rfl) hvalue
        hrest.bindsTighter_eq
    exact ⟨_, (gives_readParameter finish).mpr
      ⟨_, _, hname, .inr ⟨t, more, e', rfl, ht, he', rfl⟩⟩, rfl, .some halike⟩

/-! ## Lists -/

section Lists

variable {item : (ts : List Token) → Reading α ts.length} {V : α → α → Prop}
  {write : α → List Lexeme} {as : List α} {ts rest : List Token}

/-- Behind every item stands a comma or the parenthesis, and either ends it. -/
theorem readSeparated_rereads (hitems : ∀ a ∈ as, Rereads item V write ItemEnd a) (hne : as ≠ [])
    (hspell : Spells ts ([Lexeme.comma].intercalate (as.map write)) rest)
    (hrest : ∃ t more, rest = t :: more ∧ t.lexeme = .closeParen) :
    ∃ as', (readSeparated item ts).Gives as' rest ∧ List.Forall₂ V as' as := by
  induction as generalizing ts with
  | nil => exact absurd rfl hne
  | cons a as ih =>
    obtain ⟨hitem, hmore⟩ := List.forall_mem_cons.mp hitems
    cases as with
    | nil =>
      rw [List.map_singleton, List.intercalate_singleton] at hspell
      obtain ⟨t, more, rfl, ht⟩ := hrest
      obtain ⟨a', ha', halike⟩ := hitem hspell ⟨t, more, rfl, .inr ht⟩
      refine ⟨[a'], gives_readSeparated.mpr ⟨a', _, ha', .inl ⟨?_, rfl, rfl⟩⟩, .cons halike .nil⟩
      rw [nextIs, Token.kind, ht]
      rfl
    | cons b as =>
      rw [List.map_cons, List.map_cons, List.intercalate_cons_cons, List.append_assoc,
        ← List.map_cons (f := write)] at hspell
      obtain ⟨middle, hfirst, hbehind⟩ := Spells.append_iff.mp hspell
      obtain ⟨t, more, rfl, ht, hspells⟩ := Spells.cons_iff.mp hbehind
      obtain ⟨a', ha', halike⟩ := hitem hfirst ⟨t, more, rfl, .inl ht⟩
      obtain ⟨as', has', hall⟩ := ih hmore (List.cons_ne_nil b as) hspells
      exact ⟨a' :: as', gives_readSeparated.mpr
        ⟨a', _, ha', .inr ⟨t, more, as', rfl, ht, has', rfl⟩⟩, .cons halike hall⟩

/-- A list in parentheses, from behind the opening one. -/
theorem readEnclosed_rereads (hitems : ∀ a ∈ as, Rereads item V write ItemEnd a)
    (hname : ∀ a ∈ as, ∃ n v, write a = .identifier n :: v) (closing : String)
    (hspell : Spells ts ([Lexeme.comma].intercalate (as.map write) ++ [.closeParen]) rest) :
    ∃ as' close, (readEnclosed finish item closing ts).Gives (as', close) rest ∧
      List.Forall₂ V as' as := by
  obtain ⟨middle, hspells, hclose⟩ := Spells.append_iff.mp hspell
  obtain ⟨t, more, rfl, ht, hmore⟩ := Spells.cons_iff.mp hclose
  obtain rfl := Spells.nil_iff.mp hmore
  rw [readEnclosed]
  cases as with
  | nil =>
    obtain rfl := Spells.nil_iff.mp hspells
    have hnext : nextIs .closeParen (t :: more) = true :=
      nextIs_cons.mpr (congrArg Lexeme.kind ht)
    rw [if_pos hnext]
    exact ⟨[], t, (expect_gives ht closing more).map _, .nil⟩
  | cons a as =>
    obtain ⟨as', has', hall⟩ :=
      readSeparated_rereads hitems (List.cons_ne_nil a as) hspells ⟨t, more, rfl, ht⟩
    have hnext : nextIs .closeParen ts = false := by
      obtain ⟨n, v, hv⟩ := hname a List.mem_cons_self
      obtain ⟨w, hw⟩ : ∃ w, [Lexeme.comma].intercalate ((a :: as).map write) = write a ++ w := by
        cases as with
        | nil => exact ⟨[], by rw [List.map_singleton, List.intercalate_singleton, List.append_nil]⟩
        | cons b as => exact ⟨_, List.intercalate_cons_cons.trans (List.append_assoc ..)⟩
      rw [hw, hv] at hspells
      obtain ⟨span, ts', rfl, -⟩ := Spells.name_iff.mp hspells
      rfl
    rw [hnext]
    exact ⟨as', t, has'.thenRead ((expect_gives ht closing more).map _), hall⟩

end Lists

/-! ## Calls and blocks -/

theorem readCall_rereads {c : Call} (hc : c.Readable) :
    Rereads (readCall finish) (Call.Alike AnyPositions) Call.lexemes (fun _ => True) c := by
  intro ts rest hspell _
  obtain ⟨span, middle, rfl, hmiddle⟩ := Spells.name_iff.mp hspell
  obtain ⟨t, behind, rfl, ht, hbehind⟩ := Spells.cons_iff.mp hmiddle
  obtain ⟨as, close, has, hall⟩ := readEnclosed_rereads finish
    (fun a ha => readArgument_rereads finish (hc.arguments a ha)) (fun a _ => ⟨a.name, _, rfl⟩)
    "')' to close the call" hbehind
  exact ⟨_, (readName_gives hc.free span _).thenRead ((expect_gives ht _ _).thenRead (has.map _)),
    rfl, hall, trivial⟩

theorem readCalls_rereads {cs : List Call} (hcs : ∀ c ∈ cs, c.Readable) {ts rest : List Token}
    (hspell : Spells ts (cs.flatMap Call.lexemes ++ [.closeBrace]) rest) :
    ∃ cs' t, (readCalls finish ts).Gives (cs', t) rest ∧
      List.Forall₂ (Call.Alike AnyPositions) cs' cs := by
  induction cs generalizing ts with
  | nil =>
    obtain ⟨t, more, rfl, ht, hmore⟩ := Spells.cons_iff.mp hspell
    obtain rfl := Spells.nil_iff.mp hmore
    exact ⟨[], t, (gives_readCalls finish).mpr (.inl ⟨rfl, rfl, ht⟩), .nil⟩
  | cons c cs ih =>
    obtain ⟨hc, hmore⟩ := List.forall_mem_cons.mp hcs
    rw [List.flatMap_cons, List.append_assoc] at hspell
    obtain ⟨middle, hfirst, hspells⟩ := Spells.append_iff.mp hspell
    obtain ⟨c', hc', halike⟩ := readCall_rereads finish hc hfirst trivial
    obtain ⟨cs', t, hcs', hall⟩ := ih hmore hspells
    refine ⟨c' :: cs', t, (gives_readCalls finish).mpr
      (.inr ⟨c', middle, cs', ?_, hc', hcs', rfl⟩), .cons halike hall⟩
    obtain ⟨span, ts', rfl, -⟩ := Spells.name_iff.mp hfirst
    rfl

theorem readBlock_rereads {b : Block} (hb : ∀ c ∈ b.calls, c.Readable) :
    Rereads (readBlock finish) (Block.Alike AnyPositions) Block.lexemes (fun _ => True) b := by
  intro ts rest hspell _
  obtain ⟨t, middle, rfl, ht, hmiddle⟩ := Spells.cons_iff.mp hspell
  obtain ⟨cs, close, hcs, hall⟩ := readCalls_rereads finish hb hmiddle
  exact ⟨_, (expect_gives ht _ _).thenRead (hcs.map _), ⟨hall⟩⟩

/-! ## Shapes and programs -/

theorem readShape_rereads {s : Shape} (hs : s.Readable) :
    Rereads (readShape finish) (Shape.Alike AnyPositions) Shape.lexemes (fun _ => True) s := by
  intro ts rest hspell _
  obtain ⟨keyword, afterKeyword, rfl, hk, h₁⟩ := Spells.cons_iff.mp hspell
  obtain ⟨span, afterName, rfl, h₂⟩ := Spells.name_iff.mp h₁
  obtain ⟨t, afterOpen, rfl, ht, h₃⟩ := Spells.cons_iff.mp h₂
  obtain ⟨afterParameters, hparameters, hblock⟩ := Spells.append_iff.mp h₃
  obtain ⟨ps, close, hps, hall⟩ := readEnclosed_rereads finish
    (fun p hp => readParameter_rereads finish (hs.parameters p hp)) (fun p _ => ⟨p.name, _, rfl⟩)
    "')' to close the parameter list" hparameters
  obtain ⟨b, hb, hbody⟩ := readBlock_rereads finish hs.calls hblock trivial
  exact ⟨_, (readKeyword_gives finish hk _).thenRead ((readName_gives hs.free span _).thenRead
    ((expect_gives ht _ _).thenRead (hps.thenRead (hb.map _)))), rfl, hall, hbody, trivial⟩

theorem readShapes_rereads {shapes : List Shape} (hshapes : ∀ s ∈ shapes, s.Readable)
    {ts : List Token} (hspell : Spells ts (shapes.flatMap Shape.lexemes) []) :
    ∃ shapes', (readShapes finish ts).Gives shapes' [] ∧
      List.Forall₂ (Shape.Alike AnyPositions) shapes' shapes := by
  induction shapes generalizing ts with
  | nil =>
    obtain rfl := Spells.nil_iff.mp hspell
    exact ⟨[], (gives_readShapes finish).mpr (.inl ⟨rfl, rfl, rfl⟩), .nil⟩
  | cons s shapes ih =>
    obtain ⟨hs, hmore⟩ := List.forall_mem_cons.mp hshapes
    rw [List.flatMap_cons] at hspell
    obtain ⟨middle, hfirst, hspells⟩ := Spells.append_iff.mp hspell
    obtain ⟨s', hs', halike⟩ := readShape_rereads finish hs hfirst trivial
    obtain ⟨shapes', hshapes', hall⟩ := ih hmore hspells
    refine ⟨s' :: shapes', (gives_readShapes finish).mpr
      (.inr ⟨s', middle, shapes', ?_, hs', hshapes', rfl⟩), .cons halike hall⟩
    obtain ⟨t, more, rfl, -⟩ := Spells.cons_iff.mp hfirst
    exact List.cons_ne_nil t more

/-- The lexemes of a program are read as that program, wherever its tokens
stand. -/
theorem parseProgram_rereads {p : Program} (hp : ∀ s ∈ p.shapes, s.Readable) {ts : List Token}
    (hts : ts.map Token.lexeme = p.lexemes) :
    ∃ p', parseProgram ts = .ok p' ∧ p'.Alike AnyPositions p := by
  obtain ⟨shapes, hshapes, hall⟩ := readShapes_rereads (endOf ts) hp (Spells.iff_map_eq.mpr hts)
  exact ⟨_, parseProgram_eq_ok.mpr ⟨shapes, hshapes, rfl⟩, hall, trivial⟩

end ShapeScript
