/-
ShapeScript.Proofs.Alike.Parsing — alike tokens are read alike.

Readers look at the lexemes of tokens and copy their positions. So on two
alike token lists a reader gives alike trees and leaves alike lists
unread, or it fails with the same fault at related positions. There is
one lemma for each way of composing readings and one for each reader;
`parseProgram_alike` is the last of them.

Expressions are read by four readers that call each other. The induction
is on the number of tokens: on a list of that length, the readers that do
not start an expression are alike as soon as the one that does is.
-/
import ShapeScript.Program.Parser
import ShapeScript.Proofs.Alike

namespace ShapeScript

variable {Q : Position → Position → Prop}

/-! ## Readings -/

/-- Both readings succeed with related values or fail alike, and leave
alike tokens unread. -/
structure Reading.Alike (Q : Position → Position → Prop) {α : Type} {m n : Nat}
    (V : α → α → Prop) (r : Reading α m) (r' : Reading α n) : Prop where
  result : Agree Q V r.result r'.result
  rest : List.Forall₂ (Token.Alike Q) r.rest r'.rest

namespace Reading

variable {α β : Type} {V : α → α → Prop} {W : β → β → Prop} {m m' n n' : Nat}
variable {rest rest' : List Token}

theorem alike_ok {a a' : α} {short : rest.length < m} {short' : rest'.length < n} (hv : V a a')
    (hrest : List.Forall₂ (Token.Alike Q) rest rest') :
    Alike Q V (ok a rest short : Reading α m) (ok a' rest' short' : Reading α n) :=
  ⟨.ok hv, hrest⟩

/-- Failures are alike by their fault and position; how many tokens are left
does not matter. -/
theorem alike_error {fault : ParseFault} {p p' : Position} {fits : rest.length ≤ m}
    {fits' : rest'.length ≤ n} (hpos : Q p p')
    (hrest : List.Forall₂ (Token.Alike Q) rest rest') :
    Alike Q V (error ⟨fault, p⟩ rest fits : Reading α m)
      (error ⟨fault, p'⟩ rest' fits' : Reading α n) :=
  ⟨.error rfl hpos, hrest⟩

theorem alike_failed {fault : ParseFault} {p p' : Position} {short : rest.length < m}
    {short' : rest'.length < n} (hpos : Q p p')
    (hrest : List.Forall₂ (Token.Alike Q) rest rest') :
    Alike Q V (failed ⟨fault, p⟩ rest short : Reading α m)
      (failed ⟨fault, p'⟩ rest' short' : Reading α n) :=
  alike_error hpos hrest

/-- The bound of a reading is in its type only, so either one may be raised. -/
theorem Alike.within {r : Reading α m} {r' : Reading α n} (h : Alike Q V r r') (hm : m ≤ m')
    (hn : n ≤ n') : Alike Q V (r.within hm) (r'.within hn) := by
  obtain ⟨hresult, hrest⟩ := h
  cases r <;> cases r' <;> exact ⟨hresult, hrest⟩

theorem Alike.below {r : Reading α m} {r' : Reading α n} (h : Alike Q V r r') (hm : m < m')
    (hn : n < n') : Alike Q V (r.below hm) (r'.below hn) :=
  h.within (Nat.le_of_lt hm) (Nat.le_of_lt hn)

/-- What follows is asked to be alike on related values and alike tokens, and
only if both readings succeed; otherwise they have failed alike already. -/
theorem Alike.andThen {r : Reading α m} {r' : Reading α n}
    {next : α → (rest : List Token) → rest.length < m → Reading β m}
    {next' : α → (rest : List Token) → rest.length < n → Reading β n} (h : Alike Q V r r')
    (hnext : ∀ a a' rest rest' short short', V a a' →
      List.Forall₂ (Token.Alike Q) rest rest' →
        Alike Q W (next a rest short) (next' a' rest' short')) :
    Alike Q W (r.andThen next) (r'.andThen next') := by
  obtain ⟨hresult, hrest⟩ := h
  cases r with
  | ok a left short =>
    cases r' with
    | ok a' left' short' =>
      cases hresult with
      | ok hv => exact hnext a a' left left' short short' hv hrest
    | error e' left' fits' => cases hresult
  | error e left fits =>
    cases r' with
    | ok a' left' short' => cases hresult
    | error e' left' fits' =>
      cases hresult with
      | error hfault hpos => exact ⟨.error hfault hpos, hrest⟩

theorem map_eq_andThen (r : Reading α n) (f : α → β) :
    r.map f = r.andThen fun a rest short => ok (f a) rest short := by
  cases r <;> rfl

theorem Alike.map {r : Reading α m} {r' : Reading α n} {f f' : α → β} (h : Alike Q V r r')
    (hf : ∀ a a', V a a' → W (f a) (f' a')) : Alike Q W (r.map f) (r'.map f') := by
  rw [map_eq_andThen, map_eq_andThen]
  exact h.andThen fun a a' rest rest' short short' hv hrest => alike_ok (hf a a' hv) hrest

/-- The same for what follows with a bound of its own. -/
theorem Alike.thenRead {r : Reading α m} {r' : Reading α n}
    {next next' : α → (rest : List Token) → Reading β rest.length} (h : Alike Q V r r')
    (hnext : ∀ a a' rest rest', V a a' → List.Forall₂ (Token.Alike Q) rest rest' →
      Alike Q W (next a rest) (next' a' rest')) :
    Alike Q W (r.thenRead next) (r'.thenRead next') :=
  h.andThen fun a a' rest rest' short short' hv hrest =>
    (hnext a a' rest rest' hv hrest).below short short'

end Reading

open Reading (alike_ok alike_error alike_failed)

section Readers

variable {finish finish' : Position} (hfinish : Q finish finish')
variable {ts ts' : List Token} (hts : List.Forall₂ (Token.Alike Q) ts ts')
include hfinish hts

/-! ## Single tokens -/

/-- At the end of the tokens both fail where their lists end. -/
theorem readToken_alike :
    Reading.Alike Q (Token.Alike Q) (readToken finish ts) (readToken finish' ts') := by
  cases hts with
  | nil => exact alike_error hfinish .nil
  | cons ht hrest => exact alike_ok ht hrest

/-- A wrong token has the same kind on both sides, so the faults are the same
too. -/
theorem expect_alike (kind : LexemeKind) (what : String) :
    Reading.Alike Q (Token.Alike Q) (expect finish kind what ts)
      (expect finish' kind what ts') := by
  refine (readToken_alike hfinish hts).andThen fun t t' rest rest' short short' ht hrest => ?_
  rw [← ht.kind]
  split
  · exact alike_ok ht hrest
  · exact alike_failed ht.pos hrest

/-- Equal names, starting at related positions. -/
structure Spelled.Alike (Q : Position → Position → Prop) (s s' : Spelled) : Prop where
  name : s.name = s'.name
  pos : Q s.span.start s'.span.start

/-- A reserved word stands on both sides or on neither. -/
theorem readName_alike :
    Reading.Alike Q (Spelled.Alike Q) (readName finish ts) (readName finish' ts') := by
  refine (readToken_alike hfinish hts).andThen fun t t' rest rest' short short' ht hrest => ?_
  rw [← ht.lexeme, ← ht.kind]
  split
  · split
    · exact alike_failed ht.pos hrest
    · exact alike_ok ⟨rfl, ht.pos⟩ hrest
  · exact alike_failed ht.pos hrest

theorem readKeyword_alike :
    Reading.Alike Q (Token.Alike Q) (readKeyword finish ts) (readKeyword finish' ts') := by
  refine (readToken_alike hfinish hts).andThen fun t t' rest rest' short short' ht hrest => ?_
  rw [← ht.lexeme, ← ht.kind]
  split
  · split
    · exact alike_ok ht hrest
    · exact alike_failed ht.pos hrest
  · exact alike_failed ht.pos hrest

omit hfinish in
/-- Looking ahead does not tell alike tokens apart. -/
theorem nextIs_alike (kind : LexemeKind) : nextIs kind ts = nextIs kind ts' := by
  cases hts with
  | nil => rfl
  | cons ht hrest => rw [nextIs, nextIs, ht.kind]

/-! ## Lists -/

omit hfinish in
/-- Items are alike one by one. The induction is on the number of tokens, since
what follows a comma is a list again. -/
theorem readSeparated_alike {α : Type} {V : α → α → Prop}
    {item item' : (ts : List Token) → Reading α ts.length}
    (hitem : ∀ ts ts', List.Forall₂ (Token.Alike Q) ts ts' →
      Reading.Alike Q V (item ts) (item' ts')) :
    Reading.Alike Q (List.Forall₂ V) (readSeparated item ts) (readSeparated item' ts') := by
  obtain ⟨n, hn⟩ : ∃ n, n = ts.length := ⟨_, rfl⟩
  induction n using Nat.strongRecOn generalizing ts ts' with
  | ind n ih =>
    subst hn
    rw [readSeparated, readSeparated]
    refine (hitem ts ts' hts).andThen fun a a' rest rest' short short' hv hrest => ?_
    cases hrest with
    | nil => exact alike_ok (.cons hv .nil) .nil
    | @cons t t' more more' ht hmore =>
      obtain ⟨l, span⟩ := t
      obtain ⟨l', span'⟩ := t'
      obtain rfl : l = l' := ht.lexeme
      cases l with
      | comma =>
        have hlater := ih more.length (Nat.lt_of_succ_lt short) hmore rfl
        exact (hlater.map fun as as' has => .cons hv has).below _ _
      | _ => exact alike_ok (.cons hv .nil) (.cons ht hmore)

/-- Related values, and alike tokens. -/
def WithToken {α : Type} (Q : Position → Position → Prop) (V : α → α → Prop)
    (read read' : α × Token) : Prop :=
  V read.1 read'.1 ∧ read.2.Alike Q read'.2

theorem readEnclosed_alike {α : Type} {V : α → α → Prop}
    {item item' : (ts : List Token) → Reading α ts.length} (closing : String)
    (hitem : ∀ ts ts', List.Forall₂ (Token.Alike Q) ts ts' →
      Reading.Alike Q V (item ts) (item' ts')) :
    Reading.Alike Q (WithToken Q (List.Forall₂ V)) (readEnclosed finish item closing ts)
      (readEnclosed finish' item' closing ts') := by
  rw [readEnclosed, readEnclosed, ← nextIs_alike hts]
  split
  · exact (expect_alike hfinish hts _ _).map fun t t' ht => ⟨.nil, ht⟩
  · refine (readSeparated_alike hts hitem).thenRead fun as as' rest rest' has hrest => ?_
    exact (expect_alike hfinish hrest _ _).map fun t t' ht => ⟨has, ht⟩

/-! ## Expressions -/

omit hfinish in
/-- What an operand is depends on the lexeme of its first token. Two of them
are expressions inside, behind a minus sign and in parentheses. -/
theorem operand_alike {t t' : Token} (ht : t.Alike Q t')
    (hexpression : ∀ r, Reading.Alike Q (Expr.Alike Q) (expression finish r ts)
      (expression finish' r ts')) :
    Reading.Alike Q (Expr.Alike Q) (operand finish t ts) (operand finish' t' ts') := by
  obtain ⟨l, span⟩ := t
  obtain ⟨l', span'⟩ := t'
  obtain rfl : l = l' := ht.lexeme
  rw [operand, operand]
  cases l with
  | identifier name =>
    dsimp only
    split
    · exact alike_error ht.pos hts
    · exact alike_ok (.name ht.pos) hts
  | number value => exact alike_ok (.number ht.pos) hts
  | string text => exact alike_ok (.string ht.pos) hts
  | minus =>
    exact ((hexpression prefixPower).map fun e e' he => .negation he ht.pos).within _ _
  | openParen =>
    refine ((hexpression 0).within _ _).andThen
      fun e e' rest rest' short short' he hrest => ?_
    cases hrest with
    | nil => exact alike_failed ht.pos .nil
    | @cons u u' after after' hu hafter =>
      obtain ⟨l, uspan⟩ := u
      obtain ⟨l', uspan'⟩ := u'
      obtain rfl : l = l' := hu.lexeme
      cases l with
      | closeParen => exact alike_ok (.grouping he) hafter
      | _ => exact alike_failed ht.pos (.cons hu hafter)
  | _ => exact alike_error ht.pos hts

omit hfinish in
/-- Applying an operator takes its power and its place from the token. -/
theorem application_alike {left left' : Expr} {t t' : Token} (hleft : left.Alike Q left')
    (ht : t.Alike Q t')
    (hexpression : ∀ r, Reading.Alike Q (Expr.Alike Q) (expression finish r ts)
      (expression finish' r ts')) :
    Reading.Alike Q (Expr.Alike Q) (application finish left t ts)
      (application finish' left' t' ts') := by
  rw [application, application, ← ht.lexeme, ← ht.kind]
  split
  · rename_i op _
    refine ((hexpression op.power).map fun e e' he => ?_).within _ _
    exact .binary hleft he ht.pos
  · exact alike_error ht.pos hts

/-- The induction that ties the four readers: on a list without its first token
expressions are alike, so operands and applications on the list are, and
with them the expressions and continuations. -/
theorem expression_continuation_alike (r : Int) :
    Reading.Alike Q (Expr.Alike Q) (expression finish r ts) (expression finish' r ts') ∧
    ∀ left left' : Expr, left.Alike Q left' →
      Reading.Alike Q (Expr.Alike Q) (continuation finish r left ts)
        (continuation finish' r left' ts') := by
  obtain ⟨n, hn⟩ : ∃ n, n = ts.length := ⟨_, rfl⟩
  induction n using Nat.strongRecOn generalizing ts ts' r with
  | ind n ih =>
    subst hn
    cases hts with
    | nil =>
      refine ⟨?_, fun left left' hleft => ?_⟩
      · rw [expression, expression]
        exact alike_error hfinish .nil
      · rw [continuation, continuation]
        exact alike_ok hleft .nil
    | @cons t t' rest rest' ht hrest =>
      -- an operand and a right operand both start on `rest`; what continues an
      -- expression starts further on
      have hexpression : ∀ r, Reading.Alike Q (Expr.Alike Q) (expression finish r rest)
          (expression finish' r rest') :=
        fun r => (ih rest.length (Nat.lt_succ_self _) hrest r rfl).1
      refine ⟨?_, fun left left' hleft => ?_⟩
      · rw [expression, expression]
        refine (operand_alike hrest ht hexpression).andThen
          fun e e' after after' short short' he hafter => ?_
        exact ((ih after.length short hafter r rfl).2 e e' he).within _ _
      · rw [continuation, continuation, ← ht.lexeme]
        split
        · refine ((application_alike hrest hleft ht hexpression).andThen
            fun e e' after after' short short' he hafter => ?_).within _ _
          exact ((ih after.length short hafter r rfl).2 e e' he).within _ _
        · exact alike_ok hleft (.cons ht hrest)

theorem expression_alike (r : Int) :
    Reading.Alike Q (Expr.Alike Q) (expression finish r ts) (expression finish' r ts') :=
  (expression_continuation_alike hfinish hts r).1

/-! ## Declarations -/

/-- An argument is where its name is. -/
theorem readArgument_alike :
    Reading.Alike Q (Argument.Alike Q) (readArgument finish ts) (readArgument finish' ts') := by
  refine (readName_alike hfinish hts).thenRead fun name name' rest rest' hname hrest => ?_
  refine (expect_alike hfinish hrest _ _).thenRead fun _ _ rest rest' _ hrest => ?_
  exact (expression_alike hfinish hrest 0).map fun e e' he => ⟨hname.name, he, hname.pos⟩

theorem readCall_alike :
    Reading.Alike Q (Call.Alike Q) (readCall finish ts) (readCall finish' ts') := by
  refine (readName_alike hfinish hts).thenRead fun name name' rest rest' hname hrest => ?_
  rw [← hname.name]
  refine (expect_alike hfinish hrest _ _).thenRead fun _ _ rest rest' _ hrest => ?_
  refine (readEnclosed_alike hfinish hrest _ fun _ _ => readArgument_alike hfinish).map ?_
  rintro ⟨arguments, closing⟩ ⟨arguments', closing'⟩ hread
  exact ⟨rfl, hread.1, hname.pos⟩

/-- Both lists of calls end at the same closing brace. -/
theorem readCalls_alike :
    Reading.Alike Q (WithToken Q (List.Forall₂ (Call.Alike Q))) (readCalls finish ts)
      (readCalls finish' ts') := by
  obtain ⟨n, hn⟩ : ∃ n, n = ts.length := ⟨_, rfl⟩
  induction n using Nat.strongRecOn generalizing ts ts' with
  | ind n ih =>
    subst hn
    cases hts with
    | nil =>
      rw [readCalls, readCalls]
      exact alike_error hfinish .nil
    | @cons t t' rest rest' ht hrest =>
      rw [readCalls, readCalls, ← ht.kind]
      split
      · exact alike_ok ⟨.nil, ht⟩ hrest
      · refine (readCall_alike hfinish (.cons ht hrest)).andThen
          fun call call' after after' short short' hcall hafter => ?_
        have hlater := ih after.length short hafter rfl
        exact (hlater.map fun read read' hread => ⟨.cons hcall hread.1, hread.2⟩).below _ _

theorem readBlock_alike :
    Reading.Alike Q (Block.Alike Q) (readBlock finish ts) (readBlock finish' ts') := by
  refine (expect_alike hfinish hts _ _).thenRead fun _ _ rest rest' _ hrest => ?_
  exact (readCalls_alike hfinish hrest).map fun read read' hread => ⟨hread.1⟩

/-- A default is there on both sides or on neither. -/
theorem readParameter_alike :
    Reading.Alike Q (Parameter.Alike Q) (readParameter finish ts)
      (readParameter finish' ts') := by
  refine (readName_alike hfinish hts).andThen
    fun name name' rest rest' short short' hname hrest => ?_
  cases hrest with
  | nil => exact alike_ok ⟨hname.name, .none⟩ .nil
  | @cons t t' more more' ht hmore =>
    obtain ⟨l, span⟩ := t
    obtain ⟨l', span'⟩ := t'
    obtain rfl : l = l' := ht.lexeme
    cases l with
    | assign =>
      refine ((expression_alike hfinish hmore 0).map fun e e' he => ?_).below _ _
      exact ⟨hname.name, .some he⟩
    | _ => exact alike_ok ⟨hname.name, .none⟩ (.cons ht hmore)

/-- A declaration is where its keyword is. -/
theorem readShape_alike :
    Reading.Alike Q (Shape.Alike Q) (readShape finish ts) (readShape finish' ts') := by
  refine (readKeyword_alike hfinish hts).thenRead
    fun keyword keyword' rest rest' hkeyword hrest => ?_
  refine (readName_alike hfinish hrest).thenRead fun name name' rest rest' hname hrest => ?_
  refine (expect_alike hfinish hrest _ _).thenRead fun _ _ rest rest' _ hrest => ?_
  refine (readEnclosed_alike hfinish hrest _ fun _ _ => readParameter_alike hfinish).thenRead
    fun parameters parameters' rest rest' hparameters hrest => ?_
  exact (readBlock_alike hfinish hrest).map fun body body' hbody =>
    ⟨hname.name, hparameters.1, hbody, hkeyword.pos⟩

/-- Both lists of declarations end with their tokens. -/
theorem readShapes_alike :
    Reading.Alike Q (List.Forall₂ (Shape.Alike Q)) (readShapes finish ts)
      (readShapes finish' ts') := by
  obtain ⟨n, hn⟩ : ∃ n, n = ts.length := ⟨_, rfl⟩
  induction n using Nat.strongRecOn generalizing ts ts' with
  | ind n ih =>
    subst hn
    cases hts with
    | nil =>
      rw [readShapes, readShapes]
      exact alike_ok .nil .nil
    | @cons t t' rest rest' ht hrest =>
      rw [readShapes, readShapes]
      refine ((readShape_alike hfinish (.cons ht hrest)).andThen
        fun shape shape' after after' short short' hshape hafter => ?_).within _ _
      have hlater := ih after.length short hafter rfl
      exact (hlater.map fun shapes shapes' hshapes => .cons hshape hshapes).within _ _

end Readers

/-- Alike token lists that end at related positions are parsed alike. -/
theorem parseProgram_alike {ts ts' : List Token} (hts : List.Forall₂ (Token.Alike Q) ts ts')
    (hend : Q (endOf ts) (endOf ts')) :
    Agree Q (Program.Alike Q) (parseProgram ts) (parseProgram ts') :=
  ((readShapes_alike hend hts).map fun _ _ hshapes => ⟨hshapes, hend⟩).result

end ShapeScript
