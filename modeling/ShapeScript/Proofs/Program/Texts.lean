/-
ShapeScript.Proofs.Program.Texts — readers do not look into strings.

A reader looks at the kinds of tokens and at names. The text of a string is
only copied into the tree. So if the texts of all strings are changed by a
function, a reader gives the same tree with its texts changed, or the same
error, and leaves the same tokens unread with theirs changed. There is one
lemma for each way of composing readings and one for each reader;
`parseProgram_mapText` is the last of them.
-/
import ShapeScript.Program.Parser
import ShapeScript.Proofs.Token.LineEnds

namespace ShapeScript

section Definitions

variable (g : String → String)

/-- The expression with the texts of its strings changed. -/
def Expr.mapText : Expr → Expr
  | .number x span => .number x span
  | .string text span => .string (g text) span
  | .name n span => .name n span
  | .binary left op right opPos span => .binary left.mapText op right.mapText opPos span
  | .negation operand opPos span => .negation operand.mapText opPos span
  | .grouping inner span => .grouping inner.mapText span

def Argument.mapText (a : Argument) : Argument := { a with value := a.value.mapText g }

def Call.mapText (c : Call) : Call := { c with arguments := c.arguments.map (Argument.mapText g) }

def Block.mapText (b : Block) : Block := { b with calls := b.calls.map (Call.mapText g) }

def Parameter.mapText (p : Parameter) : Parameter :=
  { p with fallback := p.fallback.map (Expr.mapText g) }

def Shape.mapText (s : Shape) : Shape :=
  { s with parameters := s.parameters.map (Parameter.mapText g), body := s.body.mapText g }

def Program.mapText (p : Program) : Program := { p with shapes := p.shapes.map (Shape.mapText g) }

/-- The second reading is the first with its value changed by `f`, and with
the texts of what is unread changed. -/
structure Reading.Mapped {α : Type} {m n : Nat} (f : α → α) (r : Reading α m)
    (r' : Reading α n) : Prop where
  result : r'.result = r.result.map f
  rest : r'.rest = r.rest.map (Token.mapText g)

end Definitions

variable {g : String → String}

/-- All that a reader looks at is kept: the kind of a token, the operator that
it writes, and the power of that. -/
@[simp] theorem Lexeme.kind_mapText (l : Lexeme) : (l.mapText g).kind = l.kind := by
  cases l <;> rfl

@[simp] theorem Token.kind_mapText (t : Token) : (t.mapText g).kind = t.kind :=
  t.lexeme.kind_mapText

@[simp] theorem Lexeme.binaryOp?_mapText (l : Lexeme) : (l.mapText g).binaryOp? = l.binaryOp? := by
  cases l <;> rfl

@[simp] theorem Lexeme.leftPower_mapText (l : Lexeme) : (l.mapText g).leftPower = l.leftPower := by
  cases l <;> rfl

/-- Trees stay where they are. -/
@[simp] theorem Expr.span_mapText (e : Expr) : (e.mapText g).span = e.span := by
  cases e <;> rfl

theorem endOf_mapText (ts : List Token) : endOf (ts.map (Token.mapText g)) = endOf ts := by
  unfold endOf
  rw [List.getLast?_map]
  cases ts.getLast? <;> rfl

/-! ## Readings -/

namespace Reading

variable {α β : Type} {f : α → α} {f' : β → β} {m m' n n' : Nat} {rest : List Token}

theorem mapped_ok {a : α} {short : rest.length < m}
    {short' : (rest.map (Token.mapText g)).length < n} :
    Mapped g f (ok a rest short : Reading α m) (ok (f a) _ short' : Reading α n) :=
  ⟨rfl, rfl⟩

/-- An error says nothing about texts. -/
theorem mapped_error {e : ParseError} {fits : rest.length ≤ m}
    {fits' : (rest.map (Token.mapText g)).length ≤ n} :
    Mapped g f (error e rest fits : Reading α m) (error e _ fits' : Reading α n) :=
  ⟨rfl, rfl⟩

theorem mapped_failed {e : ParseError} {short : rest.length < m}
    {short' : (rest.map (Token.mapText g)).length < n} :
    Mapped g f (failed e rest short : Reading α m) (failed e _ short' : Reading α n) :=
  mapped_error

theorem Mapped.within {r : Reading α m} {r' : Reading α n} (h : Mapped g f r r') (hm : m ≤ m')
    (hn : n ≤ n') : Mapped g f (r.within hm) (r'.within hn) := by
  obtain ⟨hresult, hrest⟩ := h
  cases r <;> cases r' <;> exact ⟨hresult, hrest⟩

theorem Mapped.below {r : Reading α m} {r' : Reading α n} (h : Mapped g f r r') (hm : m < m')
    (hn : n < n') : Mapped g f (r.below hm) (r'.below hn) :=
  h.within (Nat.le_of_lt hm) (Nat.le_of_lt hn)

/-- If the first reading succeeds, what follows is compared on its value and
on what it leaves unread; otherwise both have failed with the same error. -/
theorem Mapped.andThen {r : Reading α m} {r' : Reading α n}
    {next : α → (rest : List Token) → rest.length < m → Reading β m}
    {next' : α → (rest : List Token) → rest.length < n → Reading β n} (h : Mapped g f r r')
    (hnext : ∀ a rest short short',
      Mapped g f' (next a rest short) (next' (f a) (rest.map (Token.mapText g)) short')) :
    Mapped g f' (r.andThen next) (r'.andThen next') := by
  obtain ⟨hresult, hrest⟩ := h
  cases r with
  | ok a left short =>
    cases r' with
    | ok a' left' short' =>
      obtain rfl : a' = f a := Except.ok.inj hresult
      obtain rfl : left' = left.map (Token.mapText g) := hrest
      exact hnext a left short short'
    | error e' left' fits' => cases hresult
  | error e left fits =>
    cases r' with
    | ok a' left' short' => cases hresult
    | error e' left' fits' =>
      obtain rfl : e' = e := Except.error.inj hresult
      exact ⟨rfl, hrest⟩

/-- A function of the value has to agree with the change of texts. -/
theorem Mapped.map {γ : Type} {r : Reading α m} {r' : Reading α n} {k k' : α → γ} {h' : γ → γ}
    (h : Mapped g f r r') (hk : ∀ a, k' (f a) = h' (k a)) :
    Mapped g h' (r.map k) (r'.map k') := by
  obtain ⟨hresult, hrest⟩ := h
  cases r with
  | ok a left short =>
    cases r' with
    | ok a' left' short' =>
      obtain rfl : a' = f a := Except.ok.inj hresult
      exact ⟨congrArg Except.ok (hk a), hrest⟩
    | error e' left' fits' => cases hresult
  | error e left fits =>
    cases r' with
    | ok a' left' short' => cases hresult
    | error e' left' fits' =>
      obtain rfl : e' = e := Except.error.inj hresult
      exact ⟨rfl, hrest⟩

theorem Mapped.thenRead {r : Reading α m} {r' : Reading α n}
    {next next' : α → (rest : List Token) → Reading β rest.length} (h : Mapped g f r r')
    (hnext : ∀ a rest,
      Mapped g f' (next a rest) (next' (f a) (rest.map (Token.mapText g)))) :
    Mapped g f' (r.thenRead next) (r'.thenRead next') :=
  h.andThen fun a rest short short' => (hnext a rest).below short short'

end Reading

open Reading (Mapped mapped_ok mapped_error mapped_failed)

section Readers

variable (finish : Position) (ts : List Token)

/-! ## Single tokens -/

theorem readToken_mapped :
    Mapped g (Token.mapText g) (readToken finish ts)
      (readToken finish (ts.map (Token.mapText g))) := by
  cases ts with
  | nil => exact mapped_error
  | cons t rest => exact mapped_ok

theorem expect_mapped (kind : LexemeKind) (what : String) :
    Mapped g (Token.mapText g) (expect finish kind what ts)
      (expect finish kind what (ts.map (Token.mapText g))) := by
  refine (readToken_mapped finish ts).andThen fun t rest short short' => ?_
  rw [Token.kind_mapText]
  split
  · exact mapped_ok
  · exact mapped_failed

/-- Names are not strings, so they are not changed. -/
theorem readName_mapped :
    Mapped g id (readName finish ts) (readName finish (ts.map (Token.mapText g))) := by
  refine (readToken_mapped finish ts).andThen fun t rest short short' => ?_
  obtain ⟨l, span⟩ := t
  cases l with
  | identifier name =>
    show Mapped g id (ite _ _ _) (ite _ _ _)
    split
    · exact mapped_failed
    · exact mapped_ok
  | _ => exact mapped_failed

theorem readKeyword_mapped :
    Mapped g (Token.mapText g) (readKeyword finish ts)
      (readKeyword finish (ts.map (Token.mapText g))) := by
  refine (readToken_mapped finish ts).andThen fun t rest short short' => ?_
  obtain ⟨l, span⟩ := t
  cases l with
  | identifier name =>
    show Mapped g _ (ite _ _ _) (ite _ _ _)
    split
    · exact mapped_ok
    · exact mapped_failed
  | _ => exact mapped_failed

theorem nextIs_mapText (kind : LexemeKind) :
    nextIs kind (ts.map (Token.mapText g)) = nextIs kind ts := by
  cases ts with
  | nil => rfl
  | cons t rest => rw [List.map_cons, nextIs, nextIs, Token.kind_mapText]

/-! ## Lists -/

/-- A list of items is mapped item by item. The induction is on the number of
tokens. -/
theorem readSeparated_mapped {α : Type} {f : α → α}
    {item : (ts : List Token) → Reading α ts.length}
    (hitem : ∀ ts, Mapped g f (item ts) (item (ts.map (Token.mapText g)))) :
    Mapped g (List.map f) (readSeparated item ts)
      (readSeparated item (ts.map (Token.mapText g))) := by
  obtain ⟨n, hn⟩ : ∃ n, n = ts.length := ⟨_, rfl⟩
  induction n using Nat.strongRecOn generalizing ts with
  | ind n ih =>
    subst hn
    rw [readSeparated, readSeparated]
    refine (hitem ts).andThen fun a rest short short' => ?_
    cases rest with
    | nil => exact mapped_ok
    | cons t more =>
      obtain ⟨l, span⟩ := t
      cases l with
      | comma =>
        have hlater := ih more.length (Nat.lt_of_succ_lt short) more rfl
        refine (hlater.map fun as => ?_).below _ _
        rfl
      | _ => exact mapped_ok

/-- The closing parenthesis is a token, and as such it is mapped too. -/
theorem readEnclosed_mapped {α : Type} {f : α → α}
    {item : (ts : List Token) → Reading α ts.length} (closing : String)
    (hitem : ∀ ts, Mapped g f (item ts) (item (ts.map (Token.mapText g)))) :
    Mapped g (Prod.map (List.map f) (Token.mapText g)) (readEnclosed finish item closing ts)
      (readEnclosed finish item closing (ts.map (Token.mapText g))) := by
  rw [readEnclosed, readEnclosed, nextIs_mapText]
  split
  · exact (expect_mapped finish ts _ _).map fun t => rfl
  · refine (readSeparated_mapped ts hitem).thenRead fun as rest => ?_
    exact (expect_mapped finish rest _ _).map fun t => rfl

/-! ## Expressions -/

/-- A string is the operand that is changed itself. -/
theorem operand_mapped (t : Token)
    (hexpression : ∀ r, Mapped g (Expr.mapText g) (expression finish r ts)
      (expression finish r (ts.map (Token.mapText g)))) :
    Mapped g (Expr.mapText g) (operand finish t ts)
      (operand finish (t.mapText g) (ts.map (Token.mapText g))) := by
  obtain ⟨l, span⟩ := t
  rw [operand, operand]
  cases l with
  | identifier name =>
    show Mapped g _ (ite _ _ _) (ite _ _ _)
    split
    · exact mapped_error
    · exact mapped_ok
  | number value => exact mapped_ok
  | string text => exact mapped_ok
  | minus =>
    refine ((hexpression prefixPower).map fun e => ?_).within _ _
    rw [Expr.mapText, Expr.span_mapText]
    rfl
  | openParen =>
    refine ((hexpression 0).within _ _).andThen fun e rest short short' => ?_
    cases rest with
    | nil => exact mapped_failed
    | cons u after =>
      obtain ⟨l, uspan⟩ := u
      cases l with
      | closeParen => exact mapped_ok
      | _ => exact mapped_failed
  | _ => exact mapped_error

theorem application_mapped (left : Expr) (t : Token)
    (hexpression : ∀ r, Mapped g (Expr.mapText g) (expression finish r ts)
      (expression finish r (ts.map (Token.mapText g)))) :
    Mapped g (Expr.mapText g) (application finish left t ts)
      (application finish (left.mapText g) (t.mapText g) (ts.map (Token.mapText g))) := by
  rw [application, application]
  have hop : (t.mapText g).lexeme.binaryOp? = t.lexeme.binaryOp? := t.lexeme.binaryOp?_mapText
  rw [hop, Token.kind_mapText]
  split
  · rename_i op _
    refine ((hexpression op.power).map fun e => ?_).within _ _
    rw [Expr.mapText, Expr.span_mapText, Expr.span_mapText]
    rfl
  · exact mapped_error

/-- The induction is on the number of tokens, so it covers the expressions that
start behind the first one. -/
theorem expression_continuation_mapped (r : Int) :
    Mapped g (Expr.mapText g) (expression finish r ts)
        (expression finish r (ts.map (Token.mapText g))) ∧
      ∀ left : Expr, Mapped g (Expr.mapText g) (continuation finish r left ts)
        (continuation finish r (left.mapText g) (ts.map (Token.mapText g))) := by
  obtain ⟨n, hn⟩ : ∃ n, n = ts.length := ⟨_, rfl⟩
  induction n using Nat.strongRecOn generalizing ts r with
  | ind n ih =>
    subst hn
    cases ts with
    | nil =>
      refine ⟨?_, fun left => ?_⟩
      · rw [List.map_nil, expression]
        exact mapped_error
      · rw [List.map_nil, continuation, continuation]
        exact mapped_ok
    | cons t rest =>
      have hexpression : ∀ r, Mapped g (Expr.mapText g) (expression finish r rest)
          (expression finish r (rest.map (Token.mapText g))) :=
        fun r => (ih rest.length (Nat.lt_succ_self _) rest r rfl).1
      rw [List.map_cons]
      refine ⟨?_, fun left => ?_⟩
      · rw [expression, expression]
        refine (operand_mapped finish rest t hexpression).andThen
          fun e after short short' => ?_
        exact ((ih after.length short after r rfl).2 e).within _ _
      · have hpower : (t.mapText g).lexeme.leftPower = t.lexeme.leftPower :=
          t.lexeme.leftPower_mapText
        rw [continuation, continuation, hpower]
        split
        · refine ((application_mapped finish rest left t hexpression).andThen
            fun e after short short' => ?_).within _ _
          exact ((ih after.length short after r rfl).2 e).within _ _
        · exact mapped_ok

theorem expression_mapped (r : Int) :
    Mapped g (Expr.mapText g) (expression finish r ts)
      (expression finish r (ts.map (Token.mapText g))) :=
  (expression_continuation_mapped finish ts r).1

/-! ## Declarations -/

theorem readArgument_mapped :
    Mapped g (Argument.mapText g) (readArgument finish ts)
      (readArgument finish (ts.map (Token.mapText g))) := by
  refine (readName_mapped finish ts).thenRead fun name rest => ?_
  refine (expect_mapped finish rest _ _).thenRead fun _ rest => ?_
  refine (expression_mapped finish rest 0).map fun e => ?_
  rw [Expr.span_mapText]
  rfl

theorem readCall_mapped :
    Mapped g (Call.mapText g) (readCall finish ts)
      (readCall finish (ts.map (Token.mapText g))) := by
  refine (readName_mapped finish ts).thenRead fun name rest => ?_
  refine (expect_mapped finish rest _ _).thenRead fun _ rest => ?_
  exact (readEnclosed_mapped finish rest _ (readArgument_mapped finish)).map fun _ => rfl

theorem readCalls_mapped :
    Mapped g (Prod.map (List.map (Call.mapText g)) (Token.mapText g)) (readCalls finish ts)
      (readCalls finish (ts.map (Token.mapText g))) := by
  obtain ⟨n, hn⟩ : ∃ n, n = ts.length := ⟨_, rfl⟩
  induction n using Nat.strongRecOn generalizing ts with
  | ind n ih =>
    subst hn
    cases ts with
    | nil =>
      rw [List.map_nil, readCalls]
      exact mapped_error
    | cons t rest =>
      rw [List.map_cons, readCalls, readCalls, Token.kind_mapText]
      split
      · exact mapped_ok
      · refine (readCall_mapped finish (t :: rest)).andThen fun call after short short' => ?_
        have hlater := ih after.length short after rfl
        refine (hlater.map fun read => ?_).below _ _
        rfl

theorem readBlock_mapped :
    Mapped g (Block.mapText g) (readBlock finish ts)
      (readBlock finish (ts.map (Token.mapText g))) := by
  refine (expect_mapped finish ts _ _).thenRead fun _ rest => ?_
  exact (readCalls_mapped finish rest).map fun _ => rfl

/-- The default of a parameter is changed with the rest. -/
theorem readParameter_mapped :
    Mapped g (Parameter.mapText g) (readParameter finish ts)
      (readParameter finish (ts.map (Token.mapText g))) := by
  refine (readName_mapped finish ts).andThen fun name rest short short' => ?_
  cases rest with
  | nil => exact mapped_ok
  | cons t more =>
    obtain ⟨l, span⟩ := t
    cases l with
    | assign =>
      refine ((expression_mapped finish more 0).map fun e => ?_).below _ _
      rw [Expr.span_mapText]
      rfl
    | _ => exact mapped_ok

theorem readShape_mapped :
    Mapped g (Shape.mapText g) (readShape finish ts)
      (readShape finish (ts.map (Token.mapText g))) := by
  refine (readKeyword_mapped finish ts).thenRead fun keyword rest => ?_
  refine (readName_mapped finish rest).thenRead fun name rest => ?_
  refine (expect_mapped finish rest _ _).thenRead fun _ rest => ?_
  refine (readEnclosed_mapped finish rest _ (readParameter_mapped finish)).thenRead
    fun parameters rest => ?_
  exact (readBlock_mapped finish rest).map fun _ => rfl

/-- All declarations are mapped, or the error of one is the error of all. -/
theorem readShapes_mapped :
    Mapped g (List.map (Shape.mapText g)) (readShapes finish ts)
      (readShapes finish (ts.map (Token.mapText g))) := by
  obtain ⟨n, hn⟩ : ∃ n, n = ts.length := ⟨_, rfl⟩
  induction n using Nat.strongRecOn generalizing ts with
  | ind n ih =>
    subst hn
    cases ts with
    | nil =>
      rw [List.map_nil, readShapes]
      exact mapped_ok
    | cons t rest =>
      rw [List.map_cons, readShapes, readShapes]
      refine ((readShape_mapped finish (t :: rest)).andThen
        fun shape after short short' => ?_).within _ _
      have hlater := ih after.length short after rfl
      refine (hlater.map fun shapes => ?_).within _ _
      rfl

end Readers

/-- Parsing tokens whose strings have other texts gives the same program
with those texts, or the same error. -/
theorem parseProgram_mapText (ts : List Token) :
    parseProgram (ts.map (Token.mapText g)) = (parseProgram ts).map (Program.mapText g) := by
  have hread : Mapped g (Program.mapText g) (readProgram (endOf ts) ts)
      (readProgram (endOf ts) (ts.map (Token.mapText g))) :=
    (readShapes_mapped (endOf ts) ts).map fun _ => rfl
  rw [parseProgram, endOf_mapText, hread.result, parseProgram]

end ShapeScript
