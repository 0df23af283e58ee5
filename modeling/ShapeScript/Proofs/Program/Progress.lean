/-
ShapeScript.Proofs.Program.Progress — methods applied one after the other.

A `Method` is any of the walks over a token list, from a look at the next
token to the walk over a whole program. `Walk.run` applies a sequence of
them to one list, each from the index at which the one before it came to
its end, whether that succeeded or not. `Turn.Progress` says what a method
does there. It answers as its reader does, it moves neither back nor beyond
the tokens, and if it is one of those that consume, it moves on unless it
fails where nothing is left.

`Method.progress` is about one method, `Walk.run_progress` about any
sequence of them. Both say first that the methods end. A method that calls
itself or goes round is told how often it may, and twice for every token, and
twice more, is always enough.
-/
import ShapeScript.Node
import ShapeScript.Proofs.Program.Walk

namespace ShapeScript

/-! ## Methods -/

/-- A method, with what it is told. -/
inductive Method where
  | peek
  | check (kind : LexemeKind)
  | advance
  | accept (kind : LexemeKind)
  | expect (kind : LexemeKind) (what : String)
  | name
  | bindsTighter (r : Int)
  | expression (r : Int)
  | operand (t : Token)
  | application (left : Expr) (t : Token)
  | program
  | shape
  | parameter
  | block
  | call
  | argument

/-- What a method answers. -/
inductive Answer where
  | verdict (b : Bool)
  | token (t : Option Token)
  | name (s : Spelled)
  | node (n : Node)

namespace Reading

/-- A reading that succeeds leaves fewer tokens than its bound. -/
theorem length_rest_lt {α : Type} {n : Nat} {r : Reading α n} {a : α} (h : r.result = .ok a) :
    r.rest.length < n := by
  cases r with
  | ok _ _ short => exact short
  | error _ _ _ => cases h

/-- What stays unread as a whole is fewer than one more. -/
theorem short_of_all (ts : List Token) : ts.length < ts.length + 1 := Nat.lt_succ_self ts.length

end Reading

namespace Method

/-- The method consumes a token if it succeeds. -/
def consumes : Method → Bool
  | advance | expect .. | name | expression _ | shape | parameter | block | call | argument => true
  | peek | check _ | accept _ | bindsTighter _ | operand _ | application .. | program => false

/-- The method as a walk. -/
def walk (tokens : List Token) (fuel : Nat) : Method → Walk Answer
  | peek => do return .token (← Walk.peek tokens)
  | check kind => do return .verdict (← Walk.check tokens kind)
  | advance => do return .token (some (← Walk.advance tokens))
  | accept kind => do return .token (← Walk.accept tokens kind)
  | expect kind what => do return .token (some (← Walk.expect tokens kind what))
  | name => do return .name (← Walk.name tokens)
  | bindsTighter r => do return .verdict (← Walk.bindsTighter tokens r)
  | expression r => do return .node (.expr (← Walk.expression tokens r fuel))
  | operand t => do return .node (.expr (← Walk.operand tokens t fuel))
  | application left t => do return .node (.expr (← Walk.application tokens left t fuel))
  | program => do return .node (.program (← Walk.program tokens fuel))
  | shape => do return .node (.shape (← Walk.shape tokens fuel))
  | parameter => do return .node (.parameter (← Walk.parameter tokens fuel))
  | block => do return .node (.block (← Walk.block tokens fuel))
  | call => do return .node (.call (← Walk.call tokens fuel))
  | argument => do return .node (.argument (← Walk.argument tokens fuel))

/-- The bound of the method's reading. -/
def bound (m : Method) (ts : List Token) : Nat :=
  match m.consumes with
  | true => ts.length
  | false => ts.length + 1

/-- The method as a reader. -/
def read (finish : Position) (ts : List Token) : (m : Method) → Reading Answer (m.bound ts)
  | peek => .ok (.token ts.head?) ts (Reading.short_of_all ts)
  | check kind => .ok (.verdict (nextIs kind ts)) ts (Reading.short_of_all ts)
  | advance => (readToken finish ts).map fun t => .token (some t)
  | accept kind =>
    if nextIs kind ts then
      ((readToken finish ts).map fun t => .token (some t)).below (Reading.short_of_all ts)
    else .ok (.token none) ts (Reading.short_of_all ts)
  | expect kind what => (ShapeScript.expect finish kind what ts).map fun t => .token (some t)
  | name => (readName finish ts).map .name
  | bindsTighter r =>
    .ok (.verdict (ShapeScript.bindsTighter r ts)) ts (Reading.short_of_all ts)
  | expression r => (ShapeScript.expression finish r ts).map fun e => .node (.expr e)
  | operand t => (ShapeScript.operand finish t ts).map fun e => .node (.expr e)
  | application left t => (ShapeScript.application finish left t ts).map fun e => .node (.expr e)
  | program => (readProgram finish ts).map fun p => .node (.program p)
  | shape => (readShape finish ts).map fun s => .node (.shape s)
  | parameter => (readParameter finish ts).map fun p => .node (.parameter p)
  | block => (readBlock finish ts).map fun b => .node (.block b)
  | call => (readCall finish ts).map fun c => .node (.call c)
  | argument => (readArgument finish ts).map fun a => .node (.argument a)

/-- Where the method has come to at least, starting at `i`. -/
def reached (m : Method) (tokens : List Token) (i : Nat) : Nat :=
  match m.consumes with
  | true => Walk.beyond tokens i
  | false => i

theorem bound_of_consumes {m : Method} (hm : m.consumes = true) (ts : List Token) :
    m.bound ts = ts.length := by
  rw [bound, hm]

theorem reached_of_consumes {m : Method} (hm : m.consumes = true) (tokens : List Token) (i : Nat) :
    m.reached tokens i = Walk.beyond tokens i := by
  rw [reached, hm]

variable {tokens ts : List Token} {i fuel : Nat}

theorem le_reached (hat : Walk.At tokens i ts) (m : Method) : i ≤ m.reached tokens i := by
  rw [reached]
  cases m.consumes with
  | true => exact hat.le_beyond
  | false => exact Nat.le_refl i

/-- The walk of a method follows its reader. -/
theorem walk_follows (hat : Walk.At tokens i ts) (m : Method) (hfuel : 2 * ts.length + 1 < fuel) :
    Walk.Follows tokens (m.reached tokens i) i (m.walk tokens fuel)
      (m.read (endOf tokens) ts) := by
  have hfuel' : 2 * ts.length < fuel := Nat.lt_of_succ_lt hfuel
  cases m with
  | peek => exact .after (Walk.outcome_peek hat) (.ok hat (Nat.le_refl i))
  | check kind => exact .after (Walk.outcome_check hat kind) (.ok hat (Nat.le_refl i))
  | advance => exact (Walk.advance_tracks tokens fuel i ts hat hfuel').map
  | accept kind =>
    rw [read]
    cases hnext : nextIs kind ts with
    | true =>
      rw [if_pos rfl]
      cases ts with
      | nil => cases hnext
      | cons t rest =>
        refine .after (Walk.outcome_accept_of_nextIs hat hnext) ?_
        exact .ok hat.tail (Nat.le_succ i)
    | false =>
      rw [if_neg Bool.false_ne_true]
      exact .after (Walk.outcome_accept_of_not_nextIs hat hnext) (.ok hat (Nat.le_refl i))
  | expect kind what => exact (Walk.expect_tracks tokens fuel kind what i ts hat hfuel').map
  | name => exact (Walk.name_tracks tokens fuel i ts hat hfuel').map
  | bindsTighter r => exact .after (Walk.outcome_bindsTighter hat r) (.ok hat (Nat.le_refl i))
  | expression r => exact (Walk.expression_tracks tokens fuel r i ts hat hfuel').map
  | operand t => exact ((Walk.expressions_follow tokens fuel).operand hat hfuel t).map
  | application left t =>
    exact ((Walk.expressions_follow tokens fuel).application hat hfuel left t).map
  | program => exact (Walk.program_follows hat hfuel').map
  | shape => exact (Walk.shape_tracks tokens fuel i ts hat hfuel').map
  | parameter => exact (Walk.parameter_tracks tokens fuel i ts hat hfuel').map
  | block => exact (Walk.block_tracks tokens fuel i ts hat hfuel').map
  | call => exact (Walk.call_tracks tokens fuel i ts hat hfuel').map
  | argument => exact (Walk.argument_tracks tokens fuel i ts hat hfuel').map

/-- A method that may call itself and go round often enough ends, and more
than enough makes no difference. -/
theorem exists_finish (hat : Walk.At tokens i ts) (m : Method) :
    ∃ finish, m.reached tokens i ≤ finish ∧
      Walk.At tokens finish (m.read (endOf tokens) ts).rest ∧
      ∀ fuel, 2 * ts.length + 1 < fuel →
        (m.walk tokens fuel).outcome i = some ((m.read (endOf tokens) ts).result, finish) := by
  obtain ⟨finish, _, hreached, hfinish⟩ := m.walk_follows hat (Nat.lt_succ_self _)
  refine ⟨finish, hreached, hfinish, fun fuel hfuel => ?_⟩
  obtain ⟨j, hwalk, _, hj⟩ := m.walk_follows hat hfuel
  rw [hwalk, hj.unique hfinish]

end Method

/-! ## Sequences of methods -/

/-- One method of a sequence: where it starts, what it answers and where it
ends. -/
structure Turn where
  method : Method
  start : Nat
  answer : Except ParseError Answer
  finish : Nat

/-- How a method moves the index. -/
structure Turn.Progress (tokens : List Token) (turn : Turn) : Prop where
  /-- It does not move back. -/
  start_le_finish : turn.start ≤ turn.finish
  /-- It does not move beyond the tokens. -/
  finish_le_length : turn.finish ≤ tokens.length
  /-- It answers as its reader does with the unread tokens. -/
  answer_eq : turn.answer = (turn.method.read (endOf tokens) (tokens.drop turn.start)).result
  /-- It leaves the tokens unread that its reader leaves. -/
  unread_eq :
    tokens.drop turn.finish = (turn.method.read (endOf tokens) (tokens.drop turn.start)).rest
  /-- If it is to consume a token and succeeds, it has. -/
  lt_of_ok : turn.method.consumes = true → ∀ a, turn.answer = .ok a → turn.start < turn.finish
  /-- If it is to consume a token and fails where it started, there was none. -/
  eq_length_of_error : turn.method.consumes = true → ∀ e, turn.answer = .error e →
    turn.finish = turn.start → turn.start = tokens.length

/-- Applies methods one after the other, each from where the one before it
has left the index, be it with an error. There is an outcome if every one of
them has one. -/
def Walk.run (tokens : List Token) (fuel : Nat) (start : Nat) : List Method → Option (List Turn)
  | [] => some []
  | m :: methods => do
    let (answer, finish) ← (m.walk tokens fuel).outcome start
    let turns ← run tokens fuel finish methods
    return ⟨m, start, answer, finish⟩ :: turns

variable {tokens : List Token} {start : Nat}

/-- From every index of the tokens a method comes to an end. -/
theorem Method.progress (hstart : start ≤ tokens.length) (m : Method) :
    ∃ answer finish,
      (∀ fuel, 2 * tokens.length + 1 < fuel →
        (m.walk tokens fuel).outcome start = some (answer, finish)) ∧
      Turn.Progress tokens ⟨m, start, answer, finish⟩ := by
  have hat : Walk.At tokens start (tokens.drop start) := ⟨hstart, rfl⟩
  have hunread : (tokens.drop start).length ≤ tokens.length :=
    (List.drop_sublist start tokens).length_le
  obtain ⟨finish, hreached, hfinish, hwalk⟩ := m.exists_finish hat
  refine ⟨_, finish, fun fuel hfuel => hwalk fuel (by omega), ?_⟩
  exact {
    start_le_finish := Nat.le_trans (m.le_reached hat) hreached
    finish_le_length := hfinish.le_length
    answer_eq := rfl
    unread_eq := hfinish.drop_eq
    lt_of_ok := by
      intro hm a ha
      have hfewer : (tokens.drop finish).length < (tokens.drop start).length := calc
        _ = (m.read (endOf tokens) (tokens.drop start)).rest.length := congrArg _ hfinish.drop_eq
        _ < m.bound (tokens.drop start) := Reading.length_rest_lt ha
        _ = (tokens.drop start).length := Method.bound_of_consumes hm _
      rw [List.length_drop, List.length_drop] at hfewer
      dsimp only
      omega
    eq_length_of_error := by
      intro hm e _ hsame
      rw [Method.reached_of_consumes hm, Walk.beyond] at hreached
      dsimp only at hsame ⊢
      omega }

/-- A sequence of methods ends from every index of the tokens, and does not
come to stand in front of it again. -/
theorem Walk.run_progress_from (hstart : start ≤ tokens.length) (methods : List Method) :
    ∃ turns, (∀ fuel, 2 * tokens.length + 1 < fuel →
        Walk.run tokens fuel start methods = some turns) ∧
      turns.map Turn.method = methods ∧
      (turns.Pairwise fun earlier later => earlier.finish ≤ later.start) ∧
      ∀ turn ∈ turns, start ≤ turn.start ∧ turn.Progress tokens := by
  induction methods generalizing start with
  | nil => exact ⟨[], fun _ _ => rfl, rfl, .nil, fun _ h => absurd h List.not_mem_nil⟩
  | cons m methods ih =>
    obtain ⟨answer, finish, hwalk, hm⟩ := m.progress hstart
    have hfinish : finish ≤ tokens.length := hm.finish_le_length
    obtain ⟨turns, hrun, hmethods, hpairs, hturns⟩ := ih hfinish
    refine ⟨⟨m, start, answer, finish⟩ :: turns, ?_, ?_, ?_, ?_⟩
    · intro fuel hfuel
      rw [Walk.run, hwalk fuel hfuel, Option.bind_eq_bind, Option.bind_some]
      dsimp only
      rw [hrun fuel hfuel]
      rfl
    · rw [List.map_cons, hmethods]
    · exact .cons (fun turn h => (hturns turn h).1) hpairs
    · intro turn h
      obtain rfl | h := List.mem_cons.mp h
      · exact ⟨Nat.le_refl start, hm⟩
      · obtain ⟨hle, hturn⟩ := hturns turn h
        exact ⟨Nat.le_trans hm.start_le_finish hle, hturn⟩

/-- Any sequence of methods comes to an end on any tokens, whether the
methods in it succeed or fail. To call themselves and go round twice for
every token, and twice more, is enough for all of them, and what is more than
enough makes no difference. The index never falls from one method to another,
and each of them moves it as it should. -/
theorem Walk.run_progress (tokens : List Token) (methods : List Method) :
    ∃ turns, (∀ fuel, 2 * tokens.length + 1 < fuel →
        Walk.run tokens fuel 0 methods = some turns) ∧
      turns.map Turn.method = methods ∧
      (turns.Pairwise fun earlier later => earlier.finish ≤ later.start) ∧
      ∀ turn ∈ turns, turn.Progress tokens := by
  obtain ⟨turns, hrun, hmethods, hpairs, hturns⟩ :=
    Walk.run_progress_from (Nat.zero_le tokens.length) methods
  exact ⟨turns, hrun, hmethods, hpairs, fun turn h => (hturns turn h).2⟩

/-- A declaration fails behind the parenthesis that stands where its name
should be. An expression is read behind that, and then nothing is left for
a block. -/
example :
    (Walk.run ([.identifier "shape", .openParen, .identifier "a"].map fun l => ⟨l, .origin⟩) 8 0
      [.shape, .expression 0, .block]).map (·.map Turn.finish) = some [2, 3, 3] := by
  cbv

end ShapeScript
