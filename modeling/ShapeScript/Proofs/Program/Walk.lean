/-
ShapeScript.Proofs.Program.Walk — walks over declarations.

One walk for each reader of declarations. The loops are those over the items
of a list, over the calls of a block and over the shapes of a program; how
often they may go round is all that bounds them. Every round of one of them
consumes a token or is its last, also on tokens that are no program, so each
walk ends as its reader does. All but the walk over a whole program move on
wherever a token is left.
-/
import ShapeScript.Program.Parser
import ShapeScript.Proofs.Expr.Walk

namespace ShapeScript

namespace Walk

/-! ## The walks -/

section Walks

variable (tokens : List Token)

/-- Walks over `name: value`. -/
def argument (fuel : Nat) : Walk Argument := do
  let name ← name tokens
  let _ ← expect tokens .colon "':' after the argument name, arguments look like `name: value`"
  let value ← expression tokens 0 fuel
  return ⟨name.name, value, ⟨name.span.start, value.span.finish⟩⟩

/-- Walks over a call. -/
def call (fuel : Nat) : Walk Call := do
  let name ← name tokens
  let _ ← expect tokens .openParen ("'(' after '" ++ name.name ++ "'")
  let (arguments, closing) ← enclosed tokens (argument tokens fuel) "')' to close the call" fuel
  return ⟨name.name, arguments, ⟨name.span.start, closing.span.finish⟩⟩

/-- Walks over calls up to a closing brace, and over that too. -/
def calls : Nat → Walk (List Call × Token)
  | 0 => exhausted
  | fuel + 1 => do
    match ← peek tokens with
    | none => throw ⟨.unexpectedEnd, endOf tokens⟩
    | some _ =>
      match ← accept tokens .closeBrace with
      | some closing => return ([], closing)
      | none => do
        let call ← call tokens (fuel + 1)
        let (calls, closing) ← calls fuel
        return (call :: calls, closing)

/-- Walks over a block. -/
def block (fuel : Nat) : Walk Block := do
  let opening ← expect tokens .openBrace "'\x7b' to open the shape body"
  let (calls, closing) ← calls tokens fuel
  return ⟨calls, ⟨opening.span.start, closing.span.finish⟩⟩

/-- Walks over a parameter with or without a default. -/
def parameter (fuel : Nat) : Walk Parameter := do
  let name ← name tokens
  match ← accept tokens .assign with
  | some _ => do
    let value ← expression tokens 0 fuel
    return ⟨name.name, some value, ⟨name.span.start, value.span.finish⟩⟩
  | none => return ⟨name.name, none, name.span⟩

/-- Walks over the word that starts a declaration. -/
def keyword : Walk Token := do
  let t ← advance tokens
  match t.lexeme with
  | .identifier name =>
    if name = shapeKeyword then return t
    else throw ⟨.expected "the 'shape' keyword" t.kind, t.pos⟩
  | _ => throw ⟨.expected "the 'shape' keyword" t.kind, t.pos⟩

/-- Walks over the declaration of a shape. -/
def shape (fuel : Nat) : Walk Shape := do
  let keyword ← keyword tokens
  let name ← name tokens
  let _ ← expect tokens .openParen "'(' after the shape name"
  let (parameters, _) ←
    enclosed tokens (parameter tokens fuel) "')' to close the parameter list" fuel
  let body ← block tokens fuel
  return ⟨name.name, parameters, body, ⟨keyword.span.start, body.span.finish⟩⟩

/-- Walks over shapes until no token is left. -/
def shapes : Nat → Walk (List Shape)
  | 0 => exhausted
  | fuel + 1 => do
    match ← peek tokens with
    | none => return []
    | some _ => do
      let shape ← shape tokens (fuel + 1)
      return shape :: (← shapes fuel)

/-- Walks over a program. -/
def program (fuel : Nat) : Walk Program := do
  return ⟨← shapes tokens fuel, endOf tokens⟩

end Walks

/-! ## They follow the readers -/

variable (tokens : List Token) (fuel : Nat)

theorem argument_tracks :
    Tracks tokens fuel (argument tokens fuel) (readArgument (endOf tokens)) :=
  (name_tracks tokens fuel).thenRead fun _ =>
    (expect_tracks tokens fuel _ _).thenRead fun _ => (expression_tracks tokens fuel 0).map

theorem call_tracks : Tracks tokens fuel (call tokens fuel) (readCall (endOf tokens)) :=
  (name_tracks tokens fuel).thenRead fun _ =>
    (expect_tracks tokens fuel _ _).thenRead fun _ =>
      ((argument_tracks tokens fuel).enclosed _).map

/-- A round that is not the last consumes a call. -/
theorem calls_tracks : Tracks tokens fuel (calls tokens fuel) (readCalls (endOf tokens)) := by
  intro i ts hat hfuel
  induction fuel generalizing i ts with
  | zero => exact absurd hfuel (Nat.not_lt_zero _)
  | succ fuel ih =>
    rw [calls]
    refine .after (outcome_peek hat) ?_
    cases ts with
    | nil =>
      rw [readCalls]
      exact .error hat (Nat.le_of_eq hat.beyond_nil)
    | cons t rest =>
      rw [readCalls]
      cases hnext : nextIs .closeBrace (t :: rest) with
      | true =>
        rw [if_pos (eq_of_beq hnext)]
        refine .after (outcome_accept_of_nextIs hat hnext) ?_
        exact .ok hat.tail (Nat.le_of_eq hat.beyond_cons)
      | false =>
        rw [if_neg (ne_of_beq_false hnext)]
        refine .after (outcome_accept_of_not_nextIs hat hnext) ?_
        refine (call_tracks tokens (fuel + 1) i _ hat hfuel).andThen
          fun call j after short hafter => ?_
        have hlater := ih j after hafter (by omega)
        exact (hlater.map.below _).mono hafter.le_beyond

theorem block_tracks : Tracks tokens fuel (block tokens fuel) (readBlock (endOf tokens)) :=
  (expect_tracks tokens fuel _ _).thenRead fun _ => (calls_tracks tokens fuel).map

/-- Whether there is a default is decided by the next token, which is not
consumed if it is no equals sign. -/
theorem parameter_tracks :
    Tracks tokens fuel (parameter tokens fuel) (readParameter (endOf tokens)) := by
  intro i ts hat hfuel
  refine (name_tracks tokens fuel i ts hat hfuel).andThen fun name j rest short hrest => ?_
  cases rest with
  | nil => exact .after (outcome_accept_of_not_nextIs hrest rfl) (.ok hrest (Nat.le_refl j))
  | cons t more =>
    obtain ⟨lexeme, span⟩ := t
    cases lexeme with
    | assign =>
      have hmore : more.length + 1 < ts.length := short
      have hvalue := expression_tracks tokens fuel 0 (j + 1) more hrest.tail (by omega)
      refine .after (outcome_accept_of_nextIs hrest rfl) ((hvalue.map.below _).mono ?_)
      exact Nat.le_trans (Nat.le_succ j) hrest.tail.le_beyond
    | _ => exact .after (outcome_accept_of_not_nextIs hrest rfl) (.ok hrest (Nat.le_refl j))

theorem keyword_tracks : Tracks tokens fuel (keyword tokens) (readKeyword (endOf tokens)) := by
  intro i ts hat hfuel
  refine (advance_tracks tokens fuel i ts hat hfuel).andThen fun t j rest short hrest => ?_
  cases t.lexeme with
  | identifier name =>
    dsimp only
    split
    · exact .ok hrest (Nat.le_refl j)
    · exact .failed hrest (Nat.le_refl j)
  | _ => exact .failed hrest (Nat.le_refl j)

theorem shape_tracks : Tracks tokens fuel (shape tokens fuel) (readShape (endOf tokens)) :=
  (keyword_tracks tokens fuel).thenRead fun _ =>
    (name_tracks tokens fuel).thenRead fun _ =>
      (expect_tracks tokens fuel _ _).thenRead fun _ =>
        ((parameter_tracks tokens fuel).enclosed _).thenRead fun _ =>
          (block_tracks tokens fuel).map

variable {tokens fuel} {i : Nat} {ts : List Token}

/-- A round that is not the last consumes a shape. -/
theorem shapes_follow (hat : At tokens i ts) (hfuel : 2 * ts.length < fuel) :
    Follows tokens i i (shapes tokens fuel) (readShapes (endOf tokens) ts) := by
  induction fuel generalizing i ts with
  | zero => exact absurd hfuel (Nat.not_lt_zero _)
  | succ fuel ih =>
    rw [shapes]
    refine .after (outcome_peek hat) ?_
    cases ts with
    | nil =>
      rw [readShapes]
      exact .ok hat (Nat.le_refl i)
    | cons t rest =>
      rw [readShapes]
      refine (((shape_tracks tokens (fuel + 1) i _ hat hfuel).andThen
        fun shape j after short hafter => ?_).within _).mono hat.le_beyond
      exact (ih hafter (by omega)).map.within _

theorem program_follows (hat : At tokens i ts) (hfuel : 2 * ts.length < fuel) :
    Follows tokens i i (program tokens fuel) (readProgram (endOf tokens) ts) :=
  (shapes_follow hat hfuel).map

end Walk

end ShapeScript
