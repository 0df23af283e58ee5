/-
ShapeScript.Session — running calls.

A session is what calls run in: the registry, the limit on the depth of
calls, the stack of the names being called, and the scope of the body
being run. A call pushes its name; if the stack is then longer than the
limit, that is a stack overflow. Otherwise `svg` gives its argument, and
a shape's body runs in a scope of its own that holds the shape's
parameters and nothing of the caller's. However a call ends, the stack
and the scope are what they were before it.

Each call takes one of the free places on the stack, so the number of
free places bounds the depth of calls, and a session with none left
answers any call with a stack overflow.

A call gives a value, and a block checks that it is a text. What runs are
`Session.runCall` and `Session.runBlock`, and they can fail in any way.
None but problems of evaluation occur, and every call gives a text, so
`Session.call` and `Session.block` give the same outcomes as texts and such
problems.
-/
import ShapeScript.Registry
import ShapeScript.Expr.Evaluation

namespace ShapeScript

/-- The depth of calls that a program may reach. -/
def stackLimit : Int := 256

/-- What calls run in. -/
structure Session where
  registry : Registry
  limit : Int
  stack : List String
  scope : Scope

/-- The outcome of running something in a session, however it fails, and
the session after it. -/
abbrev Attempt (α : Type) := Except Failure α × Session

/-- The outcome of running something in a session, and the session after
it. -/
abbrev Ran (α : Type) := Except EvalError α × Session

/-! ## Arguments -/

/-- Checks a call's arguments in order: each must name a parameter, and
none may be given twice. -/
def checkArguments (shape : Shape) : List Argument → List String → Except EvalError Unit
  | [], _ => .ok ()
  | a :: rest, seen =>
    if !shape.parameters.any (·.name == a.name) then
      .error ⟨.invalidArgumentName shape.name a.name, a.pos⟩
    else if seen.contains a.name then .error ⟨.unexpectedArgument shape.name a.name, a.pos⟩
    else checkArguments shape rest (a.name :: seen)

/-- The expression that a parameter takes its value from: the argument of
its name, or else its default. -/
def chosenExpr (arguments : List Argument) (p : Parameter) : Option Expr :=
  match arguments.find? (·.name == p.name) with
  | some a => some a.value
  | none => p.fallback

/-- Binds parameters in order to the values that their chosen expressions
have in the caller's scope. -/
def bindParameters (caller : Scope) (shape : Shape) (call : Call) :
    List Parameter → Scope → Except Failure Scope
  | [], bound => .ok bound
  | p :: rest, bound =>
    match chosenExpr call.arguments p with
    | none => .error (.ofEval ⟨.missingRequiredArgument shape.name p.name, call.pos⟩)
    | some e => do
      let v ← e.run caller
      bindParameters caller shape call rest (bound.bind p.name v)

/-- Makes the scope in which a call runs a shape's body. -/
def makeScope (caller : Scope) (shape : Shape) (call : Call) : Except Failure Scope := do
  (checkArguments shape call.arguments []).mapError .ofEval
  bindParameters caller shape call shape.parameters []

/-- The value of a call of `svg`: its single argument must be named `value`
and be a string. -/
def svgValue (scope : Scope) (call : Call) : Except Failure Value :=
  match call.arguments with
  | [a] =>
    if a.name = svgArgument then do
      let v ← a.value.run scope
      if v.type = .string then return v
      else throw (.ofEval ⟨.svgExpectsString v.type, a.value.pos⟩)
    else .error (.ofEval ⟨.missingArguments call.callee [svgArgument], call.pos⟩)
  | arguments => .error (.ofEval ⟨.argumentCount call.callee 1 arguments.length, call.pos⟩)

/-- The text that a call gave; that it gave something else is a defect. -/
def Call.textOf (call : Call) : Value → Except Failure String
  | .string text => .ok text
  | .number _ => .error (.defect ("Call to '" ++ call.callee ++ "' did not produce a string."))

/-! ## Calls -/

/-- Runs calls in order and joins their texts; the first failure ends
it. -/
def runCalls (run : Call → Session → Attempt Value) : List Call → Session → Attempt String
  | [], s => (.ok "", s)
  | call :: calls, s =>
    match run call s with
    | (.error f, s) => (.error f, s)
    | (.ok v, s) =>
      match call.textOf v with
      | .error f => (.error f, s)
      | .ok text =>
        match runCalls run calls s with
        | (.error f, s) => (.error f, s)
        | (.ok more, s) => (.ok (text ++ more), s)

namespace Session

/-- The session with a name on top of its stack. -/
def push (s : Session) (name : String) : Session := { s with stack := s.stack ++ [name] }

/-- The session without the name on top of its stack. -/
def pop (s : Session) : Session := { s with stack := s.stack.dropLast }

/-- The number of free places on the stack. -/
def room (s : Session) : Nat := (s.limit - s.stack.length).toNat

/-- Runs a call in a session with so many free places on its stack. -/
def callWithin : Nat → Call → Session → Attempt Value
  | 0, call, s =>
    let inside := s.push call.callee
    (.error (.ofEval ⟨.stackOverflow inside.stack, call.pos⟩), inside.pop)
  | room + 1, call, s =>
    let inside := s.push call.callee
    if call.callee = svgName then (svgValue inside.scope call, inside.pop)
    else
      match inside.registry.find? call.callee with
      | none => (.error (.ofEval ⟨.shapeNotDefined call.callee, call.pos⟩), inside.pop)
      | some shape =>
        match makeScope inside.scope shape call with
        | .error f => (.error f, inside.pop)
        | .ok scope =>
          let ran := runCalls (callWithin room) shape.body.calls { inside with scope := scope }
          (ran.1.map .string, { ran.2 with scope := inside.scope }.pop)

/-- Runs a call. -/
def runCall (s : Session) (c : Call) : Attempt Value := callWithin s.room c s

/-- Runs the calls of a block. -/
def runBlock (s : Session) (b : Block) : Attempt String := runCalls (callWithin s.room) b.calls s

end Session

/-! ## What runs can fail with -/

theorem evalOnly_bindParameters (caller : Scope) (shape : Shape) (call : Call)
    (parameters : List Parameter) (bound : Scope) :
    EvalOnly (bindParameters caller shape call parameters bound) := by
  induction parameters generalizing bound with
  | nil => exact evalOnly_ok bound
  | cons p rest ih =>
    rw [bindParameters]
    cases chosenExpr call.arguments p with
    | none => exact evalOnly_mapError (.error _)
    | some e => exact (e.evalOnly_run caller).bind fun v => ih _

theorem evalOnly_makeScope (caller : Scope) (shape : Shape) (call : Call) :
    EvalOnly (makeScope caller shape call) :=
  (evalOnly_mapError _).bind fun _ => evalOnly_bindParameters caller shape call _ _

/-- What `svg` gives is a text, so to ask for it is no defect. -/
theorem evalOnly_svgValue (scope : Scope) (call : Call) :
    EvalOnly (svgValue scope call >>= call.textOf) := by
  unfold svgValue
  split
  · rename_i a _
    split
    · rw [bind_assoc]
      refine (a.value.evalOnly_run scope).bind fun v => ?_
      cases v with
      | number x => exact evalOnly_mapError (.error _)
      | string s => exact evalOnly_ok s
    · exact evalOnly_mapError (.error _)
  · exact evalOnly_mapError (.error _)

theorem evalOnly_runCalls {run : Call → Session → Attempt Value}
    (hrun : ∀ c s, EvalOnly ((run c s).1 >>= c.textOf)) (calls : List Call) (s : Session) :
    EvalOnly (runCalls run calls s).1 := by
  induction calls generalizing s with
  | nil => exact evalOnly_ok ""
  | cons c calls ih =>
    have hcall := hrun c s
    rw [runCalls]
    generalize run c s = ran at hcall ⊢
    obtain ⟨x, s'⟩ := ran
    cases x with
    | error f => exact EvalOnly.rethrow hcall
    | ok v =>
      have htext : EvalOnly (c.textOf v) := hcall
      dsimp only
      cases hv : c.textOf v with
      | error f => exact EvalOnly.rethrow (hv ▸ htext)
      | ok text =>
        have hrest := ih s'
        dsimp only
        generalize runCalls run calls s' = ran at hrest ⊢
        obtain ⟨y, s''⟩ := ran
        cases y with
        | error f => exact hrest
        | ok more => exact evalOnly_ok _

namespace Session

theorem evalOnly_callWithin (room : Nat) (c : Call) (s : Session) :
    EvalOnly ((callWithin room c s).1 >>= c.textOf) := by
  induction room generalizing c s with
  | zero => exact evalOnly_mapError (.error _)
  | succ room ih =>
    rw [callWithin]
    dsimp only
    split
    · exact evalOnly_svgValue _ c
    split
    · exact evalOnly_mapError (.error _)
    rename_i shape _
    have hscope := evalOnly_makeScope (s.push c.callee).scope shape c
    split
    · rename_i f hf
      exact EvalOnly.rethrow (hf ▸ hscope)
    · rename_i bound _
      have hbody := evalOnly_runCalls ih shape.body.calls
        { s.push c.callee with scope := bound }
      dsimp only
      cases hran : (runCalls (callWithin room) shape.body.calls
        { s.push c.callee with scope := bound }).1 with
      | error f => exact EvalOnly.rethrow (hran ▸ hbody)
      | ok text => exact evalOnly_ok text

/-- A call gives a text, or fails with a problem of evaluation. -/
theorem evalOnly_runCall (s : Session) (c : Call) : EvalOnly ((s.runCall c).1 >>= c.textOf) :=
  evalOnly_callWithin s.room c s

theorem evalOnly_runBlock (s : Session) (b : Block) : EvalOnly (s.runBlock b).1 :=
  evalOnly_runCalls (evalOnly_callWithin s.room) b.calls s

end Session

/-! ## Outcomes -/

/-- The scope in which a call runs a shape's body. -/
def bindArguments (caller : Scope) (shape : Shape) (call : Call) : Except EvalError Scope :=
  evalOutcome (makeScope caller shape call) (evalOnly_makeScope caller shape call)

/-- The text of a call of `svg`. -/
def svgText (scope : Scope) (call : Call) : Except EvalError String :=
  evalOutcome (svgValue scope call >>= call.textOf) (evalOnly_svgValue scope call)

namespace Session

/-- What running a call comes to, as a text. -/
def call (s : Session) (c : Call) : Ran String :=
  (evalOutcome ((s.runCall c).1 >>= c.textOf) (s.evalOnly_runCall c), (s.runCall c).2)

/-- What running the calls of a block comes to. -/
def block (s : Session) (b : Block) : Ran String :=
  (evalOutcome (s.runBlock b).1 (s.evalOnly_runBlock b), (s.runBlock b).2)

/-- Nothing of an outcome is lost. -/
theorem outcome_runBlock (s : Session) (b : Block) :
    (s.runBlock b).1 = (s.block b).1.mapError .ofEval :=
  (mapError_evalOutcome _).symm

/-- Evaluates an expression in the session's scope. -/
def value (s : Session) (e : Expr) : Ran Value := (e.evaluate s.scope, s)

end Session

end ShapeScript
