/-
ShapeScript.Proofs.Session.Reference — an evaluator without a session.

The functions of the namespace `Reference` say what running a program
means and change nothing: the scope of a body and the names of the calls
around it are arguments, a callee gets its own bound parameters and one
name more, and expressions are evaluated by plain recursion.

`Session.run_eq_reference` is the main statement: running a call or a
block in a session, or evaluating an expression there, has the outcome
that the reference gives for the session's stack and scope, and leaves
the session as it was, also when it fails. The induction is on the free
places on the stack; `runCalls_eq_mapM` is what it needs of a body, and
there each call starts from the session that the body started from.
The evaluator proper may fail in any way, with a value that is no text or
an error of arithmetic among them. The reference has neither, and
`run_eq_value`, `runCall_eq` and `runBlock_eq` say that the evaluator comes
to the same.
-/
import ShapeScript.Session
import ShapeScript.Proofs.Fallible
import ShapeScript.Proofs.Number.Arithmetic

namespace ShapeScript

/-! ## Operators -/

/-- What the arithmetic of an operator comes to. -/
def BinaryOp.result : BinaryOp → Float → Float → Float
  | times, x, y => x * y
  | divide, x, y => x / y
  | plus, x, y => x + y
  | minus, x, y => x - y

/-- What applying an operator to the values of its operands comes to. -/
def applyBinary (op : BinaryOp) (left right : Expr) (lhs rhs : Value) : Except EvalError Value :=
  match op, lhs, rhs with
  | .plus, .number x, .number y => .ok (.number (x + y))
  | .plus, lhs, rhs => .ok (.string (lhs.display ++ rhs.display))
  | op, lhs, rhs =>
    match numberOf lhs left with
    | .error e => .error e
    | .ok x =>
      match numberOf rhs right with
      | .error e => .error e
      | .ok y => .ok (.number (op.result x y))

namespace Reference

/-! ## Definitions -/

/-- The value of an expression in a scope. -/
def value (scope : Scope) : Expr → Except EvalError Value
  | .number x _ => .ok (.number x)
  | .string s _ => .ok (.string s)
  | .name n span =>
    match scope.find? n with
    | some v => .ok v
    | none => .error ⟨.variableNotDefined n, span.start⟩
  | .negation operand _ _ => do
    let v ← value scope operand
    let x ← numberOf v operand
    return .number (-x)
  | .grouping inner _ => value scope inner
  | .binary left op right _ _ => do
    let lhs ← value scope left
    let rhs ← value scope right
    applyBinary op left right lhs rhs

/-- Binds one more parameter of the callee, with its argument or default
evaluated in the caller's scope. -/
def bindParameter (scope : Scope) (shape : Shape) (c : Call) (bound : Scope) (p : Parameter) :
    Except EvalError Scope :=
  match chosenExpr c.arguments p with
  | none => .error ⟨.missingRequiredArgument shape.name p.name, c.pos⟩
  | some e => do
    let v ← value scope e
    return bound.bind p.name v

/-- The scope of the callee: its own parameters, bound in order. -/
def bindAll (scope : Scope) (shape : Shape) (c : Call) : Except EvalError Scope := do
  checkArguments shape c.arguments []
  shape.parameters.foldlM (bindParameter scope shape c) []

/-- The text of a call of `svg`. -/
def svg (scope : Scope) (c : Call) : Except EvalError String :=
  match c.arguments with
  | [a] =>
    if a.name = svgArgument then do
      let v ← value scope a.value
      match v with
      | .string s => return s
      | .number _ => throw ⟨.svgExpectsString .number, a.value.pos⟩
    else .error ⟨.missingArguments c.callee [svgArgument], c.pos⟩
  | arguments => .error ⟨.argumentCount c.callee 1 arguments.length, c.pos⟩

/-- What is the same everywhere in a run. -/
structure Setting where
  registry : Registry
  limit : Int

/-- The text of a call made inside the calls named by `frames`, by a body
with the given scope. -/
def call (g : Setting) (frames : List String) (scope : Scope) (c : Call) :
    Except EvalError String :=
  if _ : g.limit < (frames ++ [c.callee]).length then
    .error ⟨.stackOverflow (frames ++ [c.callee]), c.pos⟩
  else if c.callee = svgName then svg scope c
  else
    match g.registry.find? c.callee with
    | none => .error ⟨.shapeNotDefined c.callee, c.pos⟩
    | some shape => do
      let bound ← bindAll scope shape c
      (shape.body.calls.mapM fun inner => call g (frames ++ [c.callee]) bound inner).map
        String.join
termination_by (g.limit - frames.length).toNat
decreasing_by
  simp only [List.length_append, List.length_singleton] at *
  omega

/-- The text of a block: those of its calls, joined, or the first
failure. -/
def block (g : Setting) (frames : List String) (scope : Scope) (b : Block) :
    Except EvalError String :=
  (b.calls.mapM (call g frames scope)).map String.join

end Reference

/-! ## Expressions -/

/-- Arithmetic does not fail. -/
theorem BinaryOp.compute_eq (op : BinaryOp) (x y : Float) :
    op.compute x y = .ok (op.result x y) := by
  cases op with
  | divide => exact Number.divide_eq x y
  | times | plus | minus => rfl

theorem BinaryOp.apply_eq (op : BinaryOp) (left right : Expr) (lhs rhs : Value) :
    op.apply left right lhs rhs = (applyBinary op left right lhs rhs).mapError .ofEval := by
  cases op with
  | plus =>
    cases lhs <;> cases rhs <;> simp only [apply, applyBinary, compute_eq, Value.text_eq] <;> rfl
  | times | divide | minus =>
    cases lhs <;> cases rhs <;> simp only [apply, applyBinary, compute_eq] <;> rfl

/-- One link of a chain, applied to the value of what stands left of it. -/
def Reference.applyLink (scope : Scope) (lhs : Value) (link : Link) : Except EvalError Value := do
  let rhs ← value scope link.right
  applyBinary link.op link.left link.right lhs rhs

/-- Folding the links of a chain is a monadic fold over them. -/
theorem foldLinks_eq_foldlM {fits : Expr → Prop} (scope : Scope)
    (operand : (e : Expr) → fits e → Except Failure Value) (links : List Link)
    (h : ∀ link ∈ links, fits link.right)
    (hvalue : ∀ e he, operand e he = (Reference.value scope e).mapError .ofEval) (v : Value) :
    foldLinks operand links h v =
      (links.foldlM (Reference.applyLink scope) v).mapError .ofEval := by
  induction links generalizing v with
  | nil => rfl
  | cons link links ih =>
    rw [foldLinks, hvalue, List.foldlM_cons, Reference.applyLink, bind_assoc, mapError_bind]
    refine congrArg _ (funext fun rhs => ?_)
    rw [BinaryOp.apply_eq, mapError_bind]
    exact congrArg _ (funext fun w => ih _ w)

/-- Walking down the left side of an expression and folding back up is
evaluating it. -/
theorem foldlM_chainOf (scope : Scope) (e : Expr) (links : List Link) :
    (Reference.value scope (chainOf e links).1 >>=
      (chainOf e links).2.foldlM (Reference.applyLink scope)) =
    Reference.value scope e >>= links.foldlM (Reference.applyLink scope) := by
  fun_induction chainOf e links with
  | case1 links left op right p s ih =>
    rw [ih, Reference.value, bind_assoc]
    rfl
  | case2 => rfl

/-- Evaluation by chains is evaluation by plain recursion. -/
theorem run_eq_value (scope : Scope) (e : Expr) :
    e.run scope = (Reference.value scope e).mapError .ofEval := by
  -- the operands of a chain are no parts of the tree that a structural
  -- induction would reach, only smaller than it
  induction hn : sizeOf e using Nat.strongRecOn generalizing e with
  | ind n ih =>
    subst hn
    cases e with
    | number x span | string s span =>
      rw [Expr.run, Reference.value]
      rfl
    | name s span =>
      rw [Expr.run, Reference.value]
      cases scope.find? s <;> rfl
    | negation operand opPos span =>
      have hoperand := ih _ (by simp only [Expr.negation.sizeOf_spec]; omega) operand rfl
      rw [Expr.run, Reference.value, hoperand, mapError_bind]
      refine congrArg _ (funext fun v => ?_)
      rw [mapError_bind]
      rfl
    | grouping inner span =>
      have hinner := ih _ (by simp only [Expr.grouping.sizeOf_spec]; omega) inner rfl
      rw [Expr.run, Reference.value, hinner]
    | binary left op right pos span =>
      have hstart : sizeOf (chainOf left [⟨left, op, right⟩]).1 <
          sizeOf (Expr.binary left op right pos span) := by
        have := sizeOf_start_chainOf_le left [⟨left, op, right⟩]
        simp only [Expr.binary.sizeOf_spec]
        omega
      have hfold : Reference.value scope (.binary left op right pos span) =
          Reference.value scope (chainOf left [⟨left, op, right⟩]).1 >>=
            (chainOf left [⟨left, op, right⟩]).2.foldlM (Reference.applyLink scope) := by
        rw [foldlM_chainOf]
        simp only [List.foldlM_cons, List.foldlM_nil, bind_pure]
        rw [Reference.value]
        rfl
      rw [Expr.run, ih _ hstart _ rfl, hfold, mapError_bind]
      exact congrArg _ (funext fun v =>
        foldLinks_eq_foldlM scope _ _ _ (fun e he => ih _ he e rfl) v)

theorem evaluate_eq_value (scope : Scope) (e : Expr) :
    e.evaluate scope = Reference.value scope e :=
  (evalOutcome_eq_iff _).mpr (run_eq_value scope e)

/-! ## Arguments -/

/-- Binding parameters one by one is a monadic fold over them. -/
theorem bindParameters_eq_foldlM (scope : Scope) (shape : Shape) (c : Call)
    (parameters : List Parameter) (bound : Scope) :
    bindParameters scope shape c parameters bound =
      (parameters.foldlM (Reference.bindParameter scope shape c) bound).mapError .ofEval := by
  induction parameters generalizing bound with
  | nil => rfl
  | cons p rest ih =>
    rw [bindParameters, List.foldlM_cons, Reference.bindParameter]
    cases chosenExpr c.arguments p with
    | none => rfl
    | some e =>
      simp only [run_eq_value, bind_assoc, pure_bind, mapError_bind]
      exact congrArg _ (funext fun v => ih (bound.bind p.name v))

theorem makeScope_eq_bindAll (scope : Scope) (shape : Shape) (c : Call) :
    makeScope scope shape c = (Reference.bindAll scope shape c).mapError .ofEval := by
  rw [makeScope, Reference.bindAll, mapError_bind]
  exact congrArg _ (funext fun _ => bindParameters_eq_foldlM scope shape c shape.parameters [])

theorem bindArguments_eq_bindAll (scope : Scope) (shape : Shape) (c : Call) :
    bindArguments scope shape c = Reference.bindAll scope shape c :=
  (evalOutcome_eq_iff _).mpr (makeScope_eq_bindAll scope shape c)

theorem svgValue_eq_svg (scope : Scope) (c : Call) :
    svgValue scope c = ((Reference.svg scope c).map .string).mapError .ofEval := by
  obtain ⟨callee, arguments, pos⟩ := c
  match arguments with
  | [] => rfl
  | [a] =>
    by_cases ha : a.name = svgArgument
    · simp only [svgValue, Reference.svg, if_pos ha, run_eq_value]
      cases Reference.value scope a.value with
      | error e => rfl
      | ok v => cases v <;> rfl
    · simp only [svgValue, Reference.svg, if_neg ha]
      rfl
  | _ :: _ :: _ => rfl

/-- What gives a text passes the check of its block. -/
theorem textOf_of_string (c : Call) (x : Except EvalError String) :
    ((x.map .string).mapError .ofEval >>= c.textOf) = x.mapError .ofEval := by
  cases x <;> rfl

theorem svgText_eq_svg (scope : Scope) (c : Call) : svgText scope c = Reference.svg scope c := by
  refine (evalOutcome_eq_iff _).mpr ?_
  rw [svgValue_eq_svg, textOf_of_string]

/-! ## Calls -/

/-- When each call of a list gives a text and leaves the session as it was,
so does the list, and each of its calls starts where the list started. -/
theorem runCalls_eq_mapM {run : Call → Session → Attempt Value} {s : Session}
    {text : Call → Except EvalError String}
    (hrun : ∀ c, run c s = (((text c).map .string).mapError .ofEval, s)) (calls : List Call) :
    runCalls run calls s = (((calls.mapM text).map String.join).mapError .ofEval, s) := by
  induction calls with
  | nil => rfl
  | cons c calls ih =>
    rw [runCalls, hrun, List.mapM_cons]
    cases text c with
    | error e => rfl
    | ok t =>
      simp only [Except.map, Except.mapError, Call.textOf, ih]
      cases calls.mapM text with
      | error e => rfl
      | ok ts => simp [bind, Except.bind, pure, Except.pure, String.join_cons]

namespace Session

@[simp] theorem push_registry (s : Session) (name : String) :
    (s.push name).registry = s.registry := rfl

@[simp] theorem push_limit (s : Session) (name : String) : (s.push name).limit = s.limit := rfl

@[simp] theorem push_stack (s : Session) (name : String) :
    (s.push name).stack = s.stack ++ [name] := rfl

@[simp] theorem push_scope (s : Session) (name : String) : (s.push name).scope = s.scope := rfl

@[simp] theorem pop_push (s : Session) (name : String) : (s.push name).pop = s := by
  simp [push, pop]

/-- One name more exceeds the limit exactly if no place is free. -/
theorem limit_lt_push (s : Session) (name : String) :
    s.limit < (s.stack ++ [name]).length ↔ s.room = 0 := by
  simp only [room, List.length_append, List.length_singleton]
  omega

/-- The session in which a callee's body runs. -/
def entered (s : Session) (name : String) (bound : Scope) : Session :=
  { s.push name with scope := bound }

/-- The callee's name takes one of the free places on the stack. -/
theorem room_entered (s : Session) (name : String) (bound : Scope) :
    (s.entered name bound).room = s.room - 1 := by
  simp only [room, entered, push_limit, push_stack, List.length_append, List.length_singleton]
  omega

/-- When the body leaves its session as it was, swapping the caller's
scope back in and taking the name off the stack gives the caller's
session. -/
theorem pop_entered (s : Session) (name : String) (bound : Scope) :
    pop { s.entered name bound with scope := s.scope } = s :=
  s.pop_push name

/-- A call with so many free places on the stack gives what the reference
does, and leaves the session as it was. -/
theorem callWithin_eq (room : Nat) (c : Call) (s : Session) (hroom : s.room = room) :
    callWithin room c s =
      (((Reference.call ⟨s.registry, s.limit⟩ s.stack s.scope c).map .string).mapError .ofEval,
        s) := by
  induction room generalizing c s with
  | zero =>
    have hfull : s.limit < (s.stack ++ [c.callee]).length := (s.limit_lt_push _).mpr hroom
    rw [callWithin, Reference.call, dif_pos hfull, pop_push]
    rfl
  | succ room ih =>
    have hfits : ¬ s.limit < (s.stack ++ [c.callee]).length := by
      rw [limit_lt_push, hroom]
      exact Nat.succ_ne_zero room
    have hbody : ∀ bound calls, runCalls (callWithin room) calls (s.entered c.callee bound) =
        (((calls.mapM (Reference.call ⟨s.registry, s.limit⟩ (s.stack ++ [c.callee]) bound)).map
          String.join).mapError .ofEval, s.entered c.callee bound) := by
      intro bound calls
      refine runCalls_eq_mapM (fun inner => ih inner _ ?_) calls
      rw [room_entered, hroom, Nat.add_sub_cancel]
    rw [callWithin, Reference.call, dif_neg hfits]
    by_cases hsvg : c.callee = svgName
    · simp only [if_pos hsvg, svgValue_eq_svg, push_scope, pop_push]
    · simp only [if_neg hsvg, push_registry, push_scope]
      cases s.registry.find? c.callee with
      | none => simp only [pop_push]; rfl
      | some shape =>
        simp only [makeScope_eq_bindAll]
        cases Reference.bindAll s.scope shape c with
        | error e => simp only [Except.mapError, pop_push]; rfl
        | ok bound =>
          show ((runCalls (callWithin room) shape.body.calls (s.entered c.callee bound)).1.map _,
            pop { (runCalls (callWithin room) shape.body.calls (s.entered c.callee bound)).2 with
              scope := s.scope }) = _
          rw [hbody, pop_entered, ← mapError_map]
          rfl

theorem runCall_eq (s : Session) (c : Call) :
    s.runCall c =
      (((Reference.call ⟨s.registry, s.limit⟩ s.stack s.scope c).map .string).mapError .ofEval,
        s) :=
  s.callWithin_eq s.room c rfl

theorem runBlock_eq (s : Session) (b : Block) :
    s.runBlock b =
      ((Reference.block ⟨s.registry, s.limit⟩ s.stack s.scope b).mapError .ofEval, s) :=
  runCalls_eq_mapM s.runCall_eq b.calls

/-- Calls and blocks in a session, in terms of the reference. -/
theorem call_eq (s : Session) (c : Call) :
    s.call c = (Reference.call ⟨s.registry, s.limit⟩ s.stack s.scope c, s) := by
  have hsession : (s.runCall c).2 = s := congrArg Prod.snd (s.runCall_eq c)
  refine Prod.ext ((evalOutcome_eq_iff _).mpr ?_) hsession
  rw [runCall_eq, textOf_of_string]

theorem block_eq (s : Session) (b : Block) :
    s.block b = (Reference.block ⟨s.registry, s.limit⟩ s.stack s.scope b, s) := by
  have hsession : (s.runBlock b).2 = s := congrArg Prod.snd (s.runBlock_eq b)
  refine Prod.ext ((evalOutcome_eq_iff _).mpr ?_) hsession
  rw [runBlock_eq]

/-- What the session's functions promise: the outcome of the reference
evaluator for the session's stack and scope, and the session put back as
it was, whether or not there was a failure. So it is with what runs, where a
call gives a value and any failure is possible, and with the outcomes as
texts and problems of evaluation. A block's text is that of its calls, each
made on its own from the session that the block starts in. -/
theorem run_eq_reference (s : Session) :
    (∀ c, s.runCall c =
      (((Reference.call ⟨s.registry, s.limit⟩ s.stack s.scope c).map .string).mapError .ofEval,
        s)) ∧
    (∀ b, s.runBlock b =
      ((Reference.block ⟨s.registry, s.limit⟩ s.stack s.scope b).mapError .ofEval, s)) ∧
    (∀ c, s.call c = (Reference.call ⟨s.registry, s.limit⟩ s.stack s.scope c, s)) ∧
    (∀ b, s.block b = (Reference.block ⟨s.registry, s.limit⟩ s.stack s.scope b, s)) ∧
    (∀ e, s.value e = (Reference.value s.scope e, s)) ∧
    ∀ b, (s.block b).1 = (b.calls.mapM fun c => (s.call c).1).map String.join := by
  refine ⟨s.runCall_eq, s.runBlock_eq, s.call_eq, s.block_eq, ?_, ?_⟩
  · intro e
    rw [value, evaluate_eq_value]
  · intro b
    simp only [block_eq, call_eq]
    rfl

end Session

end ShapeScript
