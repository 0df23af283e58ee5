/-
ShapeScript.Proofs.Session.Moments — the moments of a run.

A session's functions say what a run comes to and nothing of what it goes
through. Here a run is taken apart into steps: a name is put on the
stack, the call is entered, its body is run, the name is taken off again.
`Moment.next` is one step. It knows the limit only through the test that
a call makes when it is entered, it counts no free places, and nothing in
its form says that a sequence of steps has an end.

`Moment.reaches_after_call` says that it has: the steps of a call come to
the outcome of the evaluator and put the session back, in the middle of
whatever is run. The induction is that of the evaluator, on the free
places on the stack. What holds at every moment in between is
`Moment.Regular`: how high the stack is, and what stands on what.
`Regular.next` says that a step keeps it, and `regular_of_reaches` that a
run does.
-/
import Mathlib.Computability.StateTransition
import ShapeScript.Proofs.Document.CallGraph

namespace ShapeScript

open StateTransition (Reaches eval)

/-! ## Steps -/

/-- What a run does at a moment. -/
inductive Task where
  /-- Runs the calls; those before them in the block gave the text. -/
  | run (calls : List Call) (text : String)
  /-- Enters the call whose name was put on the stack. -/
  | enter (c : Call)
  /-- Leaves the calls that are being made, because of a failure. -/
  | fail (e : EvalError)

/-- What is left to do of something that has come to an outcome. -/
def Task.ended : Except EvalError String → Task
  | .ok text => .run [] text
  | .error e => .fail e

/-- What a run goes on with when a call has ended: the scope of the
caller, and how far its block has come. -/
structure Resumption where
  scope : Scope
  calls : List Call
  text : String

/-- A moment of a run: the session, what is done in it, and how each of
the calls that are being made is resumed, the last one first. -/
structure Moment where
  session : Session
  task : Task
  resumptions : List Resumption

namespace Session

/-- Enters the call whose name was put on the stack. -/
def enter (s : Session) (c : Call) : Session × Task :=
  if s.limit < s.stack.length then (s, .fail ⟨.stackOverflow s.stack, c.pos⟩)
  else if c.callee = svgName then (s, .ended (svgText s.scope c))
  else
    match s.registry.find? c.callee with
    | none => (s, .fail ⟨.shapeNotDefined c.callee, c.pos⟩)
    | some shape =>
      match bindArguments s.scope shape c with
      | .error e => (s, .fail e)
      | .ok bound => ({ s with scope := bound }, .run shape.body.calls "")

/-- Takes the name of a call that has ended off the stack, and puts its
caller's scope back. -/
def leave (s : Session) (caller : Scope) : Session := { s with scope := caller }.pop

end Session

namespace Moment

/-- The moment before the first of some calls. -/
def start (s : Session) (calls : List Call) : Moment := ⟨s, .run calls "", []⟩

/-- One step of a run. There is none when everything was run, or left. -/
def next : Moment → Option Moment
  | ⟨s, .run (c :: calls) text, rs⟩ =>
    some ⟨s.push c.callee, .enter c, ⟨s.scope, calls, text⟩ :: rs⟩
  | ⟨s, .enter c, rs⟩ => some ⟨(s.enter c).1, (s.enter c).2, rs⟩
  | ⟨s, .run [] text, back :: rs⟩ =>
    some ⟨s.leave back.scope, .run back.calls (back.text ++ text), rs⟩
  | ⟨s, .fail e, back :: rs⟩ => some ⟨s.leave back.scope, .fail e, rs⟩
  | ⟨_, .run [] _, []⟩ => none
  | ⟨_, .fail _, []⟩ => none

/-- The moment in which a call has come to an outcome and the calls behind
it are next. -/
def after (s : Session) (calls : List Call) (text : String) (rs : List Resumption) :
    Except EvalError String → Moment
  | .ok more => ⟨s, .run calls (text ++ more), rs⟩
  | .error e => ⟨s, .fail e, rs⟩

end Moment

/-! ## Runs come to the outcome of the evaluator -/

namespace Session

variable {s : Session} {c : Call}

@[simp] theorem leave_stack (s : Session) (caller : Scope) :
    (s.leave caller).stack = s.stack.dropLast := rfl

@[simp] theorem leave_entered (s : Session) (name : String) (bound : Scope) :
    (s.entered name bound).leave s.scope = s := s.pop_entered name bound

theorem enter_of_full (hfull : s.limit < s.stack.length) :
    s.enter c = (s, .fail ⟨.stackOverflow s.stack, c.pos⟩) := if_pos hfull

theorem enter_of_svg (hfits : ¬ s.limit < s.stack.length) (hsvg : c.callee = svgName) :
    s.enter c = (s, .ended (Reference.svg s.scope c)) := by
  simp [enter, hfits, hsvg, svgText_eq_svg]

theorem enter_of_undefined (hfits : ¬ s.limit < s.stack.length) (hsvg : c.callee ≠ svgName)
    (hfind : s.registry.find? c.callee = none) :
    s.enter c = (s, .fail ⟨.shapeNotDefined c.callee, c.pos⟩) := by
  simp [enter, hfits, hsvg, hfind]

theorem enter_of_bind_error {shape : Shape} {e : EvalError} (hfits : ¬ s.limit < s.stack.length)
    (hsvg : c.callee ≠ svgName) (hfind : s.registry.find? c.callee = some shape)
    (hbind : Reference.bindAll s.scope shape c = .error e) : s.enter c = (s, .fail e) := by
  simp [enter, hfits, hsvg, hfind, bindArguments_eq_bindAll, hbind]

theorem enter_of_bind_ok {shape : Shape} {bound : Scope} (hfits : ¬ s.limit < s.stack.length)
    (hsvg : c.callee ≠ svgName) (hfind : s.registry.find? c.callee = some shape)
    (hbind : Reference.bindAll s.scope shape c = .ok bound) :
    s.enter c = ({ s with scope := bound }, .run shape.body.calls "") := by
  simp [enter, hfits, hsvg, hfind, bindArguments_eq_bindAll, hbind]

end Session

namespace Moment

variable {s : Session} {rs : List Resumption}

theorem after_nil (x : Except EvalError String) : after s [] "" rs x = ⟨s, .ended x, rs⟩ := by
  cases x <;> simp [after, Task.ended]

/-- A call is resumed with the outcome that entering it leads to. -/
theorem reaches_after {c : Call} {calls : List Call} {text : String}
    {x : Except EvalError String} (bound : Scope)
    (h : Reaches next
      ⟨((s.push c.callee).enter c).1, ((s.push c.callee).enter c).2, ⟨s.scope, calls, text⟩ :: rs⟩
      ⟨s.entered c.callee bound, .ended x, ⟨s.scope, calls, text⟩ :: rs⟩) :
    Reaches next ⟨s, .run (c :: calls) text, rs⟩ (after s calls text rs x) := by
  have hlast : after s calls text rs x ∈
      next ⟨s.entered c.callee bound, .ended x, ⟨s.scope, calls, text⟩ :: rs⟩ := by
    cases x <;> simp [next, Task.ended, after]
  exact .head rfl (.head rfl (h.tail hlast))

/-- When each call of a list comes to an outcome, so does the list. -/
theorem reaches_after_mapM {f : Call → Except EvalError String}
    (hf : ∀ c calls text, Reaches next ⟨s, .run (c :: calls) text, rs⟩ (after s calls text rs (f c)))
    (calls : List Call) (text : String) :
    Reaches next ⟨s, .run calls text, rs⟩
      (after s [] text rs ((calls.mapM f).map String.join)) := by
  induction calls generalizing text with
  | nil =>
    have hnil : after s [] text rs (([].mapM f).map String.join) = ⟨s, .run [] text, rs⟩ := by
      simp [Except.map, pure, Except.pure, after]
    rw [hnil]
    exact .refl
  | cons c calls ih =>
    refine (hf c calls text).trans ?_
    change Reaches next _ _
    rw [List.mapM_cons]
    cases f c with
    | error e => exact .refl
    | ok t =>
      have hrest := ih (text ++ t)
      cases hcalls : calls.mapM f with
      | error e =>
        rw [hcalls] at hrest
        exact hrest
      | ok ts =>
        rw [hcalls] at hrest
        simpa [Except.map, bind, Except.bind, pure, Except.pure, after, String.append_assoc]
          using hrest

/-- The steps of a call come to the outcome of the evaluator and put the
session back, in the middle of whatever is run. -/
theorem reaches_after_call (r : Registry) (limit : Int) (frames : List String) (scope : Scope)
    (c : Call) (calls : List Call) (text : String) (rs : List Resumption) :
    Reaches next ⟨⟨r, limit, frames, scope⟩, .run (c :: calls) text, rs⟩
      (after ⟨r, limit, frames, scope⟩ calls text rs
        (Reference.call ⟨r, limit⟩ frames scope c)) := by
  induction frames, scope, c using Reference.call.induct ⟨r, limit⟩
    generalizing calls text rs with
  | case1 frames scope c hfull =>
    rw [Reference.call_of_full (Reference.limit_lt_snoc.mp hfull)]
    refine reaches_after scope ?_
    rw [Session.enter_of_full hfull]
    exact .refl
  | case2 frames scope c hfits hsvg =>
    rw [Reference.call_of_svg (Reference.not_limit_lt_snoc.mp hfits) hsvg]
    refine reaches_after scope ?_
    rw [Session.enter_of_svg hfits hsvg]
    exact .refl
  | case3 frames scope c hfits hsvg hfind =>
    rw [Reference.call_of_undefined (Reference.not_limit_lt_snoc.mp hfits) hsvg hfind]
    refine reaches_after scope ?_
    rw [Session.enter_of_undefined hfits hsvg hfind]
    exact .refl
  | case4 frames scope c hfits hsvg shape hfind ih =>
    rw [Reference.call_of_shape (Reference.not_limit_lt_snoc.mp hfits) hsvg hfind]
    cases hbind : Reference.bindAll scope shape c with
    | error e =>
      refine reaches_after scope ?_
      rw [Session.enter_of_bind_error hfits hsvg hfind hbind]
      exact .refl
    | ok bound =>
      refine reaches_after bound ?_
      rw [Session.enter_of_bind_ok hfits hsvg hfind hbind, ← after_nil]
      exact reaches_after_mapM (fun c calls text => ih bound c calls text _) _ _

end Moment

/-! ## What holds at every moment -/

namespace Registry

/-- The first name is called by one of the calls, and each of the others in
the body of the one before it. -/
def CallChain (r : Registry) (calls : List Call) (names : List String) : Prop :=
  (∀ f ∈ names.head?, ∃ c ∈ calls, c.callee = f) ∧ names.IsChain r.Calls

/-- What runs on top of the names, the last of which comes first, calls the
name: one of the calls does, or the body of the last name. -/
def CalledOn (r : Registry) (calls : List Call) : List String → String → Prop
  | [], name => ∃ c ∈ calls, c.callee = name
  | f :: _, name => r.Calls f name

/-- Each name is called on top of the names behind it, and so is what is
left of the block that called it. -/
inductive Stacked (r : Registry) (calls : List Call) : List String → List Resumption → Prop
  | nil : Stacked r calls [] []
  | cons {names : List String} {rs : List Resumption} {name : String} {back : Resumption}
      (h : Stacked r calls names rs) (hname : r.CalledOn calls names name)
      (hback : ∀ c ∈ back.calls, r.CalledOn calls names c.callee) :
      Stacked r calls (name :: names) (back :: rs)

theorem Stacked.callChain {r : Registry} {calls : List Call} {names : List String}
    {rs : List Resumption} (h : r.Stacked calls names rs) : r.CallChain calls names.reverse := by
  induction h with
  | nil => exact ⟨nofun, .nil⟩
  | @cons names rs name back _ hname _ ih =>
    obtain ⟨hhead, hchain⟩ := ih
    cases names with
    | nil => exact ⟨by simpa [CalledOn] using hname, .singleton name⟩
    | cons f names =>
      rw [List.isChain_reverse] at hchain
      refine ⟨by simpa using hhead, ?_⟩
      rw [List.isChain_reverse]
      exact .cons_cons hname hchain

end Registry

/-- The task goes on from the names on the stack. -/
def Task.GoesOn (r : Registry) (first : List Call) (names : List String) : Task → Prop
  | .run calls _ => ∀ c ∈ calls, r.CalledOn first names c.callee
  | .enter c => names.head? = some c.callee
  | .fail _ => True

/-- The names on the stack that no call has found a place for yet. -/
def Task.excess : Task → Nat
  | .run .. => 0
  | .enter _ | .fail _ => 1

/-- Entering a call fails, or there was a place for its name and the calls
that it is about to make are those of its body. -/
theorem Session.enter_cases (s : Session) (c : Call) :
    (∃ e, s.enter c = (s, .fail e)) ∨
      ∃ bound calls text, s.enter c = ({ s with scope := bound }, .run calls text) ∧
        s.stack.length ≤ s.limit ∧ ∀ inner ∈ calls, s.registry.Calls c.callee inner.callee := by
  by_cases hfits : s.limit < s.stack.length
  · exact .inl ⟨_, enter_of_full hfits⟩
  have hplace := Int.not_lt.mp hfits
  by_cases hsvg : c.callee = svgName
  · rw [enter_of_svg hfits hsvg]
    cases Reference.svg s.scope c with
    | error e => exact .inl ⟨e, rfl⟩
    | ok text => exact .inr ⟨s.scope, [], text, rfl, hplace, fun _ h => nomatch h⟩
  cases hfind : s.registry.find? c.callee with
  | none => exact .inl ⟨_, enter_of_undefined hfits hsvg hfind⟩
  | some shape =>
    cases hbind : Reference.bindAll s.scope shape c with
    | error e => exact .inl ⟨e, enter_of_bind_error hfits hsvg hfind hbind⟩
    | ok bound =>
      refine .inr ⟨bound, _, "", enter_of_bind_ok hfits hsvg hfind hbind, hplace, ?_⟩
      exact fun inner hinner => ⟨hsvg, shape, hfind, inner, hinner, rfl⟩

namespace Moment

/-- The moment is one that a run of the calls may come to: registry and
limit are those it started with, the stack is no higher than it may be,
and what stands on it was called by what it stands on. -/
structure Regular (s : Session) (first : List Call) (m : Moment) : Prop where
  registry : m.session.registry = s.registry
  limit : m.session.limit = s.limit
  height : m.session.stack.length ≤ max (s.stack.length : Int) s.limit + m.task.excess
  names : ∃ names, m.session.stack = s.stack ++ names.reverse ∧
    s.registry.Stacked first names m.resumptions ∧ m.task.GoesOn s.registry first names

variable {s : Session} {first : List Call} {m m' : Moment}

theorem regular_start (s : Session) (calls : List Call) : (start s calls).Regular s calls := by
  refine ⟨rfl, rfl, ?_, [], by simp [start], .nil, fun c hc => ⟨c, hc, rfl⟩⟩
  simp [start, Task.excess]

/-- Leaving a call, in order to go on with what it was called by. -/
theorem Regular.leave {now : Session} {task task' : Task} {back : Resumption}
    {rs : List Resumption} (h : Regular s first ⟨now, task, back :: rs⟩)
    (hexcess : task'.excess = task.excess)
    (hgoes : ∀ names, (∀ c ∈ back.calls, s.registry.CalledOn first names c.callee) →
      task'.GoesOn s.registry first names) :
    Regular s first ⟨now.leave back.scope, task', rs⟩ := by
  obtain ⟨hregistry, hlimit, hheight, names, hstack, hstacked, _⟩ := h
  dsimp only at hheight hstack hstacked
  cases hstacked with
  | @cons names rs name back hbelow _ hcalls =>
    refine ⟨hregistry, hlimit, ?_, names, by simp [hstack], hbelow, hgoes names hcalls⟩
    simp [hexcess]
    omega

theorem Regular.next (h : m.Regular s first) (hstep : m' ∈ m.next) : m'.Regular s first := by
  obtain ⟨now, task, rs⟩ := m
  cases task with
  | run calls text =>
    cases calls with
    | cons c calls =>
      obtain ⟨hregistry, hlimit, hheight, names, hstack, hstacked, htask⟩ := h
      dsimp only at hheight hstack hstacked
      obtain rfl := Option.some.inj hstep
      refine ⟨hregistry, hlimit, ?_, c.callee :: names, by simp [hstack], ?_, rfl⟩
      · simp [Task.excess] at hheight ⊢
        omega
      · exact .cons hstacked (htask c List.mem_cons_self) fun c' hc' =>
          htask c' (List.mem_cons_of_mem c hc')
    | nil =>
      cases rs with
      | nil => cases hstep
      | cons back rs =>
        obtain rfl := Option.some.inj hstep
        exact h.leave rfl fun _ hcalls => hcalls
  | enter c =>
    obtain ⟨hregistry, hlimit, hheight, names, hstack, hstacked, htask⟩ := h
    obtain rfl := Option.some.inj hstep
    rcases now.enter_cases c with ⟨e, he⟩ | ⟨bound, calls, text, he, hplace, hcalls⟩
    · rw [he]
      exact ⟨hregistry, hlimit, hheight, names, hstack, hstacked, trivial⟩
    · rw [he]
      refine ⟨hregistry, hlimit, ?_, names, hstack, hstacked, ?_⟩
      · dsimp only at hlimit
        simp [Task.excess]
        omega
      · cases names with
        | nil => cases htask
        | cons f names =>
          obtain rfl := Option.some.inj htask
          exact hregistry ▸ hcalls
  | fail e =>
    cases rs with
    | nil => cases hstep
    | cons back rs =>
      obtain rfl := Option.some.inj hstep
      exact h.leave rfl fun _ _ => trivial

theorem regular_of_reaches (h : Reaches next (start s first) m) : m.Regular s first := by
  induction h with
  | refl => exact regular_start s first
  | tail _ hstep ih => exact ih.next hstep

theorem eval_start {x : Except EvalError String} {calls : List Call}
    (h : Reaches next (start s calls) (after s [] "" [] x)) :
    eval next (start s calls) = .some ⟨s, .ended x, []⟩ := by
  rw [Part.eq_some_iff, StateTransition.mem_eval, ← after_nil]
  refine ⟨h, ?_⟩
  cases x <;> rfl

end Moment

/-- Runs end, and the stack stays bounded. From every session the steps of a
call or of a block come to an end, with the text or the error that the
session's functions give and the session as it was. At every moment the
stack holds one name more than it did, or than the limit allows, at most;
and the names that were put on it are a chain of calls. -/
theorem Session.run_ends_within_limit (s : Session) :
    (∀ c, eval Moment.next (.start s [c]) = .some ⟨s, .ended (s.call c).1, []⟩) ∧
    (∀ b, eval Moment.next (.start s b.calls) = .some ⟨s, .ended (s.block b).1, []⟩) ∧
    ∀ calls m, Reaches Moment.next (.start s calls) m →
      m.session.stack.length ≤ max ((s.stack.length : Int) + 1) (s.limit + 1) ∧
      ∃ names, m.session.stack = s.stack ++ names ∧ s.registry.CallChain calls names := by
  have hcall := Moment.reaches_after_call s.registry s.limit s.stack s.scope
  refine ⟨?_, ?_, ?_⟩
  · intro c
    rw [call_eq]
    exact Moment.eval_start (hcall c [] "" [])
  · intro b
    rw [block_eq]
    refine Moment.eval_start (Moment.reaches_after_mapM ?_ b.calls "")
    exact fun c calls text => hcall c calls text []
  · intro calls m h
    obtain ⟨_, _, hheight, names, hstack, hstacked, _⟩ := Moment.regular_of_reaches h
    refine ⟨?_, names.reverse, hstack, hstacked.callChain⟩
    have hexcess : m.task.excess ≤ 1 := by
      cases m.task <;> simp [Task.excess]
    omega

/-- `shape loop() { loop() }`. -/
def loopShape : Shape :=
  ⟨"loop", [], ⟨[⟨"loop", [], .origin⟩], .origin⟩, .origin⟩

/-- `loop()`. -/
def loopCall : Call := ⟨"loop", [], .origin⟩

/-- A session with that shape and one free place on the stack. -/
def loopSession : Session := ⟨⟨[loopShape]⟩, 1, [], []⟩

/-- The moment in which the call is made for the second time. -/
def loopMoment : Moment :=
  ⟨⟨⟨[loopShape]⟩, 1, ["loop", "loop"], []⟩, .enter loopCall, [⟨[], [], ""⟩, ⟨[], [], ""⟩]⟩

theorem reaches_loopMoment : Reaches Moment.next (.start loopSession [loopCall]) loopMoment :=
  .head rfl (.head rfl (.head rfl .refl))

/-- There the stack is as high as it may be, and both names on it are those
of calls; after that the run ends with an overflow. -/
theorem loopSession_run_ends :
    Reaches Moment.next (.start loopSession [loopCall]) loopMoment ∧
      loopMoment.session.stack.length ≤ max ((loopSession.stack.length : Int) + 1)
        (loopSession.limit + 1) ∧
      (∃ names, ["loop", "loop"] = names ∧ (Registry.mk [loopShape]).CallChain [loopCall] names) ∧
      eval Moment.next (.start loopSession [loopCall]) =
        .some ⟨loopSession, .fail ⟨.stackOverflow ["loop", "loop"], .origin⟩, []⟩ := by
  obtain ⟨hcall, _, hmoments⟩ := loopSession.run_ends_within_limit
  obtain ⟨hheight, hnames⟩ := hmoments [loopCall] loopMoment reaches_loopMoment
  refine ⟨reaches_loopMoment, hheight, hnames, ?_⟩
  rw [hcall]
  rfl

end ShapeScript
