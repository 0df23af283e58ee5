/-
ShapeScript.Proofs.Session.Limit — a limit only cuts runs off.

The limit on the depth of calls enters a run at one place: a call that
finds no free place on the stack is an overflow. So a run under a larger
limit does the same things for as long as the smaller one lets it go on,
and an outcome that is no overflow stays what it is. `Within` is this
relation between the outcomes under the two limits. An overflow in the
middle of a run is the outcome of the whole, whatever went before it,
and that is why the relation passes from steps to steps in sequence.
-/
import ShapeScript.Proofs.Session.Outcomes

namespace ShapeScript

/-! ## Outcomes under two limits -/

/-- The outcome is an overflow of the stack. -/
def Overflows {α : Type} (x : Except EvalError α) : Prop :=
  ∃ frames pos, x = .error ⟨.stackOverflow frames, pos⟩

/-- The first outcome is an overflow, or it is the second one. -/
def Within {α : Type} (x y : Except EvalError α) : Prop := Overflows x ∨ x = y

section Within

variable {α β : Type} {x y : Except EvalError α}

theorem Within.refl (x : Except EvalError α) : Within x x := .inr rfl

/-- Nothing comes after an overflow. -/
theorem Overflows.bind (h : Overflows x) (f : α → Except EvalError β) : Overflows (x >>= f) := by
  obtain ⟨frames, pos, rfl⟩ := h
  exact ⟨frames, pos, rfl⟩

theorem Within.bind {f f' : α → Except EvalError β} (h : Within x y)
    (hf : ∀ a, Within (f a) (f' a)) : Within (x >>= f) (y >>= f') := by
  rcases h with hover | rfl
  · exact .inl (hover.bind f)
  · cases x with
    | error e => exact .refl _
    | ok a => exact hf a

theorem Within.map (h : Within x y) (f : α → β) : Within (x.map f) (y.map f) := by
  rcases h with ⟨frames, pos, rfl⟩ | rfl
  · exact .inl ⟨frames, pos, rfl⟩
  · exact .refl _

theorem Within.mapM {f f' : α → Except EvalError β} (hf : ∀ a, Within (f a) (f' a))
    (as : List α) : Within (as.mapM f) (as.mapM f') := by
  induction as with
  | nil => exact .refl _
  | cons a as ih =>
    rw [List.mapM_cons, List.mapM_cons]
    exact (hf a).bind fun b => ih.bind fun bs => .refl _

end Within

/-! ## Calls -/

namespace Reference

variable {r : Registry} {n m : Int}

/-- Under a larger limit a call has the same outcome, if it was no
overflow. -/
theorem call_within (h : n ≤ m) (frames : List String) (scope : Scope) (c : Call) :
    Within (call ⟨r, n⟩ frames scope c) (call ⟨r, m⟩ frames scope c) := by
  induction frames, scope, c using call.induct ⟨r, n⟩ with
  | case1 frames scope c hfull =>
    rw [call_of_full (g := ⟨r, n⟩) (limit_lt_snoc.mp hfull)]
    exact .inl ⟨_, _, rfl⟩
  | case2 frames scope c hfits hsvg =>
    have hroom : frames.length < n := not_limit_lt_snoc.mp hfits
    rw [call_of_svg (g := ⟨r, n⟩) hroom hsvg,
      call_of_svg (g := ⟨r, m⟩) (Int.lt_of_lt_of_le hroom h) hsvg]
    exact .refl _
  | case3 frames scope c hfits hsvg hfind =>
    have hroom : frames.length < n := not_limit_lt_snoc.mp hfits
    rw [call_of_undefined hroom hsvg hfind,
      call_of_undefined (g := ⟨r, m⟩) (Int.lt_of_lt_of_le hroom h) hsvg hfind]
    exact .refl _
  | case4 frames scope c hfits hsvg shape hfind ih =>
    have hroom : frames.length < n := not_limit_lt_snoc.mp hfits
    rw [call_of_shape hroom hsvg hfind,
      call_of_shape (g := ⟨r, m⟩) (Int.lt_of_lt_of_le hroom h) hsvg hfind]
    exact (Within.refl _).bind fun bound => (Within.mapM (ih bound) _).map _

theorem block_within (h : n ≤ m) (frames : List String) (scope : Scope) (b : Block) :
    Within (block ⟨r, n⟩ frames scope b) (block ⟨r, m⟩ frames scope b) :=
  (Within.mapM (call_within h frames scope) b.calls).map _

end Reference

/-- The limit on the stack only cuts runs off: what a call or a block ends
with under one limit, it ends with under every larger one, unless it was
an overflow. -/
theorem Session.outcome_of_larger_limit (r : Registry) (stack : List String) (scope : Scope)
    {n m : Int} (h : n ≤ m) :
    (∀ c, ¬ Overflows (call ⟨r, n, stack, scope⟩ c).1 →
      (call ⟨r, m, stack, scope⟩ c).1 = (call ⟨r, n, stack, scope⟩ c).1) ∧
    ∀ b, ¬ Overflows (block ⟨r, n, stack, scope⟩ b).1 →
      (block ⟨r, m, stack, scope⟩ b).1 = (block ⟨r, n, stack, scope⟩ b).1 := by
  simp only [call_eq, block_eq]
  constructor
  · intro c hover
    exact ((Reference.call_within h stack scope c).resolve_left hover).symm
  · intro b hover
    exact ((Reference.block_within h stack scope b).resolve_left hover).symm

/-- `shape dot() { svg(value: ".") }`. -/
def dotShape : Shape :=
  ⟨"dot", [], ⟨[⟨svgName, [⟨svgArgument, .string "." .origin, .origin⟩], .origin⟩], .origin⟩,
    .origin⟩

/-- `shape dots() { dot() }`. -/
def dotsShape : Shape := ⟨"dots", [], ⟨[⟨"dot", [], .origin⟩], .origin⟩, .origin⟩

/-- `dots()`. -/
def dotsCall : Call := ⟨"dots", [], .origin⟩

theorem call_dotsCall {limit : Int} (h : 2 ≤ limit) :
    Reference.call ⟨⟨[dotsShape, dotShape]⟩, limit⟩ [] [] dotsCall =
      Reference.call ⟨⟨[dotsShape, dotShape]⟩, limit⟩ ["dots", "dot"] []
        ⟨svgName, [⟨svgArgument, .string "." .origin, .origin⟩], .origin⟩ := by
  have hdots : ([] : List String).length < limit := Int.lt_of_lt_of_le (by decide) h
  have hdot : (["dots"] : List String).length < limit := Int.lt_of_lt_of_le (by decide) h
  rw [Reference.call_of_shape hdots (by decide) rfl]
  show Reference.block ⟨_, limit⟩ ["dots"] [] dotsShape.body = _
  rw [Reference.block_singleton rfl, Reference.call_of_shape hdot (by decide) rfl]
  show Reference.block ⟨_, limit⟩ ["dots", "dot"] [] dotShape.body = _
  rw [Reference.block_singleton rfl]

/-- Those calls take three places on the stack. With two there is an
overflow, with three a text, which is then the text under any larger
limit. -/
theorem dotsCall_larger_limit :
    Overflows (Session.call ⟨⟨[dotsShape, dotShape]⟩, 2, [], []⟩ dotsCall).1 ∧
      (Session.call ⟨⟨[dotsShape, dotShape]⟩, 3, [], []⟩ dotsCall).1 = .ok "." ∧
      (Session.call ⟨⟨[dotsShape, dotShape]⟩, stackLimit, [], []⟩ dotsCall).1 = .ok "." := by
  have htwo : Overflows (Session.call ⟨⟨[dotsShape, dotShape]⟩, 2, [], []⟩ dotsCall).1 := by
    rw [Session.call_eq, call_dotsCall (by decide), Reference.call_of_full (by decide)]
    exact ⟨_, _, rfl⟩
  have hthree : (Session.call ⟨⟨[dotsShape, dotShape]⟩, 3, [], []⟩ dotsCall).1 = .ok "." := by
    rw [Session.call_eq, call_dotsCall (by decide), Reference.call_of_svg (by decide) rfl]
    rfl
  have hother : ¬ Overflows (Session.call ⟨⟨[dotsShape, dotShape]⟩, 3, [], []⟩ dotsCall).1 := by
    rw [hthree]
    exact fun ⟨_, _, h⟩ => nomatch h
  have hlarger := Session.outcome_of_larger_limit ⟨[dotsShape, dotShape]⟩ [] []
    (show (3 : Int) ≤ stackLimit by decide)
  exact ⟨htwo, hthree, (hlarger.1 dotsCall hother).trans hthree⟩

end ShapeScript
