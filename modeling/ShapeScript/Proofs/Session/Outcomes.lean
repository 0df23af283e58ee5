/-
ShapeScript.Proofs.Session.Outcomes — how a call ends.

A call does one of four things, and `call_of_full` and the three equations
after it say which. `Reference.Fails` derives the failures of calls: a call
fails by itself, because the stack is full, because its arguments cannot be
bound, or because there is nothing of its name, or it fails with the failure
of a call in the body it runs. `fails_of_call` says that there are no other
failures, so a fact about failures is proved by induction on how they come
about. `call_eq_ok` is the other side: when a call gives a text, so does
each call in the body.

`Reference.BindFails` does the same for binding a callee's parameters.
Only the limit of the stack makes an overflow: what expressions and
arguments fail with is something else.
-/
import ShapeScript.Proofs.Session.Binding

namespace ShapeScript

/-- The fault is that the stack is full. -/
def EvalFault.isOverflow : EvalFault → Bool
  | stackOverflow _ => true
  | _ => false

namespace Reference

variable {g : Setting} {frames : List String} {scope : Scope} {c : Call}

/-! ## Binding -/

/-- The ways in which binding a callee's parameters fails. -/
inductive BindFails (scope : Scope) (shape : Shape) (c : Call) : EvalError → Prop
  | undeclared {a : Argument} (ha : a ∈ c.arguments) (hname : a.name ∉ shape.parameterNames) :
      BindFails scope shape c ⟨.invalidArgumentName shape.name a.name, a.pos⟩
  | repeated {a : Argument} (ha : a ∈ c.arguments)
      (hrepeated : ¬ (c.arguments.map Argument.name).Nodup) :
      BindFails scope shape c ⟨.unexpectedArgument shape.name a.name, a.pos⟩
  | missing {p : Parameter} (hp : p ∈ shape.parameters)
      (hchosen : chosenExpr c.arguments p = none) :
      BindFails scope shape c ⟨.missingRequiredArgument shape.name p.name, c.pos⟩
  | value {p : Parameter} {x : Expr} {e : EvalError} (hp : p ∈ shape.parameters)
      (hchosen : chosenExpr c.arguments p = some x) (he : value scope x = .error e) :
      BindFails scope shape c e

/-- Binding fails on an argument, or on a parameter. -/
theorem bindFails_of_bindAll {shape : Shape} {e : EvalError}
    (h : bindAll scope shape c = .error e) : BindFails scope shape c e := by
  rw [bindAll, bind_eq_error] at h
  obtain hcheck | ⟨u, _, h⟩ := h
  · obtain ⟨a, ha, ⟨hname, rfl⟩ | ⟨hseen | hrepeated, rfl⟩⟩ := checkArguments_eq_error hcheck
    · exact .undeclared ha hname
    · cases hseen
    · exact .repeated ha hrepeated
  · obtain ⟨p, hp, bound, hparameter⟩ := foldlM_eq_error h
    obtain ⟨hchosen, rfl⟩ | ⟨x, hchosen, hx⟩ := bindParameter_eq_error hparameter
    · exact .missing hp hchosen
    · exact .value hp hchosen hx

/-! ## Calls of `svg` -/

theorem svg_eq_ok {text : String} (h : svg scope c = .ok text) :
    ∃ a, c.arguments = [a] ∧ a.name = svgArgument ∧ value scope a.value = .ok (.string text) := by
  unfold svg at h
  split at h
  · rename_i a harguments
    split at h
    · rename_i hname
      obtain ⟨v, hv, h⟩ := bind_eq_ok.mp h
      cases v with
      | number x => cases h
      | string s =>
        obtain rfl := Except.ok.inj h
        exact ⟨a, harguments, hname, hv⟩
    · cases h
  · cases h

/-- A call of `svg` with its argument fails as that does, or because it is a
number. -/
theorem svg_eq_error {a : Argument} {e : EvalError} (harguments : c.arguments = [a])
    (hname : a.name = svgArgument) (h : svg scope c = .error e) :
    value scope a.value = .error e ∨ e = ⟨.svgExpectsString .number, a.value.pos⟩ := by
  simp only [svg, harguments, if_pos hname] at h
  rcases bind_eq_error.mp h with hv | ⟨v, _, h⟩
  · exact .inl hv
  · cases v with
    | number x => exact .inr (Except.error.inj h).symm
    | string s => cases h

/-! ## Calls -/

/-- One name more exceeds the limit exactly if the limit is reached. -/
theorem limit_lt_snoc {limit : Int} {name : String} :
    limit < (frames ++ [name]).length ↔ limit ≤ frames.length := by
  rw [List.length_append, List.length_singleton]
  omega

theorem not_limit_lt_snoc {limit : Int} {name : String} :
    ¬ limit < (frames ++ [name]).length ↔ frames.length < limit := by
  rw [limit_lt_snoc, Int.not_le]

theorem call_of_full (hfull : g.limit ≤ frames.length) :
    call g frames scope c = .error ⟨.stackOverflow (frames ++ [c.callee]), c.pos⟩ := by
  rw [call, dif_pos (limit_lt_snoc.mpr hfull)]

theorem call_of_svg (hfits : frames.length < g.limit) (hsvg : c.callee = svgName) :
    call g frames scope c = svg scope c := by
  rw [call, dif_neg (not_limit_lt_snoc.mpr hfits), if_pos hsvg]

theorem call_of_undefined (hfits : frames.length < g.limit) (hsvg : c.callee ≠ svgName)
    (hfind : g.registry.find? c.callee = none) :
    call g frames scope c = .error ⟨.shapeNotDefined c.callee, c.pos⟩ := by
  rw [call, dif_neg (not_limit_lt_snoc.mpr hfits), if_neg hsvg, hfind]

/-- A call of a shape binds its parameters and runs its body, with nothing
else in scope. -/
theorem call_of_shape {shape : Shape} (hfits : frames.length < g.limit)
    (hsvg : c.callee ≠ svgName) (hfind : g.registry.find? c.callee = some shape) :
    call g frames scope c =
      bindAll scope shape c >>= fun bound => block g (frames ++ [c.callee]) bound shape.body := by
  rw [call, dif_neg (not_limit_lt_snoc.mpr hfits), if_neg hsvg, hfind]
  rfl

/-- A block of one call is that call. -/
theorem block_singleton {b : Block} (hcalls : b.calls = [c]) :
    block g frames scope b = call g frames scope c := by
  rw [block, hcalls, List.mapM_cons, List.mapM_nil]
  cases call g frames scope c with
  | error e => rfl
  | ok text => simp [bind, Except.bind, pure, Except.pure, Except.map, String.join]

/-- The ways in which a call fails. -/
inductive Fails (g : Setting) : List String → Scope → Call → EvalError → Prop
  | overflow {frames : List String} {scope : Scope} {c : Call}
      (hfull : g.limit ≤ frames.length) :
      Fails g frames scope c ⟨.stackOverflow (frames ++ [c.callee]), c.pos⟩
  | svg {frames : List String} {scope : Scope} {c : Call} {e : EvalError}
      (hfits : frames.length < g.limit) (hsvg : c.callee = svgName)
      (he : svg scope c = .error e) : Fails g frames scope c e
  | undefined {frames : List String} {scope : Scope} {c : Call}
      (hfits : frames.length < g.limit) (hsvg : c.callee ≠ svgName)
      (hfind : g.registry.find? c.callee = none) :
      Fails g frames scope c ⟨.shapeNotDefined c.callee, c.pos⟩
  | arguments {frames : List String} {scope : Scope} {c : Call} {shape : Shape} {e : EvalError}
      (hfits : frames.length < g.limit) (hsvg : c.callee ≠ svgName)
      (hfind : g.registry.find? c.callee = some shape) (he : BindFails scope shape c e) :
      Fails g frames scope c e
  | body {frames : List String} {scope bound : Scope} {c inner : Call} {shape : Shape}
      {e : EvalError} (hfits : frames.length < g.limit) (hsvg : c.callee ≠ svgName)
      (hfind : g.registry.find? c.callee = some shape)
      (hbind : bindAll scope shape c = .ok bound) (hinner : inner ∈ shape.body.calls)
      (h : Fails g (frames ++ [c.callee]) bound inner e) : Fails g frames scope c e

/-- The failure of a call comes from it or from a call that it runs. -/
theorem fails_of_call {e : EvalError} (h : call g frames scope c = .error e) :
    Fails g frames scope c e := by
  induction frames, scope, c using call.induct g with
  | case1 frames scope c hfull =>
    have hfull := limit_lt_snoc.mp hfull
    rw [call_of_full hfull] at h
    obtain rfl := Except.error.inj h
    exact .overflow hfull
  | case2 frames scope c hfits hsvg =>
    have hroom := not_limit_lt_snoc.mp hfits
    rw [call_of_svg hroom hsvg] at h
    exact .svg hroom hsvg h
  | case3 frames scope c hfits hsvg hfind =>
    have hroom := not_limit_lt_snoc.mp hfits
    rw [call_of_undefined hroom hsvg hfind] at h
    obtain rfl := Except.error.inj h
    exact .undefined hroom hsvg hfind
  | case4 frames scope c hfits hsvg shape hfind ih =>
    have hroom := not_limit_lt_snoc.mp hfits
    rw [call_of_shape hroom hsvg hfind] at h
    obtain hbind | ⟨bound, hbind, h⟩ := bind_eq_error.mp h
    · exact .arguments hroom hsvg hfind (bindFails_of_bindAll hbind)
    · obtain ⟨inner, hinner, hfail⟩ := mapM_eq_error (map_eq_error.mp h)
      exact .body hroom hsvg hfind hbind hinner (ih bound inner hfail)

/-- A call that gives a text has a place on the stack; unless it is one of
`svg`, it runs a body in which every call gives a text. -/
theorem call_eq_ok {text : String} (h : call g frames scope c = .ok text) :
    frames.length < g.limit ∧
      (c.callee = svgName ∨
        ∃ shape bound, g.registry.find? c.callee = some shape ∧
          bindAll scope shape c = .ok bound ∧
          ∀ inner ∈ shape.body.calls, ∃ t, call g (frames ++ [c.callee]) bound inner = .ok t) := by
  by_cases hfits : frames.length < g.limit
  · refine ⟨hfits, ?_⟩
    by_cases hsvg : c.callee = svgName
    · exact .inl hsvg
    · right
      cases hfind : g.registry.find? c.callee with
      | none =>
        rw [call_of_undefined hfits hsvg hfind] at h
        cases h
      | some shape =>
        rw [call_of_shape hfits hsvg hfind] at h
        obtain ⟨bound, hbind, h⟩ := bind_eq_ok.mp h
        obtain ⟨texts, hbody, _⟩ := map_eq_ok.mp h
        exact ⟨shape, bound, rfl, hbind, mapM_eq_ok hbody⟩
  · rw [call_of_full (Int.not_lt.mp hfits)] at h
    cases h

theorem fails_of_block {b : Block} {e : EvalError} (h : block g frames scope b = .error e) :
    ∃ c ∈ b.calls, Fails g frames scope c e := by
  rw [block, map_eq_error] at h
  obtain ⟨c, hc, hfail⟩ := mapM_eq_error h
  exact ⟨c, hc, fails_of_call hfail⟩

theorem block_eq_ok {b : Block} {text : String} (h : block g frames scope b = .ok text) :
    ∀ c ∈ b.calls, ∃ t, call g frames scope c = .ok t := by
  rw [block, map_eq_ok] at h
  obtain ⟨texts, hcalls, _⟩ := h
  exact mapM_eq_ok hcalls

/-! ## Failures that are no overflow -/

theorem isOverflow_value {x : Expr} {e : EvalError} (h : value scope x = .error e) :
    e.fault.isOverflow = false := by
  rcases value_eq_error h with ⟨n, _, _, hfault⟩ | hfault
  · rw [hfault]
    rfl
  · rw [hfault]
    rfl

theorem isOverflow_svg {e : EvalError} (h : svg scope c = .error e) :
    e.fault.isOverflow = false := by
  unfold svg at h
  split at h
  · split at h
    · obtain hv | ⟨v, _, h⟩ := bind_eq_error.mp h
      · exact isOverflow_value hv
      · cases v with
        | number y =>
          obtain rfl := Except.error.inj h
          rfl
        | string s => cases h
    · obtain rfl := Except.error.inj h
      rfl
  · obtain rfl := Except.error.inj h
    rfl

theorem BindFails.isOverflow_eq_false {shape : Shape} {e : EvalError} (h : BindFails scope shape c e) :
    e.fault.isOverflow = false := by
  cases h with
  | undeclared _ _ => rfl
  | repeated _ _ => rfl
  | missing hp hchosen => rfl
  | value hp hchosen he => exact isOverflow_value he

end Reference

end ShapeScript
