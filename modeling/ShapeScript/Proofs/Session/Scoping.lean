/-
ShapeScript.Proofs.Session.Scoping — what a call sees of its caller's scope.

A call reads names in its caller's scope and in no other: those in its
arguments and, since a default is evaluated for the caller too, those in the
defaults of the parameters that it leaves out. `Call.Reads` lists them, and
`call_congr` says that nothing else in the scope makes a difference. The
body of the callee does not see that scope at all. It runs in one that
holds the callee's parameters, and what these are bound to was found before
any of them was bound.
-/
import ShapeScript.Proofs.Session.Outcomes

namespace ShapeScript

/-! ## Names that are read -/

/-- The call reads the name: an argument contains it, or the default of a
parameter of the callee that the call does not supply. -/
inductive Call.Reads (r : Registry) (c : Call) (n : String) : Prop
  | argument {a : Argument} (ha : a ∈ c.arguments) (hn : n ∈ a.value.names)
  | fallback {shape : Shape} {p : Parameter} {e : Expr} (hsvg : c.callee ≠ svgName)
      (hfind : r.find? c.callee = some shape) (hp : p ∈ shape.parameters)
      (hother : ∀ a ∈ c.arguments, a.name ≠ p.name) (he : p.fallback = some e)
      (hn : n ∈ e.names)

theorem Call.Reads.of_chosenExpr {r : Registry} {c : Call} {shape : Shape} {p : Parameter}
    {e : Expr} {n : String} (hsvg : c.callee ≠ svgName) (hfind : r.find? c.callee = some shape)
    (hp : p ∈ shape.parameters) (he : chosenExpr c.arguments p = some e) (hn : n ∈ e.names) :
    c.Reads r n := by
  rcases chosenExpr_eq_some he with ⟨a, ha, _, rfl⟩ | ⟨hother, hfallback⟩
  · exact .argument ha hn
  · exact .fallback hsvg hfind hp hother hfallback hn

namespace Reference

variable {g : Setting} {frames : List String} {scope scope' : Scope} {c : Call}

/-! ## Scopes that agree -/

theorem svg_congr (h : ∀ a ∈ c.arguments, ∀ n ∈ a.value.names, scope.find? n = scope'.find? n) :
    svg scope c = svg scope' c := by
  unfold svg
  split
  · rename_i a harguments
    have ha : a ∈ c.arguments := harguments ▸ List.mem_singleton.mpr rfl
    simp only [value_congr (h a ha)]
  · rfl

/-- Caller's scopes that agree on the names that a call reads make no
difference to it. -/
theorem call_congr (h : ∀ n, c.Reads g.registry n → scope.find? n = scope'.find? n) :
    call g frames scope c = call g frames scope' c := by
  by_cases hfits : frames.length < g.limit
  · by_cases hsvg : c.callee = svgName
    · rw [call_of_svg hfits hsvg, call_of_svg hfits hsvg]
      exact svg_congr fun a ha n hn => h n (.argument ha hn)
    · cases hfind : g.registry.find? c.callee with
      | none => rw [call_of_undefined hfits hsvg hfind, call_of_undefined hfits hsvg hfind]
      | some shape =>
        have hbind : bindAll scope shape c = bindAll scope' shape c :=
          bindAll_congr fun p hp e he => value_congr fun n hn =>
            h n (.of_chosenExpr hsvg hfind hp he hn)
        rw [call_of_shape hfits hsvg hfind, call_of_shape hfits hsvg hfind, hbind]
  · have hfull := Int.not_lt.mp hfits
    rw [call_of_full hfull, call_of_full hfull]

end Reference

/-! ## Calls in a session -/

/-- A callee sees its own parameters and nothing else. Of the caller's scope
a call depends on the names that it reads. If it comes to run a body, the
body runs in a scope that holds the callee's parameters only, each bound to
what its argument or default is in the scope of the caller. -/
theorem Session.callee_scope (r : Registry) (limit : Int) (stack : List String) (c : Call) :
    (∀ scope scope' : Scope, (∀ n, c.Reads r n → scope.find? n = scope'.find? n) →
      (call ⟨r, limit, stack, scope⟩ c).1 = (call ⟨r, limit, stack, scope'⟩ c).1) ∧
    ∀ (scope : Scope) (shape : Shape), stack.length < limit → c.callee ≠ svgName →
      r.find? c.callee = some shape →
        match bindArguments scope shape c with
        | .error e => (call ⟨r, limit, stack, scope⟩ c).1 = .error e
        | .ok bound =>
          (call ⟨r, limit, stack, scope⟩ c).1 =
            (block ⟨r, limit, stack ++ [c.callee], bound⟩ shape.body).1 ∧
          ∀ n, match lastNamed shape.parameters n with
            | none => bound.find? n = none
            | some p => ∃ e v, chosenExpr c.arguments p = some e ∧ e.evaluate scope = .ok v ∧
                bound.find? n = some v := by
  constructor
  · intro scope scope' h
    simp only [call_eq]
    exact Reference.call_congr h
  · intro scope shape hroom hsvg hfind
    have hcall := @Reference.call_of_shape ⟨r, limit⟩ stack scope c shape hroom hsvg hfind
    simp only [call_eq, block_eq, bindArguments_eq_bindAll, evaluate_eq_value, hcall]
    cases hbind : Reference.bindAll scope shape c with
    | error e => rfl
    | ok bound => exact ⟨rfl, Reference.find?_of_bindAll hbind⟩

/-- `shape badge(text, suffix = unit) { svg(value: text + suffix) }`. -/
def badge : Shape :=
  ⟨"badge", [⟨"text", none, .origin⟩, ⟨"suffix", some (.name "unit" .origin), .origin⟩],
    ⟨[⟨svgName, [⟨svgArgument,
      .binary (.name "text" .origin) .plus (.name "suffix" .origin) .origin .origin,
      .origin⟩], .origin⟩], .origin⟩, .origin⟩

/-- `badge(text: label)`. -/
def badgeCall : Call := ⟨"badge", [⟨"text", .name "label" .origin, .origin⟩], .origin⟩

/-- The call reads `label` and `unit`. What its caller has as `text` and
`suffix` makes no difference to it, and the body does not see `label`. -/
theorem badge_callee_scope :
    let caller : Scope := [("label", .string "12"), ("unit", .string "px")]
    let other : Scope := [("text", .number 0), ("unit", .string "px"), ("suffix", .string "!"),
      ("label", .string "12")]
    (∀ n, badgeCall.Reads ⟨[badge]⟩ n → caller.find? n = other.find? n) ∧
    (Session.call ⟨⟨[badge]⟩, stackLimit, [], caller⟩ badgeCall).1 =
      (Session.call ⟨⟨[badge]⟩, stackLimit, [], other⟩ badgeCall).1 ∧
    (Session.call ⟨⟨[badge]⟩, stackLimit, [], other⟩ badgeCall).1 =
      (Session.block ⟨⟨[badge]⟩, stackLimit, ["badge"],
        [("text", .string "12"), ("suffix", .string "px")]⟩ badge.body).1 := by
  intro caller other
  have hreads : ∀ n, badgeCall.Reads ⟨[badge]⟩ n → caller.find? n = other.find? n := by
    intro n hn
    cases hn with
    | @argument a ha hn =>
      obtain rfl := List.mem_singleton.mp ha
      obtain rfl := List.mem_singleton.mp hn
      rfl
    | @fallback shape p e hsvg hfind hp hother he hn =>
      obtain rfl : badge = shape := Option.some.inj hfind
      simp only [badge, List.mem_cons, List.not_mem_nil, or_false] at hp
      rcases hp with rfl | rfl
      · cases he
      · obtain rfl := Option.some.inj he
        obtain rfl := List.mem_singleton.mp hn
        rfl
  have hbind : bindArguments other badge badgeCall =
      .ok [("text", .string "12"), ("suffix", .string "px")] := by
    rw [bindArguments_eq_bindAll]
    rfl
  have hscope := Session.callee_scope ⟨[badge]⟩ stackLimit [] badgeCall
  have hcallee := hscope.2 other badge (by decide) (by decide) rfl
  rw [hbind] at hcallee
  exact ⟨hreads, hscope.1 caller other hreads, hcallee.1⟩

end ShapeScript
