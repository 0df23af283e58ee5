/-
ShapeScript.Proofs.Session.Declarations — what a call of a declared shape
runs.

Two mechanisms decide what a name means. Registering asks that a name is
not taken, and a call is dispatched to the builtin `svg` before the
registry is looked at. `svg` is no shape of the library, so registering
does not know that its name is taken, and a program may declare it.

`Session.call_of_declared` says what comes of that. A declaration that is
accepted is the one that is found under its name, and a call of it binds
the arguments to its parameters and runs its body, unless its name is
`svg`: then a call of that name is one of the builtin, and the body never
runs.
-/
import ShapeScript.Proofs.Library.Builtin
import ShapeScript.Proofs.Session.Outcomes

namespace ShapeScript

namespace Session

/-- What a call of a shape should run: the arguments are bound to its
parameters in the caller's scope, then its body runs in the session that
the call enters, and the caller's session is back afterwards. -/
def runShape (s : Session) (shape : Shape) (c : Call) : Ran String :=
  match bindArguments s.scope shape c with
  | .error e => (.error e, s)
  | .ok bound => (((s.entered c.callee bound).block shape.body).1, s)

/-- A call whose callee the registry knows runs that shape, if there is
room on the stack and the callee is not `svg`. -/
theorem call_eq_runShape {s : Session} {shape : Shape} {c : Call}
    (hroom : s.stack.length < s.limit) (hsvg : c.callee ≠ svgName)
    (hfind : s.registry.find? c.callee = some shape) : s.call c = s.runShape shape c := by
  have hcall := @Reference.call_of_shape ⟨s.registry, s.limit⟩ s.stack s.scope c shape
    hroom hsvg hfind
  rw [call_eq, hcall, runShape, bindArguments_eq_bindAll]
  cases Reference.bindAll s.scope shape c with
  | error e => rfl
  | ok bound =>
    simp only [block_eq]
    rfl

/-- A call of `svg` does not look at the registry. -/
theorem call_eq_svgText {s : Session} {c : Call} (hroom : s.stack.length < s.limit)
    (hsvg : c.callee = svgName) : s.call c = (svgText s.scope c, s) := by
  have hcall := @Reference.call_of_svg ⟨s.registry, s.limit⟩ s.stack s.scope c hroom hsvg
  rw [call_eq, hcall, svgText_eq_svg]

/-- A call whose callee nothing knows runs nothing. -/
theorem call_of_undefined {s : Session} {c : Call} (hroom : s.stack.length < s.limit)
    (hsvg : c.callee ≠ svgName) (hfind : s.registry.find? c.callee = none) :
    s.call c = (.error ⟨.shapeNotDefined c.callee, c.pos⟩, s) := by
  have hcall := @Reference.call_of_undefined ⟨s.registry, s.limit⟩ s.stack s.scope c
    hroom hsvg hfind
  rw [call_eq, hcall]

end Session

/-- A name that is not taken is not found. -/
theorem Registry.find?_eq_none_of_contains {r : Registry} {name : String}
    (h : r.contains name = false) : r.find? name = none := by
  simpa [find?] using contains_eq_false.mp h

theorem Registry.contains_of_register {base r : Registry} {p : Program} {requireMain : Bool}
    (h : base.register p requireMain = .ok r) : ∀ s ∈ p.shapes, base.contains s.name = false := by
  rw [register] at h
  split at h
  · cases h
  · rename_i r' hdeclare
    exact (declare_eq_ok hdeclare).2

/-- A declaration that registers on the builtin library has a name that no
builtin shape has, and is what the registry has under that name. From any
session over that registry with room on its stack, a call by that name
binds its arguments to the parameters of the declaration and runs its
body; only if the name is `svg`, it injects its argument instead. -/
theorem Session.call_of_declared {base r : Registry} {p : Program} {requireMain : Bool}
    {shape : Shape} (hload : LibraryText.builtin.load = .ok base)
    (hregister : base.register p requireMain = .ok r) (hshape : shape ∈ p.shapes) :
    shape.name ∉ builtinNames ∧ base.find? shape.name = none ∧
      r.find? shape.name = some shape ∧
      ∀ (limit : Int) (stack : List String) (scope : Scope) (c : Call),
        stack.length < limit → c.callee = shape.name →
          (shape.name ≠ svgName →
            call ⟨r, limit, stack, scope⟩ c = runShape ⟨r, limit, stack, scope⟩ shape c) ∧
          (shape.name = svgName →
            call ⟨r, limit, stack, scope⟩ c =
              (svgText scope c, ⟨r, limit, stack, scope⟩)) := by
  obtain ⟨base', hload', hnames, _⟩ := builtin_load
  obtain rfl : base' = base := Except.ok.inj (hload'.symm.trans hload)
  have hfree := Registry.contains_of_register hregister shape hshape
  have hfind := Registry.find?_of_register hregister shape hshape
  refine ⟨?_, Registry.find?_eq_none_of_contains hfree, hfind, ?_⟩
  · rw [← hnames, List.mem_map]
    rintro ⟨b, hb, hname⟩
    exact Registry.contains_eq_false.mp hfree b hb hname
  · intro limit stack scope c hroom hcallee
    constructor
    · intro hsvg
      exact call_eq_runShape hroom (hcallee ▸ hsvg) (hcallee ▸ hfind)
    · intro hsvg
      exact call_eq_svgText hroom (hcallee.trans hsvg)

/-! ## One declaration under two names -/

/-- `shape name(value) { }`: a shape that draws nothing. -/
def blankShape (name : String) : Shape :=
  ⟨name, [⟨svgArgument, none, .origin⟩], ⟨[], .origin⟩, .origin⟩

/-- `name(value: "x")`. -/
def drawX (name : String) : Call :=
  ⟨name, [⟨svgArgument, .string "x" .origin, .origin⟩], .origin⟩

/-- That shape, and a `main` that calls it. -/
def drawXProgram (name : String) : Program :=
  ⟨[blankShape name, ⟨mainName, [], ⟨[drawX name], .origin⟩, .origin⟩], .origin⟩

/-- Binding the argument and running the empty body gives no text. -/
theorem runShape_blankShape (s : Session) (name : String) :
    (s.runShape (blankShape name) (drawX name)).1 = .ok "" := by
  have hbind : bindArguments s.scope (blankShape name) (drawX name) =
      .ok [(svgArgument, .string "x")] := by
    rw [bindArguments_eq_bindAll]
    rfl
  rw [Session.runShape, hbind]
  rfl

theorem tag_draws_nothing : ∃ base r, LibraryText.builtin.load = .ok base ∧
    base.register (drawXProgram "tag") true = .ok r ∧
    r.find? "tag" = some (blankShape "tag") ∧
    (Session.call ⟨r, stackLimit, [mainName], []⟩ (drawX "tag")).1 = .ok "" := by
  obtain ⟨base, hload, hnames, _⟩ := builtin_load
  obtain ⟨r, hregister⟩ :=
    register_of_builtin (p := drawXProgram "tag") hnames rfl (by decide) rfl
  have hshape : blankShape "tag" ∈ (drawXProgram "tag").shapes := List.mem_cons_self
  obtain ⟨_, _, hfind, hcalls⟩ := Session.call_of_declared hload hregister hshape
  obtain ⟨hruns, _⟩ := hcalls stackLimit [mainName] [] (drawX "tag") (by decide) rfl
  refine ⟨base, r, hload, hregister, hfind, ?_⟩
  rw [hruns (by decide), runShape_blankShape]

/-- A program may declare `svg` and is not told that this is a builtin
name, but its declaration is not what a call of `svg` runs. -/
theorem svg_declaration_is_shadowed : ∃ base r, LibraryText.builtin.load = .ok base ∧
    base.register (drawXProgram svgName) true = .ok r ∧
    blankShape svgName ∈ (drawXProgram svgName).shapes ∧
    (Session.call ⟨r, stackLimit, [mainName], []⟩ (drawX svgName)).1 = .ok "x" ∧
      (Session.runShape ⟨r, stackLimit, [mainName], []⟩ (blankShape svgName)
        (drawX svgName)).1 = .ok "" := by
  obtain ⟨base, hload, hnames, _⟩ := builtin_load
  obtain ⟨r, hregister⟩ :=
    register_of_builtin (p := drawXProgram svgName) hnames rfl (by decide) rfl
  refine ⟨base, r, hload, hregister, List.mem_cons_self, ?_, runShape_blankShape _ svgName⟩
  have hcall := @Session.call_eq_svgText ⟨r, stackLimit, [mainName], []⟩ (drawX svgName)
    (show (1 : Int) < stackLimit by decide) rfl
  rw [hcall, svgText_eq_svg]
  rfl

end ShapeScript
