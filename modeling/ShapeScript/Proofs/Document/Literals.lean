/-
ShapeScript.Proofs.Document.Literals — failures do not depend on literals.

What a program fails with is decided by its names and the types of its
values. `blank` replaces every number and every text of a program by a fixed
one, so programs that are equal when blanked differ in their literals only.
A program is compared with its blanked form: along the two runs scopes bind
the same names to values of the same types, and since no arithmetic fails,
the runs do the same steps up to the first failure. Two programs that are
blanked to the same fail with the same because of what they are both
compared with.
-/
import ShapeScript.Proofs.Alike.Evaluation
import ShapeScript.Proofs.Document
import ShapeScript.Proofs.Library.Builtin
import ShapeScript.Proofs.Session.Outcomes

namespace ShapeScript

/-! ## Blanked programs -/

/-- The expression with every literal replaced by one of its type. -/
def Expr.blank : Expr → Expr
  | .number _ span => .number 0 span
  | .string _ span => .string "" span
  | .name n span => .name n span
  | .binary left op right opPos span => .binary left.blank op right.blank opPos span
  | .negation operand opPos span => .negation operand.blank opPos span
  | .grouping inner span => .grouping inner.blank span

def Argument.blank (a : Argument) : Argument := { a with value := a.value.blank }

def Call.blank (c : Call) : Call := { c with arguments := c.arguments.map Argument.blank }

def Block.blank (b : Block) : Block := { b with calls := b.calls.map Call.blank }

def Parameter.blank (p : Parameter) : Parameter := { p with fallback := p.fallback.map Expr.blank }

def Shape.blank (s : Shape) : Shape :=
  { s with parameters := s.parameters.map Parameter.blank, body := s.body.blank }

def Program.blank (p : Program) : Program := { p with shapes := p.shapes.map Shape.blank }

def Registry.blank (r : Registry) : Registry := ⟨r.shapes.map Shape.blank⟩

@[simp] theorem Expr.pos_blank (e : Expr) : e.blank.pos = e.pos := by
  induction e with
  | grouping inner span ih => exact ih
  | _ => rfl

/-! ## Outcomes -/

/-- What an outcome fails with, if it does. -/
def failure? {ε α : Type} : Except ε α → Option ε
  | .ok _ => none
  | .error e => some e

theorem failure?_map {ε α β : Type} (f : α → β) (x : Except ε α) :
    failure? (x.map f) = failure? x := by
  cases x <;> rfl

theorem failure?_mapError {ε ε' α : Type} (f : ε → ε') (x : Except ε α) :
    failure? (x.mapError f) = (failure? x).map f := by
  cases x <;> rfl

/-- Values of the same type. -/
abbrev SameType (v v' : Value) : Prop := v.type = v'.type

theorem sameType_number (x x' : Float) : SameType (.number x) (.number x') := rfl

theorem sameType_string (s s' : String) : SameType (.string s) (.string s') := rfl

/-- The scopes bind the same names to values of the same types. -/
def Scope.SameTypes (scope scope' : Scope) : Prop :=
  ∀ n, (scope.find? n).map Value.type = (scope'.find? n).map Value.type

theorem Scope.SameTypes.refl (scope : Scope) : scope.SameTypes scope := fun _ => rfl

theorem Scope.SameTypes.bind {scope scope' : Scope} {v v' : Value} (h : scope.SameTypes scope')
    (hv : SameType v v') (name : String) :
    (scope.bind name v).SameTypes (scope'.bind name v') := by
  intro n
  rw [find?_bind, find?_bind]
  by_cases hn : n = name
  · rw [if_pos hn, if_pos hn]
    exact congrArg some hv
  · rw [if_neg hn, if_neg hn]
    exact h n

theorem forall₂_map_iff {α β : Type} {f : α → β} {as : List α} {bs : List β} :
    List.Forall₂ (fun a b => f a = b) as bs ↔ as.map f = bs := by
  rw [← List.forall₂_map_left_iff, List.forall₂_eq_eq_eq]

/-- Both outcomes are values, or both are the same error. -/
abbrev SameFailure {α : Type} (x x' : Except EvalError α) : Prop :=
  Agree Eq (fun _ _ => True) x x'

/-- Outcomes that agree are equal up to what their values have in common. -/
theorem Agree.map_eq {α β : Type} {V : α → α → Prop} {x x' : Except EvalError α} {f : α → β}
    (h : Agree Eq V x x') (hf : ∀ a a', V a a' → f a = f a') : x.map f = x'.map f := by
  cases h with
  | ok hv => exact congrArg Except.ok (hf _ _ hv)
  | @error e e' hfault hpos =>
    obtain ⟨fault, pos⟩ := e
    obtain ⟨fault', pos'⟩ := e'
    cases hfault
    cases hpos
    rfl

theorem SameFailure.failure?_eq {α : Type} {x x' : Except EvalError α} (h : SameFailure x x') :
    failure? x = failure? x' := by
  rw [← failure?_map (fun _ => ()) x, ← failure?_map (fun _ => ()) x',
    Agree.map_eq h fun _ _ _ => rfl]

/-! ## Expressions -/

theorem numberOf_sameType {v v' : Value} {e e' : Expr} (hv : SameType v v')
    (hpos : e.pos = e'.pos) : SameFailure (numberOf v e) (numberOf v' e') := by
  cases v <;> cases v' <;> cases hv
  · exact .ok trivial
  · exact .error rfl hpos

/-- `plus` takes all values, and the type of the result is that of its
operands. -/
theorem applyBinary_plus (left right : Expr) (lhs rhs : Value) :
    ∃ v, applyBinary .plus left right lhs rhs = .ok v ∧
      v.type = if lhs.type = .number ∧ rhs.type = .number then .number else .string := by
  cases lhs <;> cases rhs <;> exact ⟨_, rfl, rfl⟩

/-- Any operator but plus asks for numbers, the left operand first. -/
theorem applyBinary_of_ne_plus {op : BinaryOp} (hop : op ≠ .plus) (left right : Expr)
    (lhs rhs : Value) :
    applyBinary op left right lhs rhs = do
      let x ← numberOf lhs left
      let y ← numberOf rhs right
      return .number (op.result x y) := by
  cases op with
  | plus => exact absurd rfl hop
  | _ => cases lhs <;> cases rhs <;> rfl

theorem applyBinary_sameType {lhs lhs' rhs rhs' : Value} (op : BinaryOp) (left right : Expr)
    (hlhs : SameType lhs lhs') (hrhs : SameType rhs rhs') :
    Agree Eq SameType (applyBinary op left right lhs rhs)
      (applyBinary op left.blank right.blank lhs' rhs') := by
  by_cases hop : op = .plus
  · subst hop
    obtain ⟨v, hv, htype⟩ := applyBinary_plus left right lhs rhs
    obtain ⟨v', hv', htype'⟩ := applyBinary_plus left.blank right.blank lhs' rhs'
    rw [hv, hv']
    refine .ok ?_
    rw [SameType, htype, htype', hlhs, hrhs]
  · rw [applyBinary_of_ne_plus hop, applyBinary_of_ne_plus hop]
    refine (numberOf_sameType hlhs left.pos_blank.symm).bind fun x x' _ => ?_
    exact (numberOf_sameType hrhs right.pos_blank.symm).bind fun y y' _ =>
      .ok (sameType_number _ _)

namespace Reference

variable {scope scope' bound bound' : Scope}

/-- Blanking an expression keeps the type of its value. -/
theorem value_blank (h : scope.SameTypes scope') (e : Expr) :
    Agree Eq SameType (value scope e) (value scope' e.blank) := by
  induction e with
  | number x span => exact .ok (sameType_number _ _)
  | string s span => exact .ok (sameType_string _ _)
  | name n span =>
    have htypes := h n
    simp only [Expr.blank, value]
    cases hfind : scope.find? n with
    | none =>
      rw [hfind, Option.map_none, eq_comm, Option.map_eq_none_iff] at htypes
      rw [htypes]
      exact .error rfl rfl
    | some v =>
      rw [hfind, Option.map_some, eq_comm, Option.map_eq_some_iff] at htypes
      obtain ⟨v', hfind', htype⟩ := htypes
      rw [hfind']
      exact .ok htype.symm
  | negation operand opPos span ih =>
    simp only [Expr.blank, value]
    refine ih.bind fun v v' hv => ?_
    exact (numberOf_sameType hv operand.pos_blank.symm).bind fun x x' _ =>
      .ok (sameType_number _ _)
  | grouping inner span ih => exact ih
  | binary left op right opPos span ihl ihr =>
    simp only [Expr.blank, value]
    refine ihl.bind fun lhs lhs' hlhs => ihr.bind fun rhs rhs' hrhs => ?_
    exact applyBinary_sameType op left right hlhs hrhs

/-! ## Arguments -/

theorem chosenExpr_blank (arguments : List Argument) (p : Parameter) :
    chosenExpr (arguments.map Argument.blank) p.blank =
      (chosenExpr arguments p).map Expr.blank := by
  have hfind : (arguments.map Argument.blank).find? (·.name == p.blank.name) =
      (arguments.find? (·.name == p.name)).map Argument.blank := List.find?_map
  unfold chosenExpr
  rw [hfind]
  cases arguments.find? (·.name == p.name) <;> rfl

/-- Which arguments there may be is about names. -/
theorem checkArguments_blank (shape : Shape) (arguments : List Argument) (seen : List String) :
    checkArguments shape.blank (arguments.map Argument.blank) seen =
      checkArguments shape arguments seen := by
  induction arguments generalizing seen with
  | nil => rfl
  | cons a rest ih =>
    have hdeclared : shape.blank.parameters.any (·.name == a.name) =
        shape.parameters.any (·.name == a.name) := List.any_map
    rw [List.map_cons, checkArguments, checkArguments]
    simp only [Argument.blank, ih, hdeclared]
    rfl

theorem bindParameter_blank (h : scope.SameTypes scope') (hbound : bound.SameTypes bound')
    (shape : Shape) (c : Call) (p : Parameter) :
    Agree Eq Scope.SameTypes (bindParameter scope shape c bound p)
      (bindParameter scope' shape.blank c.blank bound' p.blank) := by
  have hchosen := chosenExpr_blank c.arguments p
  unfold bindParameter
  rw [show c.blank.arguments = c.arguments.map Argument.blank from rfl, hchosen]
  cases chosenExpr c.arguments p with
  | none => exact .error rfl rfl
  | some e => exact (value_blank h e).bind fun v v' hv => .ok (hbound.bind hv p.name)

/-- A call binds values of the same types in both runs. -/
theorem bindAll_blank (h : scope.SameTypes scope') (shape : Shape) (c : Call) :
    Agree Eq Scope.SameTypes (bindAll scope shape c) (bindAll scope' shape.blank c.blank) := by
  have hcheck : checkArguments shape.blank c.blank.arguments [] =
      checkArguments shape c.arguments [] := checkArguments_blank shape c.arguments []
  rw [bindAll, bindAll, hcheck]
  cases checkArguments shape c.arguments [] with
  | error e => exact .error rfl rfl
  | ok u =>
    refine Agree.foldlM (forall₂_map_iff.mpr rfl) ?_
      (Scope.SameTypes.refl [])
    rintro bound bound' p _ hbound rfl
    exact bindParameter_blank h hbound shape c p

/-- A text is inserted, whatever it is, and a number is refused. -/
theorem svg_blank (h : scope.SameTypes scope') (c : Call) :
    SameFailure (svg scope c) (svg scope' c.blank) := by
  obtain ⟨callee, arguments, span⟩ := c
  cases arguments with
  | nil => exact .error rfl rfl
  | cons a rest =>
    cases rest with
    | cons b more =>
      refine .error ?_ rfl
      simp [Call.blank]
    | nil =>
      simp only [svg, Call.blank, List.map_cons, List.map_nil, Argument.blank]
      split
      · refine (value_blank h a.value).bind fun v v' hv => ?_
        cases v <;> cases v' <;> cases hv
        · exact .error rfl a.value.pos_blank.symm
        · exact .ok trivial
      · exact .error rfl rfl

end Reference

/-! ## Registries -/

namespace Registry

theorem find?_blank (r : Registry) (name : String) :
    r.blank.find? name = (r.find? name).map Shape.blank :=
  List.find?_map

theorem related_blank {r r' : Registry} :
    r.Related (fun s s' => s.blank = s') r' ↔ r.blank = r' := by
  rw [Related, forall₂_map_iff, blank, mk.injEq]

theorem registering_blank {E : EvalError → EvalError → Prop} (hE : ∀ e, E e e) :
    Registering E fun s s' => s.blank = s' where
  name := by
    rintro s _ rfl
    rfl
  parameters := by
    rintro s _ rfl
    simp [Shape.blank]
  error := by
    rintro s _ rfl fault
    exact hE _

/-- Registering does not look into expressions. -/
theorem register_blank (r : Registry) (p : Program) (requireMain : Bool) :
    r.blank.register p.blank requireMain = (r.register p requireMain).map blank := by
  have hregister : Corresponds Eq (Related fun s s' => s.blank = s') (r.register p requireMain)
      (r.blank.register p.blank requireMain) :=
    register_related (registering_blank fun _ => rfl) (forall₂_map_iff.mpr rfl)
      (related_blank.mpr rfl) fun _ => rfl
  obtain ⟨r', _, hreg, hreg', hr⟩ | ⟨e, _, hreg, hreg', rfl⟩ := hregister.outcomes
  · rw [hreg, hreg', ← related_blank.mp hr]
    rfl
  · rw [hreg, hreg']
    rfl

end Registry

/-! ## Calls -/

/-- A call and its blanked form do the same, up to what values there are. -/
theorem simulation_blank (r : Registry) :
    Simulation (SameFault Eq) Scope.SameTypes (fun _ _ => True) (fun c c' => c.blank = c') r
      r.blank where
  callee := by
    rintro c _ rfl
    rfl
  error := by
    rintro c _ rfl fault
    exact ⟨rfl, rfl⟩
  svg := by
    rintro c _ rfl _ scope scope' hscope
    exact agree_iff_corresponds.mp (Reference.svg_blank hscope c)
  shape := by
    rintro c _ rfl _
    refine entering_of_related (Registry.registering_blank fun _ => ⟨rfl, rfl⟩)
      (Registry.related_blank.mpr rfl) ?_ ?_
    · rintro s _ rfl
      exact forall₂_map_iff.mpr rfl
    · rintro s _ _ rfl scope scope' hscope
      exact agree_iff_corresponds.mp (Reference.bindAll_blank hscope s c)
  join _ _ _ := trivial

theorem Reference.block_blank (r : Registry) (limit : Int) (frames : List String)
    {scope scope' : Scope} (h : scope.SameTypes scope') (b : Block) :
    SameFailure (block ⟨r, limit⟩ frames scope b)
      (block ⟨r.blank, limit⟩ frames scope' b.blank) :=
  agree_iff_corresponds.mpr <|
    (simulation_blank r).block limit frames h (forall₂_map_iff.mpr rfl)

/-! ## Programs -/

theorem Registry.runMain_blank (r : Registry) : failure? r.blank.runMain = failure? r.runMain := by
  have hmain := r.find?_blank mainName
  cases hfind : r.find? mainName with
  | none =>
    rw [hfind, Option.map_none] at hmain
    simp only [runMain, hfind, hmain]
  | some m =>
    rw [hfind, Option.map_some] at hmain
    have hblock := Reference.block_blank r stackLimit [] (Scope.SameTypes.refl []) m.body
    simp only [runMain, hfind, hmain, Session.runBlock_eq, failure?_mapError, session]
    exact congrArg _ (SameFailure.failure?_eq hblock).symm

/-- The failure of a program can be read off its blanked form. -/
theorem failure?_document (p : Program) (library : LibraryText) :
    failure? (p.document library) =
      match library.load with
      | .error f => some f
      | .ok base =>
        match base.blank.register p.blank true with
        | .error e => some (.problem (.eval e))
        | .ok r => failure? r.runMain := by
  unfold Program.document
  cases library.load with
  | error f => rfl
  | ok base =>
    simp only [Registry.register_blank]
    cases base.register p true with
    | error e => rfl
    | ok r => rw [failure?_map, ← r.runMain_blank]; rfl

/-- Failures do not depend on literals. Programs that differ in the numbers
and texts of literals only both have a document, or fail with the same fault
at the same position. Expressions that differ so, in scopes that agree on the
types of values, both have a value of the same type, or fail alike. An
expression fails with a problem of evaluation and nothing else; no error of
arithmetic ends it, since on every two numbers each operator gives what
floating-point arithmetic does, and every value has a display text. -/
theorem failure_ignores_literals :
    (∀ (library : LibraryText) (p p' : Program), p.blank = p'.blank →
      failure? (p.document library) = failure? (p'.document library)) ∧
    (∀ (scope scope' : Scope) (e e' : Expr), scope.SameTypes scope' → e.blank = e'.blank →
      (e.run scope).map Value.type = (e'.run scope').map Value.type) ∧
    (∀ (scope : Scope) (e : Expr) (f : Failure), e.run scope = .error f →
      ∃ err, f = .problem (.eval err)) ∧
    (∀ (op : BinaryOp) (x y : Float), op.compute x y = .ok (op.result x y)) ∧
    ∀ v : Value, ∃ text, v.text = .ok text := by
  refine ⟨?_, ?_, ?_, BinaryOp.compute_eq, fun v => ⟨_, v.text_eq⟩⟩
  · intro library p p' h
    rw [failure?_document, failure?_document, h]
  · intro scope scope' e e' h he
    have hleft := (Reference.value_blank h e).map_eq fun _ _ hv => hv
    have hright := (Reference.value_blank (Scope.SameTypes.refl scope') e').map_eq fun _ _ hv => hv
    rw [run_eq_value, run_eq_value, ← mapError_map, ← mapError_map, hleft, hright, he]
  · intro scope e f h
    rw [run_eq_value, mapError_eq_error] at h
    obtain ⟨err, _, rfl⟩ := h
    exact ⟨err, rfl⟩

/-- `shape main() { svg(value: "label" + (x / y)) }` with those literals. -/
def quotientMain (label : String) (x y : Float) : Shape :=
  ⟨mainName, [], ⟨[⟨svgName, [⟨svgArgument,
    .binary (.string label .origin) .plus
      (.grouping (.binary (.number x .origin) .divide (.number y .origin) .origin .origin) .origin)
      .origin .origin,
    .origin⟩], .origin⟩], .origin⟩, .origin⟩

def quotient (label : String) (x y : Float) : Program := ⟨[quotientMain label x y], .origin⟩

theorem blank_quotient (label label' : String) (x x' y y' : Float) :
    (quotient label x y).blank = (quotient label' x' y').blank := rfl

theorem failure?_quotient (label : String) (x y : Float) :
    failure? ((quotient label x y).document .builtin) = none := by
  obtain ⟨base, hload, hnames, _⟩ := builtin_load
  have hroom : ([] : List String).length < stackLimit := by decide
  obtain ⟨r, hreg⟩ : ∃ r, base.register (quotient label x y) true = .ok r :=
    register_of_builtin hnames (show _ = [mainName] from rfl) (by decide) rfl
  obtain ⟨m, hm, _, hdoc⟩ := document_of_register hload hreg
  obtain rfl := List.mem_singleton.mp hm
  rw [hdoc, failure?_map, failure?_mapError, Reference.block_singleton rfl,
    Reference.call_of_svg hroom rfl]
  rfl

/-- That a division of one by zero does not fail says the same of a division
of zero by zero. -/
theorem quotient_failure_ignores_literals :
    (quotient "a" 1 0).blank = (quotient "b" 0 0).blank ∧
      failure? ((quotient "a" 1 0).document .builtin) = none ∧
      failure? ((quotient "b" 0 0).document .builtin) = none := by
  have hblank := blank_quotient "a" "b" 1 0 0 0
  have hfailure := failure?_quotient "a" 1 0
  refine ⟨hblank, hfailure, ?_⟩
  rw [← failure_ignores_literals.1 .builtin _ _ hblank]
  exact hfailure

end ShapeScript
