/-
ShapeScript.Proofs.Alike.Evaluation — alike trees are evaluated alike.

An evaluator reports positions and does nothing else with them: alike
expressions have the same value in the same scope or fail with the same
fault at related positions, and so it goes on over calls of `svg`, the
binding of parameters and the registration of programs. So alike calls in
alike registries simulate one another, and what that says of their runs is
said once for all simulations.
-/
import ShapeScript.Proofs.Alike
import ShapeScript.Proofs.Registry
import ShapeScript.Proofs.Session.Simulation

namespace ShapeScript

variable {Q : Position → Position → Prop}

/-! ## Outcomes in sequence -/

/-- The same fault, at related positions. -/
def SameFault (Q : Position → Position → Prop) {φ : Type} (e e' : Located φ) : Prop :=
  e.fault = e'.fault ∧ Q e.pos e'.pos

section Agree

variable {φ α β : Type} {V : α → α → Prop} {W : β → β → Prop}

/-- Agreeing is a case of corresponding, so what is known of corresponding
outcomes holds of agreeing ones. -/
theorem agree_iff_corresponds {x x' : Except (Located φ) α} :
    Agree Q V x x' ↔ Corresponds (SameFault Q) V x x' := by
  constructor
  · rintro (hv | ⟨hfault, hpos⟩)
    · exact .ok hv
    · exact .error ⟨hfault, hpos⟩
  · rintro (hv | ⟨hfault, hpos⟩)
    · exact .ok hv
    · exact .error hfault hpos

theorem Agree.bind {x x' : Except (Located φ) α} {f f' : α → Except (Located φ) β}
    (h : Agree Q V x x') (hf : ∀ a a', V a a' → Agree Q W (f a) (f' a')) :
    Agree Q W (x >>= f) (x' >>= f') := by
  simp only [agree_iff_corresponds] at *
  exact h.bind hf

theorem Agree.foldlM {f f' : β → α → Except (Located φ) β} {as as' : List α} {b b' : β}
    (h : List.Forall₂ V as as')
    (hf : ∀ b b' a a', W b b' → V a a' → Agree Q W (f b a) (f' b' a')) (hb : W b b') :
    Agree Q W (as.foldlM f b) (as'.foldlM f' b') := by
  simp only [agree_iff_corresponds] at *
  exact Corresponds.foldlM h hf hb

end Agree

/-! ## Expressions -/

theorem numberOf_alike {e e' : Expr} (he : e.Alike Q e') (v : Value) :
    Agree Q Eq (numberOf v e) (numberOf v e') := by
  cases v with
  | number x => exact .ok rfl
  | string s => exact .error rfl he.pos

/-- Operands are only blamed by their positions. -/
theorem applyBinary_alike {left left' right right' : Expr} (hleft : left.Alike Q left')
    (hright : right.Alike Q right') (op : BinaryOp) (lhs rhs : Value) :
    Agree Q Eq (applyBinary op left right lhs rhs) (applyBinary op left' right' lhs rhs) := by
  unfold applyBinary
  split
  · exact .ok rfl
  · exact .ok rfl
  · cases lhs with
    | string s => exact .error rfl hleft.pos
    | number x =>
      cases rhs with
      | string s => exact .error rfl hright.pos
      | number y => exact .ok rfl

namespace Reference

/-- Values have no positions: alike expressions have equal ones. -/
theorem value_alike {e e' : Expr} (he : e.Alike Q e') (scope : Scope) :
    Agree Q Eq (value scope e) (value scope e') := by
  induction he with
  | number => exact .ok rfl
  | string => exact .ok rfl
  | name hpos =>
    rw [value, value]
    split
    · exact .ok rfl
    · exact .error rfl hpos
  | negation hoperand _ ih =>
    rw [value, value]
    refine ih.bind fun v v' hv => ?_
    subst hv
    refine (numberOf_alike hoperand v).bind fun x x' hx => ?_
    subst hx
    exact .ok rfl
  | grouping _ ih => exact ih
  | binary hleft hright _ ihl ihr =>
    rw [value, value]
    refine ihl.bind fun lhs lhs' hlhs => ihr.bind fun rhs rhs' hrhs => ?_
    subst hlhs hrhs
    exact applyBinary_alike hleft hright _ lhs rhs

/-! ## Arguments -/

/-- For a parameter alike expressions are chosen, from the arguments or from
the default. -/
theorem chosenExpr_alike {arguments arguments' : List Argument} {p p' : Parameter}
    (harguments : List.Forall₂ (Argument.Alike Q) arguments arguments') (hp : p.Alike Q p') :
    Option.Rel (Expr.Alike Q) (chosenExpr arguments p) (chosenExpr arguments' p') :=
  chosenExpr_related (harguments.imp fun _ _ ha => ⟨ha.name, ha.value⟩) hp.name hp.fallback

theorem checkArguments_alike {shape shape' : Shape} {arguments arguments' : List Argument}
    (hshape : shape.Alike Q shape')
    (harguments : List.Forall₂ (Argument.Alike Q) arguments arguments') (seen : List String) :
    Agree Q Eq (checkArguments shape arguments seen)
      (checkArguments shape' arguments' seen) :=
  agree_iff_corresponds.mpr <|
    checkArguments_related hshape.name (hshape.parameters.imp fun _ _ hp => hp.name)
      (harguments.imp fun _ _ ha => ⟨ha.name, fun _ => ⟨rfl, ha.pos⟩⟩) seen

variable {shape shape' : Shape} {c c' : Call}

theorem bindParameter_alike {p p' : Parameter} (hshape : shape.Alike Q shape')
    (hc : c.Alike Q c') (hp : p.Alike Q p') (scope bound : Scope) :
    Agree Q Eq (bindParameter scope shape c bound p)
      (bindParameter scope shape' c' bound p') := by
  have hchosen := chosenExpr_alike hc.arguments hp
  unfold bindParameter
  generalize chosenExpr c.arguments p = x at hchosen
  generalize chosenExpr c'.arguments p' = x' at hchosen
  cases hchosen with
  | none =>
    rw [← hshape.name, ← hp.name]
    exact .error rfl hc.pos
  | some he =>
    refine (value_alike he scope).bind fun v v' hv => ?_
    subst hv
    rw [← hp.name]
    exact .ok rfl

/-- Alike calls bind the same scope. -/
theorem bindAll_alike (hshape : shape.Alike Q shape') (hc : c.Alike Q c') (scope : Scope) :
    Agree Q Eq (bindAll scope shape c) (bindAll scope shape' c') :=
  (checkArguments_alike hshape hc.arguments []).bind fun _ _ _ =>
    Agree.foldlM hshape.parameters (fun bound _ _ _ hbound hp =>
      hbound ▸ bindParameter_alike hshape hc hp scope bound) rfl

theorem svg_alike (hc : c.Alike Q c') (scope : Scope) :
    Agree Q Eq (svg scope c) (svg scope c') := by
  obtain ⟨callee, arguments, span⟩ := c
  obtain ⟨callee', arguments', span'⟩ := c'
  obtain ⟨rfl, harguments, hpos⟩ := hc
  cases harguments with
  | nil => exact .error rfl hpos
  | @cons a a' rest rest' ha hrest =>
    cases hrest with
    | nil =>
      simp only [svg]
      rw [← ha.name]
      split
      · refine (value_alike ha.value scope).bind fun v v' hv => ?_
        subst hv
        cases v with
        | number x => exact .error rfl ha.value.pos
        | string s => exact .ok rfl
      · exact .error rfl hpos
    | @cons b b' more more' _ hmore =>
      simp only [svg, List.length_cons, hmore.length_eq]
      exact .error rfl hpos

end Reference

/-! ## Registries -/

/-- Alike declarations in the same order. -/
def Registry.Alike (Q : Position → Position → Prop) (r r' : Registry) : Prop :=
  List.Forall₂ (Shape.Alike Q) r.shapes r'.shapes

section Registries

variable {r r' : Registry}

theorem registering_alike : Registry.Registering (SameFault Q) (Shape.Alike Q) where
  name _ _ hs := hs.name
  parameters _ _ hs := by
    rw [Bool.eq_iff_iff, List.isEmpty_iff_length_eq_zero, List.isEmpty_iff_length_eq_zero,
      hs.parameters.length_eq]
  error _ _ hs _ := ⟨rfl, hs.pos⟩

theorem Registry.Alike.find? (h : r.Alike Q r') (name : String) :
    Option.Rel (Shape.Alike Q) (r.find? name) (r'.find? name) :=
  Related.find? registering_alike h name

/-- A program is refused for the same reason, or the registries stay alike. -/
theorem register_alike {p p' : Program} (hp : p.Alike Q p') (h : r.Alike Q r')
    (requireMain : Bool) :
    Agree Q (Registry.Alike Q) (r.register p requireMain) (r'.register p' requireMain) :=
  agree_iff_corresponds.mpr <|
    Registry.register_related registering_alike hp.shapes h fun _ => ⟨rfl, hp.finish⟩

end Registries

/-! ## Calls -/

/-- Alike calls do the same, up to where they fail, in alike registries. -/
theorem simulation_alike {r r' : Registry} (h : r.Alike Q r') :
    Simulation (SameFault Q) Eq Eq (Call.Alike Q) r r' where
  callee _ _ hc := hc.callee
  error _ _ hc _ := ⟨rfl, hc.pos⟩
  svg := by
    rintro c c' hc _ scope _ rfl
    exact agree_iff_corresponds.mp (Reference.svg_alike hc scope)
  shape c c' hc _ := by
    refine entering_of_related registering_alike h (fun _ _ hs => hs.body.calls) ?_
    rintro s s' _ hs scope _ rfl
    exact agree_iff_corresponds.mp (Reference.bindAll_alike hs hc scope)
  join := join_eq

end ShapeScript
