/-
ShapeScript.Proofs.Session.Simulation — runs that are alike.

Two runs are alike when their calls are, one by one. A simulation relates
the calls of one registry to those of another: related calls have one
name, whatever they do by themselves they do alike, and the shapes they
find have bodies of related calls. It is relative to what is to be the
same, and what may differ, in scopes, texts and failures.

`Simulation.call` says that related calls, in related scopes, then have
corresponding outcomes. So whoever changes a program and wants to know
what becomes of its runs has to look at single calls only; that a run is
made of calls within calls is dealt with here, by the induction of the
evaluator.
-/
import ShapeScript.Proofs.Registry
import ShapeScript.Proofs.Session.Outcomes

namespace ShapeScript

section Definitions

variable (E : EvalError → EvalError → Prop) (S : Scope → Scope → Prop) (T : String → String → Prop)
  (R : Call → Call → Prop)

/-- The calls bind their arguments alike, each for its own shape, and the
bodies of the shapes are related calls. -/
structure Call.Entering (c c' : Call) (shape shape' : Shape) : Prop where
  bind : ∀ scope scope', S scope scope' →
    Corresponds E S (Reference.bindAll scope shape c) (Reference.bindAll scope' shape' c')
  calls : List.Forall₂ R shape.body.calls shape'.body.calls

/-- Calls that `R` relates do the same in two registries, up to `E` for
failures, `S` for scopes and `T` for texts. -/
structure Simulation (r r' : Registry) : Prop where
  callee : ∀ c c', R c c' → c.callee = c'.callee
  error : ∀ c c', R c c' → ∀ fault, E ⟨fault, c.pos⟩ ⟨fault, c'.pos⟩
  svg : ∀ c c', R c c' → c.callee = svgName → ∀ scope scope', S scope scope' →
    Corresponds E T (Reference.svg scope c) (Reference.svg scope' c')
  shape : ∀ c c', R c c' → c.callee ≠ svgName →
    Option.Rel (Call.Entering E S R c c') (r.find? c.callee) (r'.find? c.callee)
  join : ∀ texts texts', List.Forall₂ T texts texts' → T (String.join texts) (String.join texts')

end Definitions

variable {E : EvalError → EvalError → Prop} {S : Scope → Scope → Prop}
  {T : String → String → Prop} {R : Call → Call → Prop} {r r' : Registry}

theorem join_eq (texts texts' : List String) (h : List.Forall₂ Eq texts texts') :
    String.join texts = String.join texts' := by
  rw [List.forall₂_eq_eq_eq] at h
  rw [h]

/-- In related registries it is enough that related shapes bind alike. -/
theorem entering_of_related {V : Shape → Shape → Prop} {c c' : Call}
    (hV : Registry.Registering E V) (h : r.Related V r')
    (hcalls : ∀ s s', V s s' → List.Forall₂ R s.body.calls s'.body.calls)
    (hbind : ∀ s s', r.find? c.callee = some s → V s s' → ∀ scope scope', S scope scope' →
      Corresponds E S (Reference.bindAll scope s c) (Reference.bindAll scope' s' c')) :
    Option.Rel (Call.Entering E S R c c') (r.find? c.callee) (r'.find? c.callee) := by
  have hfound := h.find? hV c.callee
  generalize hfind : r.find? c.callee = found at hfound ⊢
  generalize r'.find? c.callee = found' at hfound ⊢
  cases hfound with
  | none => exact .none
  | @some s s' hs => exact .some ⟨hbind s s' hfind hs, hcalls s s' hs⟩

namespace Simulation

/-- Related lists of calls, each of which has corresponding outcomes, have
corresponding texts. -/
theorem joined (h : Simulation E S T R r r') {f f' : Call → Except EvalError String}
    {cs cs' : List Call} (hcs : List.Forall₂ R cs cs')
    (hf : ∀ c c', R c c' → Corresponds E T (f c) (f' c')) :
    Corresponds E T ((cs.mapM f).map String.join) ((cs'.mapM f').map String.join) :=
  (Corresponds.mapM hcs hf).map h.join

/-- Related calls in related scopes have corresponding outcomes. -/
theorem call (h : Simulation E S T R r r') (limit : Int) (frames : List String)
    {scope scope' : Scope} (hscope : S scope scope') {c c' : Call} (hc : R c c') :
    Corresponds E T (Reference.call ⟨r, limit⟩ frames scope c)
      (Reference.call ⟨r', limit⟩ frames scope' c') := by
  induction frames, scope, c using Reference.call.induct ⟨r, limit⟩ generalizing scope' c' with
  | case1 frames scope c hfull =>
    have hfull := Reference.limit_lt_snoc.mp hfull
    rw [Reference.call_of_full hfull, Reference.call_of_full (g := ⟨r', limit⟩) hfull,
      ← h.callee c c' hc]
    exact .error (h.error c c' hc _)
  | case2 frames scope c hfits hsvg =>
    have hroom := Reference.not_limit_lt_snoc.mp hfits
    have hsvg' : c'.callee = svgName := (h.callee c c' hc).symm.trans hsvg
    rw [Reference.call_of_svg hroom hsvg, Reference.call_of_svg (g := ⟨r', limit⟩) hroom hsvg']
    exact h.svg c c' hc hsvg scope scope' hscope
  | case3 frames scope c hfits hsvg hfind =>
    have hroom := Reference.not_limit_lt_snoc.mp hfits
    have hname := h.callee c c' hc
    have hshape := h.shape c c' hc hsvg
    rw [show r.find? c.callee = none from hfind, hname] at hshape
    cases hfind' : r'.find? c'.callee with
    | none =>
      rw [Reference.call_of_undefined hroom hsvg hfind,
        Reference.call_of_undefined (g := ⟨r', limit⟩) hroom (hname ▸ hsvg) hfind', ← hname]
      exact .error (h.error c c' hc _)
    | some shape' =>
      rw [hfind'] at hshape
      cases hshape
  | case4 frames scope c hfits hsvg shape hfind ih =>
    have hroom := Reference.not_limit_lt_snoc.mp hfits
    have hname := h.callee c c' hc
    have hshape := h.shape c c' hc hsvg
    rw [show r.find? c.callee = some shape from hfind, hname] at hshape
    cases hfind' : r'.find? c'.callee with
    | none =>
      rw [hfind'] at hshape
      cases hshape
    | some shape' =>
      rw [hfind'] at hshape
      cases hshape with
      | some hshape =>
        rw [Reference.call_of_shape hroom hsvg hfind,
          Reference.call_of_shape (g := ⟨r', limit⟩) hroom (hname ▸ hsvg) hfind', ← hname]
        refine (hshape.bind scope scope' hscope).bind fun bound bound' hbound => ?_
        exact h.joined hshape.calls fun inner inner' hinner => ih bound inner hbound hinner

theorem block (h : Simulation E S T R r r') (limit : Int) (frames : List String)
    {scope scope' : Scope} (hscope : S scope scope') {b b' : Block}
    (hb : List.Forall₂ R b.calls b'.calls) :
    Corresponds E T (Reference.block ⟨r, limit⟩ frames scope b)
      (Reference.block ⟨r', limit⟩ frames scope' b') :=
  h.joined hb fun _ _ hc => h.call limit frames hscope hc

end Simulation

end ShapeScript
