/-
ShapeScript.Proofs.Document.Groupings — parentheses around expressions.

A grouping has the outcome of what it holds, and diagnostics about it point
where those about its content do. So an expression and the expression with
groupings put around parts of it, or taken away from them, are
interchangeable: in every scope they have the same value or fail with the
same fault at the same position, and an operator that is applied to them
reports them at the same position.

`document_of_interchangeable` says that this is all a program wants to know
of its expressions. Programs that differ in interchangeable expressions
bind their arguments alike, call by call, and have the same document or the
same problem. What is left to show of groupings, `Regrouped.interchangeable`,
is an induction over one expression.
-/
import ShapeScript.Proofs.Document
import ShapeScript.Proofs.Library.Builtin
import ShapeScript.Proofs.Session.Simulation

namespace ShapeScript

/-! ## Definitions -/

/-- The expressions differ in groupings: around any part of the one, the
other may have groupings more or less. All else is the same, positions
included. -/
inductive Expr.Regrouped : Expr → Expr → Prop
  | refl (e : Expr) : Expr.Regrouped e e
  | wrap {e e' : Expr} (h : Expr.Regrouped e e') (span : Span) :
      Expr.Regrouped e (.grouping e' span)
  | unwrap {e e' : Expr} (h : Expr.Regrouped e e') (span : Span) :
      Expr.Regrouped (.grouping e span) e'
  | negation {operand operand' : Expr} (h : Expr.Regrouped operand operand') (opPos : Position)
      (span : Span) :
      Expr.Regrouped (.negation operand opPos span) (.negation operand' opPos span)
  | binary {left left' right right' : Expr} (hleft : Expr.Regrouped left left')
      (hright : Expr.Regrouped right right') (op : BinaryOp) (opPos : Position) (span : Span) :
      Expr.Regrouped (.binary left op right opPos span) (.binary left' op right' opPos span)

/-- Nothing tells the expressions apart: not their outcome in any scope, and
not the position of diagnostics about them. -/
structure Expr.Interchangeable (e e' : Expr) : Prop where
  pos : e.pos = e'.pos
  evaluate : ∀ scope, e.evaluate scope = e'.evaluate scope

section Varied

variable (V : Expr → Expr → Prop)

/-- Arguments that differ in their expressions, which are related by `V`;
and so on for what is made of expressions. -/
structure Argument.Varied (a a' : Argument) : Prop where
  name : a.name = a'.name
  value : V a.value a'.value
  span : a.span = a'.span

structure Call.Varied (c c' : Call) : Prop where
  callee : c.callee = c'.callee
  arguments : List.Forall₂ (Argument.Varied V) c.arguments c'.arguments
  span : c.span = c'.span

structure Block.Varied (b b' : Block) : Prop where
  calls : List.Forall₂ (Call.Varied V) b.calls b'.calls
  span : b.span = b'.span

structure Parameter.Varied (p p' : Parameter) : Prop where
  name : p.name = p'.name
  fallback : Option.Rel V p.fallback p'.fallback
  span : p.span = p'.span

structure Shape.Varied (s s' : Shape) : Prop where
  name : s.name = s'.name
  parameters : List.Forall₂ (Parameter.Varied V) s.parameters s'.parameters
  body : Block.Varied V s.body s'.body
  span : s.span = s'.span

structure Program.Varied (p p' : Program) : Prop where
  shapes : List.Forall₂ (Shape.Varied V) p.shapes p'.shapes
  finish : p.finish = p'.finish

end Varied

/-! ## Interchangeable expressions -/

namespace Expr.Interchangeable

variable {e e' left left' right right' : Expr}

theorem refl (e : Expr) : e.Interchangeable e := ⟨rfl, fun _ => rfl⟩

theorem symm (h : e.Interchangeable e') : e'.Interchangeable e :=
  ⟨h.pos.symm, fun scope => (h.evaluate scope).symm⟩

theorem trans {e'' : Expr} (h : e.Interchangeable e') (h' : e'.Interchangeable e'') :
    e.Interchangeable e'' :=
  ⟨h.pos.trans h'.pos, fun scope => (h.evaluate scope).trans (h'.evaluate scope)⟩

theorem value_eq (h : e.Interchangeable e') (scope : Scope) :
    Reference.value scope e = Reference.value scope e' := by
  rw [← evaluate_eq_value, ← evaluate_eq_value, h.evaluate scope]

theorem numberOf_eq (h : e.Interchangeable e') (v : Value) : numberOf v e = numberOf v e' := by
  cases v with
  | number x => rfl
  | string s => simp only [numberOf, h.pos]

theorem applyBinary_eq (hleft : left.Interchangeable left') (hright : right.Interchangeable right')
    (op : BinaryOp) (lhs rhs : Value) :
    applyBinary op left right lhs rhs = applyBinary op left' right' lhs rhs := by
  simp only [applyBinary, hleft.numberOf_eq, hright.numberOf_eq]

/-- A grouping may stand for what it holds. -/
theorem grouping (e : Expr) (span : Span) : e.Interchangeable (.grouping e span) := by
  refine ⟨rfl, fun scope => ?_⟩
  simp only [evaluate_eq_value, Reference.value]

/-- Operands may be interchanged. -/
theorem negation (h : e.Interchangeable e') (opPos : Position) (span : Span) :
    Interchangeable (.negation e opPos span) (.negation e' opPos span) := by
  refine ⟨rfl, fun scope => ?_⟩
  simp only [evaluate_eq_value, Reference.value, h.value_eq, h.numberOf_eq]

theorem binary (hleft : left.Interchangeable left') (hright : right.Interchangeable right')
    (op : BinaryOp) (opPos : Position) (span : Span) :
    Interchangeable (.binary left op right opPos span) (.binary left' op right' opPos span) := by
  refine ⟨rfl, fun scope => ?_⟩
  simp only [evaluate_eq_value, Reference.value, hleft.value_eq, hright.value_eq,
    hleft.applyBinary_eq hright]

end Expr.Interchangeable

/-- Groupings make no difference to an expression, wherever they are. -/
theorem Expr.Regrouped.interchangeable {e e' : Expr} (h : e.Regrouped e') :
    e.Interchangeable e' := by
  induction h with
  | refl e => exact .refl e
  | wrap _ span ih => exact ih.trans (.grouping _ span)
  | unwrap _ span ih => exact (Interchangeable.grouping _ span).symm.trans ih
  | negation _ opPos span ih => exact ih.negation opPos span
  | binary _ _ op opPos span ihleft ihright => exact ihleft.binary ihright op opPos span

/-! ## Programs of related expressions -/

section Varying

variable {V W : Expr → Expr → Prop}

theorem Argument.Varied.imp {a a' : Argument} (hV : ∀ e e', V e e' → W e e')
    (h : a.Varied V a') : a.Varied W a' :=
  ⟨h.name, hV _ _ h.value, h.span⟩

theorem Call.Varied.imp {c c' : Call} (hV : ∀ e e', V e e' → W e e') (h : c.Varied V c') :
    c.Varied W c' :=
  ⟨h.callee, h.arguments.imp fun _ _ ha => ha.imp hV, h.span⟩

theorem Parameter.Varied.imp {p p' : Parameter} (hV : ∀ e e', V e e' → W e e')
    (h : p.Varied V p') : p.Varied W p' := by
  obtain ⟨hname, hfallback, hspan⟩ := h
  refine ⟨hname, ?_, hspan⟩
  generalize p.fallback = x at hfallback
  generalize p'.fallback = x' at hfallback
  cases hfallback with
  | none => exact .none
  | some he => exact .some (hV _ _ he)

theorem Shape.Varied.imp {s s' : Shape} (hV : ∀ e e', V e e' → W e e') (h : s.Varied V s') :
    s.Varied W s' :=
  ⟨h.name, h.parameters.imp fun _ _ hp => hp.imp hV,
    ⟨h.body.calls.imp fun _ _ hc => hc.imp hV, h.body.span⟩, h.span⟩

theorem Program.Varied.imp {p p' : Program} (hV : ∀ e e', V e e' → W e e') (h : p.Varied V p') :
    p.Varied W p' :=
  ⟨h.shapes.imp fun _ _ hs => hs.imp hV, h.finish⟩

theorem Shape.varied_refl (hV : ∀ e, V e e) (s : Shape) : s.Varied V s := by
  have hargument : ∀ a : Argument, a.Varied V a := fun a => ⟨rfl, hV _, rfl⟩
  have hcall : ∀ c : Call, c.Varied V c :=
    fun c => ⟨rfl, List.forall₂_same.mpr fun a _ => hargument a, rfl⟩
  have hparameter : ∀ p : Parameter, p.Varied V p := by
    intro p
    refine ⟨rfl, ?_, rfl⟩
    cases p.fallback with
    | none => exact .none
    | some e => exact .some (hV e)
  exact ⟨rfl, List.forall₂_same.mpr fun p _ => hparameter p,
    ⟨List.forall₂_same.mpr fun c _ => hcall c, rfl⟩, rfl⟩

end Varying

/-! ## Runs -/

namespace Reference

variable {V : Expr → Expr → Prop} {s s' : Shape} {c c' : Call}

theorem checkArguments_varied {arguments arguments' : List Argument} (hs : s.Varied V s')
    (h : List.Forall₂ (Argument.Varied V) arguments arguments') (seen : List String) :
    checkArguments s arguments seen = checkArguments s' arguments' seen := by
  have hchecked := checkArguments_related (E := Eq) hs.name
    (hs.parameters.imp fun _ _ hp => hp.name)
    (h.imp fun _ _ ha => ⟨ha.name, fun _ => by rw [Argument.pos, Argument.pos, ha.span]⟩) seen
  exact hchecked.eq

theorem chosenExpr_varied {arguments arguments' : List Argument} {p p' : Parameter}
    (h : List.Forall₂ (Argument.Varied V) arguments arguments') (hp : p.Varied V p') :
    Option.Rel V (chosenExpr arguments p) (chosenExpr arguments' p') :=
  chosenExpr_related (h.imp fun _ _ ha => ⟨ha.name, ha.value⟩) hp.name hp.fallback

theorem bindParameter_varied {p p' : Parameter} (hs : s.Varied Expr.Interchangeable s')
    (hc : c.Varied Expr.Interchangeable c') (hp : p.Varied Expr.Interchangeable p')
    (scope bound : Scope) :
    bindParameter scope s c bound p = bindParameter scope s' c' bound p' := by
  have hchosen := chosenExpr_varied hc.arguments hp
  unfold bindParameter
  generalize chosenExpr c.arguments p = x at hchosen
  generalize chosenExpr c'.arguments p' = x' at hchosen
  cases hchosen with
  | none => simp only [hs.name, hp.name, Call.pos, hc.span]
  | some he => simp only [he.value_eq, hp.name]

theorem bindAll_varied (hs : s.Varied Expr.Interchangeable s')
    (hc : c.Varied Expr.Interchangeable c') (scope : Scope) :
    bindAll scope s c = bindAll scope s' c' := by
  have hparameters : Corresponds Eq Eq (s.parameters.foldlM (bindParameter scope s c) [])
      (s'.parameters.foldlM (bindParameter scope s' c') []) := by
    refine .foldlM hs.parameters (fun bound bound' p p' hbound hp => ?_) rfl
    rw [hbound, bindParameter_varied hs hc hp]
    exact .refl (fun _ => rfl) (fun _ => rfl) _
  rw [bindAll, bindAll, checkArguments_varied hs hc.arguments, hparameters.eq]

theorem svg_varied (hc : c.Varied Expr.Interchangeable c') (scope : Scope) :
    svg scope c = svg scope c' := by
  obtain ⟨callee, arguments, span⟩ := c
  obtain ⟨callee', arguments', span'⟩ := c'
  obtain ⟨rfl, harguments, rfl⟩ := hc
  cases harguments with
  | nil => rfl
  | cons ha hrest =>
    cases hrest with
    | nil => simp only [svg, ha.name, ha.value.value_eq, ha.value.pos, Call.pos]
    | cons hb hmore => simp [svg, hmore.length_eq, Call.pos]

end Reference

theorem registering_varied {V : Expr → Expr → Prop} :
    Registry.Registering Eq (Shape.Varied V) where
  name _ _ hs := hs.name
  parameters _ _ hs := by
    rw [Bool.eq_iff_iff, List.isEmpty_iff_length_eq_zero, List.isEmpty_iff_length_eq_zero,
      hs.parameters.length_eq]
  error _ _ hs _ := by rw [Shape.pos, Shape.pos, hs.span]

/-- Calls with interchangeable arguments do the same in registries of such
declarations. -/
theorem simulation_varied {r r' : Registry}
    (h : r.Related (Shape.Varied Expr.Interchangeable) r') :
    Simulation Eq Eq Eq (Call.Varied Expr.Interchangeable) r r' where
  callee _ _ hc := hc.callee
  error _ _ hc _ := by rw [Call.pos, Call.pos, hc.span]
  svg := by
    intro c c' hc _ scope scope' hscope
    rw [hscope, Reference.svg_varied hc]
    exact .refl (fun _ => rfl) (fun _ => rfl) _
  shape c c' hc _ := by
    refine entering_of_related registering_varied h (fun _ _ hs => hs.body.calls) ?_
    intro s s' _ hs scope scope' hscope
    rw [hscope, Reference.bindAll_varied hs hc]
    exact .refl (fun _ => rfl) (fun _ => rfl) _
  join := join_eq

/-! ## Programs -/

/-- Programs that differ in interchangeable expressions have the same
document or the same problem. -/
theorem document_of_interchangeable {p p' : Program} (h : p.Varied Expr.Interchangeable p')
    (library : LibraryText) : p.document library = p'.document library := by
  cases hload : library.load with
  | error f => simp only [Program.document, hload]
  | ok base =>
    have hbase : base.Related (Shape.Varied Expr.Interchangeable) base :=
      List.forall₂_same.mpr fun s _ => s.varied_refl Expr.Interchangeable.refl
    have hregister : Corresponds Eq (Registry.Related (Shape.Varied Expr.Interchangeable))
        (base.register p true) (base.register p' true) :=
      Registry.register_related registering_varied h.shapes hbase fun _ => by rw [h.finish]
    rcases hregister.outcomes with ⟨r, r', hreg, hreg', hr⟩ | ⟨e, e', hreg, hreg', he⟩
    · have hmain := hr.find? registering_varied mainName
      have hdocuments : Corresponds Eq Eq (p.document library) (p'.document library) :=
        (simulation_varied hr).document hload hreg hreg' hmain
          (fun _ _ hm => hm.body.calls) rfl (fun _ _ he => by rw [he]) (fun _ _ ht => by rw [ht])
      exact hdocuments.eq
    · rw [document_of_register_error hload hreg, document_of_register_error hload hreg', he]

/-- Groupings are transparent. A program in which groupings are put around
expressions or parts of them, or taken away, wherever they stand, has the
same document, or the same problem at the same position. -/
theorem document_ignores_groupings {p p' : Program} (h : p.Varied Expr.Regrouped p')
    (library : LibraryText) : p.document library = p'.document library :=
  document_of_interchangeable (h.imp fun _ _ he => he.interchangeable) library

/-- The place of an item of that many characters on the first line. -/
def lineSpan (column length : Int) : Span := ⟨⟨0, column⟩, ⟨0, column + length⟩⟩

/-- `shape tag(text = fallback) { svg(value: text) }`. -/
def tagWithDefault (fallback : Expr) : Shape :=
  ⟨"tag", [⟨"text", some fallback, .origin⟩],
    ⟨[⟨svgName, [⟨svgArgument, .name "text" .origin, .origin⟩], .origin⟩], .origin⟩, .origin⟩

/-- That shape, and `shape main() { tag() }`. -/
def defaulting (fallback : Expr) : Program :=
  ⟨[tagWithDefault fallback,
    ⟨mainName, [], ⟨[⟨"tag", [], .origin⟩], .origin⟩, .origin⟩], .origin⟩

/-- `1 + 2 - -"a"`, read from the left. -/
def negatedText : Expr :=
  .binary (.binary (.number 1 (lineSpan 17 1)) .plus (.number 2 (lineSpan 21 1)) ⟨0, 19⟩
      (lineSpan 17 5)) .minus
    (.negation (.string "a" (lineSpan 26 3)) ⟨0, 25⟩ (lineSpan 25 4)) ⟨0, 23⟩ (lineSpan 17 12)

/-- The same with groupings, as in `(1 + 2) - (-(("a")))`. -/
def groupedNegatedText : Expr :=
  .binary (.grouping (.binary (.number 1 (lineSpan 17 1)) .plus (.number 2 (lineSpan 21 1)) ⟨0, 19⟩
      (lineSpan 17 5)) .origin) .minus
    (.grouping (.negation (.grouping (.grouping (.string "a" (lineSpan 26 3)) .origin) .origin)
      ⟨0, 25⟩ (lineSpan 25 4)) .origin) ⟨0, 23⟩ (lineSpan 17 12)

theorem regrouped_negatedText : negatedText.Regrouped groupedNegatedText :=
  .binary (.wrap (.refl _) _) (.wrap (.negation (.wrap (.wrap (.refl _) _) _) _ _) _) _ _ _

theorem defaulting_varied {V : Expr → Expr → Prop} (hV : ∀ e, V e e) {e e' : Expr} (h : V e e') :
    (defaulting e).Varied V (defaulting e') := by
  have hsame : List.Forall₂ (Shape.Varied V) (defaulting e).shapes (defaulting e).shapes :=
    List.forall₂_same.mpr fun s _ => s.varied_refl hV
  cases hsame with
  | cons htag hmain =>
    exact ⟨.cons ⟨rfl, .cons ⟨rfl, .some h, rfl⟩ .nil, htag.body, rfl⟩ hmain, rfl⟩

/-- A default that fails is the failure of the program. -/
theorem document_defaulting {fallback : Expr} {e : EvalError}
    (h : fallback.evaluate [] = .error e) :
    (defaulting fallback).document .builtin = .error (.problem (.eval e)) := by
  obtain ⟨base, hload, hnames, _⟩ := builtin_load
  obtain ⟨r, hreg⟩ : ∃ r, base.register (defaulting fallback) true = .ok r :=
    register_of_builtin hnames (show _ = ["tag", mainName] from rfl) (by decide) rfl
  have hroom : ([] : List String).length < stackLimit := by decide
  have htag := Registry.find?_of_register hreg (tagWithDefault fallback) List.mem_cons_self
  have hmain := Registry.find?_of_register hreg _ (List.mem_cons_of_mem _ List.mem_cons_self)
  have hbind : Reference.bindAll [] (tagWithDefault fallback) ⟨"tag", [], .origin⟩ =
      .error e := by
    rw [evaluate_eq_value] at h
    simp only [Reference.bindAll, tagWithDefault, checkArguments, List.foldlM_cons,
      Reference.bindParameter, chosenExpr, List.find?_nil, h]
    rfl
  obtain ⟨m, _, hm, hdoc⟩ := document_of_register hload hreg
  obtain rfl := Option.some.inj (hmain.symm.trans hm)
  rw [hdoc, Reference.block_singleton rfl,
    Reference.call_of_shape hroom (show "tag" ≠ svgName by decide) htag, hbind]
  rfl

/-- The string is no number to negate, and the message points at it, with
and without the groupings. -/
theorem negatedText_ignores_groupings :
    (defaulting negatedText).Varied Expr.Regrouped (defaulting groupedNegatedText) ∧
    (defaulting negatedText).document .builtin =
      .error (.problem (.eval ⟨.typeMismatch .number .string, ⟨0, 26⟩⟩)) ∧
    (defaulting groupedNegatedText).document .builtin =
      .error (.problem (.eval ⟨.typeMismatch .number .string, ⟨0, 26⟩⟩)) := by
  have hvaried := defaulting_varied Expr.Regrouped.refl regrouped_negatedText
  have hvalue : negatedText.evaluate [] =
      .error ⟨.typeMismatch .number .string, ⟨0, 26⟩⟩ := by
    rw [evaluate_eq_value]
    rfl
  have hdocument := document_defaulting hvalue
  refine ⟨hvaried, hdocument, ?_⟩
  rw [← document_ignores_groupings hvaried]
  exact hdocument

end ShapeScript
