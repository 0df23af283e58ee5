/-
ShapeScript.Proofs.Editor.Completion — which completions can be accepted.

A completion offers a call by name, with a placeholder for each parameter
that has no default. Filled in, it should be a call that is not rejected
for the arguments that it has: only what those are, or what the call runs,
may be wrong with it. `Session.RejectsItself` is the part of a call that
decides this, before any body runs.

For the shapes that a document declares this comes down to two questions
(`completions_of_compiled`). Registering does not ask whether a shape is
called `svg`; one that is stands in the list beside the primitive, under
the same label, and its snippet calls the primitive. And nobody asks
whether two parameters of a shape have one name; if neither has a default,
the snippet gives an argument twice. All other completions are as they
should be.
-/
import ShapeScript.Proofs.Document.WellFormed
import ShapeScript.Proofs.Editor.KnownShapes
import ShapeScript.Proofs.Editor.Snippet
import ShapeScript.Proofs.Session.Arguments

namespace ShapeScript

/-! ## Definitions -/

/-- The fault is about which arguments a call has. -/
def EvalFault.isAboutArguments : EvalFault → Bool
  | argumentCount _ _ _ | missingArguments _ _ | missingRequiredArgument _ _
  | invalidArgumentName _ _ | unexpectedArgument _ _ => true
  | _ => false

/-- A call that has room on the stack is rejected by itself, and not by a
call that it runs. -/
inductive Session.RejectsItself (s : Session) (c : Call) : EvalError → Prop
  | svg {e : EvalError} (hsvg : c.callee = svgName) (he : svgText s.scope c = .error e) :
      RejectsItself s c e
  | undefined (hsvg : c.callee ≠ svgName) (hfind : s.registry.find? c.callee = none) :
      RejectsItself s c ⟨.shapeNotDefined c.callee, c.pos⟩
  | binding {shape : Shape} {e : EvalError} (hsvg : c.callee ≠ svgName)
      (hfind : s.registry.find? c.callee = some shape)
      (he : bindArguments s.scope shape c = .error e) : RejectsItself s c e

/-- Over the registry the call is nowhere rejected for the arguments that it
has. -/
def Registry.AcceptsArguments (r : Registry) (c : Call) : Prop :=
  ∀ s : Session, s.registry = r → ∀ e, s.RejectsItself c e → e.fault.isAboutArguments = false

/-- Whatever strings the placeholders of the completion are replaced by, the
text is one call of what its label names, and the registry accepts the
arguments of that call. -/
def Editor.Completion.Acceptable (r : Registry) (item : Completion) : Prop :=
  ∀ literal : List Char → List Char, (∀ inner, '"' ∉ literal inner) →
    ∃ c, WritesCall (.ofList (fillPlaceholders literal item.snippet.toList)) c ∧
      c.callee = item.label ∧ r.AcceptsArguments c

/-! ## Calls that are rejected by themselves -/

section Calls

variable {s : Session} {c : Call} {shape : Shape} {r : Registry}

/-- What an expression fails with is not about arguments. -/
theorem isAboutArguments_of_evaluate {scope : Scope} {x : Expr} {e : EvalError}
    (h : x.evaluate scope = .error e) : e.fault.isAboutArguments = false := by
  rw [evaluate_eq_value] at h
  obtain ⟨n, -, -, hfault⟩ | hfault := Reference.value_eq_error h
  · rw [hfault]
    rfl
  · rw [hfault]
    rfl

theorem Shape.Rejects.isAboutArguments {arguments : List Argument} {e : EvalError}
    (h : shape.Rejects arguments e) : e.fault.isAboutArguments = true := by
  cases h <;> rfl

theorem Shape.Accepts.not_rejects {arguments : List Argument} {e : EvalError}
    (h : shape.Accepts arguments) : ¬ shape.Rejects arguments e := by
  intro hrejects
  have hcheck := checkArguments_of_rejects hrejects
  rw [checkArguments_eq_ok_iff.mpr h] at hcheck
  cases hcheck

/-- A call of a shape gives just the parameters that have no default. It is
accepted if none of them is given twice, and only then. -/
theorem acceptsArguments_shape_iff (hsvg : c.callee ≠ svgName)
    (hfind : r.find? c.callee = some shape)
    (hnames : c.arguments.map Argument.name = shape.requiredNames) :
    r.AcceptsArguments c ↔ shape.requiredNames.Nodup := by
  have hdeclared : ∀ a ∈ c.arguments, a.name ∈ shape.parameterNames := by
    intro a ha
    have hmem : a.name ∈ shape.requiredNames := hnames ▸ List.mem_map_of_mem ha
    obtain ⟨p, hp, hname⟩ := List.mem_map.mp hmem
    exact Shape.mem_parameterNames.mpr ⟨p, List.mem_of_mem_filter hp, hname⟩
  constructor
  · intro h
    by_contra hrepeated
    obtain ⟨e, hrejects⟩ : ∃ e, shape.Rejects c.arguments e :=
      exists_rejects fun haccepts => hrepeated (hnames ▸ haccepts.distinct)
    have hbind : bindArguments [] shape c = .error e :=
      (Binding.rejected hrejects).eq_bindArguments
    have hfault := h ⟨r, 0, [], []⟩ rfl e (.binding hsvg hfind hbind)
    rw [hrejects.isAboutArguments] at hfault
    cases hfault
  · intro hnodup s hs e hrejects
    have haccepts : shape.Accepts c.arguments := ⟨hnames ▸ hnodup, hdeclared⟩
    cases hrejects with
    | svg hcallee _ => exact absurd hcallee hsvg
    | undefined _ hnone =>
      rw [hs, hfind] at hnone
      cases hnone
    | @binding shape' _ _ hfind' he =>
      rw [hs] at hfind'
      obtain rfl := Option.some.inj (hfind.symm.trans hfind')
      have hbinding := binding_bindArguments s.scope shape c
      rw [he] at hbinding
      cases hbinding with
      | rejected h => exact absurd h haccepts.not_rejects
      | @missing before after p _ hsplit _ hother hfallback =>
        have hp : p ∈ shape.parameters := hsplit ▸ List.mem_append_right before List.mem_cons_self
        have hsupplied := Shape.mem_requiredNames.mpr ⟨p, hp, hfallback, rfl⟩
        rw [← hnames] at hsupplied
        exact absurd (List.mem_map.mp hsupplied) hother
      | fails _ _ _ hx he => exact isAboutArguments_of_evaluate he

/-- A call of `svg` with strings is accepted if its one argument is the
primitive's, and only then. -/
theorem acceptsArguments_svg_iff (hsvg : c.callee = svgName)
    (hvalues : ∀ a ∈ c.arguments, ∃ s span, a.value = .string s span) :
    r.AcceptsArguments c ↔ c.arguments.map Argument.name = [svgArgument] := by
  have hrejected : ∀ {e}, svgText [] c = .error e → e.fault.isAboutArguments = true →
      ¬ r.AcceptsArguments c := fun he hfault h => by
    have := h ⟨r, 0, [], []⟩ rfl _ (.svg hsvg he)
    rw [hfault] at this
    cases this
  obtain ⟨callee, arguments, span⟩ := c
  match arguments with
  | [] => exact iff_of_false (hrejected rfl rfl) nofun
  | a :: b :: more => exact iff_of_false (hrejected rfl rfl) (by simp)
  | [a] =>
    obtain ⟨text, span', hvalue⟩ := hvalues a List.mem_cons_self
    by_cases hname : a.name = svgArgument
    · refine iff_of_true (fun s _ e hrejects => ?_) (congrArg ([·]) hname)
      cases hrejects with
      | svg _ he =>
        have htext : svgText s.scope ⟨callee, [a], span⟩ = .ok text := by
          simp only [svgText_eq_svg, Reference.svg, if_pos hname, hvalue]
          rfl
        rw [htext] at he
        cases he
      | undefined hcallee _ => exact absurd hsvg hcallee
      | binding hcallee _ _ => exact absurd hsvg hcallee
    · have htext : svgText [] ⟨callee, [a], span⟩ =
          .error ⟨.missingArguments callee [svgArgument], span.start⟩ := by
        simp only [svgText_eq_svg, Reference.svg, if_neg hname]
        rfl
      exact iff_of_false (hrejected htext rfl) fun h => hname (List.cons.inj h).1

end Calls

/-! ## Completions -/

section Completions

open Editor

variable {r : Registry} {shape : Shape} {names : List String}

/-- A completion whose snippet calls what its label names can be accepted
exactly if such a call, with strings for the names that it asks for, can. -/
theorem acceptable_iff {item : Completion} {P : Prop}
    (hsnippet : item.snippet = callSnippet item.label names) (hlabel : IsName item.label)
    (hnames : ∀ n ∈ names, IsName n)
    (h : ∀ c : Call, c.callee = item.label → c.arguments.map Argument.name = names →
      (∀ a ∈ c.arguments, ∃ s span, a.value = .string s span) → (r.AcceptsArguments c ↔ P)) :
    item.Acceptable r ↔ P := by
  rw [Completion.Acceptable, hsnippet]
  constructor
  · intro hall
    have hliteral : ∀ inner : List Char, '"' ∉ (fun _ => []) inner := fun _ => List.not_mem_nil
    obtain ⟨c, hwrites, hcallee, haccepts⟩ := hall _ hliteral
    obtain ⟨c', hwrites', -, hnames', hvalues⟩ := filled_is_call hlabel hnames hliteral
    obtain rfl := hwrites.unique hwrites'
    exact (h c hcallee hnames' hvalues).mp haccepts
  · intro hP literal hliteral
    obtain ⟨c, hwrites, hcallee, hnames', hvalues⟩ := filled_is_call hlabel hnames hliteral
    exact ⟨c, hwrites, hcallee, (h c hcallee hnames' hvalues).mpr hP⟩

/-- The completion of the primitive can always be accepted. -/
theorem svgCompletion_acceptable (r : Registry) : svgCompletion.Acceptable r := by
  have hnames : ∀ n ∈ [svgArgument], IsName n :=
    List.forall_mem_singleton.mpr (isName_of_spellsName (by decide +kernel))
  refine (acceptable_iff (P := [svgArgument] = [svgArgument]) rfl
    (isName_of_spellsName (by decide +kernel)) hnames fun c hcallee hnames hvalues => ?_).mpr rfl
  rw [acceptsArguments_svg_iff hcallee hvalues, hnames]

/-- The completion of a registered shape can be accepted if it asks for
different arguments; that of a shape under the name of the primitive, if it
asks for what the primitive wants. -/
theorem shapeCompletion_acceptable_iff (builtin : Registry)
    (hfind : r.find? shape.name = some shape)
    (hnames : ∀ n ∈ shape.name :: shape.requiredNames, IsName n) :
    (shapeCompletion builtin shape).Acceptable r ↔
      if shape.name = svgName then shape.requiredNames = [svgArgument]
      else shape.requiredNames.Nodup := by
  obtain ⟨hname, hrequired⟩ := List.forall_mem_cons.mp hnames
  refine acceptable_iff rfl hname hrequired fun c hcallee harguments hvalues => ?_
  replace hcallee : c.callee = shape.name := hcallee
  split
  · rename_i hsvg
    rw [acceptsArguments_svg_iff (hcallee.trans hsvg) hvalues, harguments]
  · rename_i hsvg
    exact acceptsArguments_shape_iff (hcallee ▸ hsvg) (hcallee ▸ hfind) harguments

end Completions

/-! ## Documents -/

/-- A builtin shape asks for nothing. -/
theorem requiredNames_of_builtin {s : Shape} (hs : s ∈ builtinRegistry.shapes) :
    s.requiredNames = [] := by
  obtain ⟨base, hload, -, hpainters⟩ := builtin_load
  rw [builtinRegistry_eq hload] at hs
  refine List.eq_nil_iff_forall_not_mem.mpr fun n hn => ?_
  obtain ⟨p, hp, hnone, -⟩ := Shape.mem_requiredNames.mp hn
  obtain ⟨x, hx, -⟩ := Shape.fallback_of_isPainter (hpainters s hs) hp
  rw [hx] at hnone
  cases hnone

section Documents

open Editor

variable {document : String} {p : Program} {r : Registry} {s : Shape}

namespace Registers

/-- The editor knows just the shapes that are registered. -/
theorem completions_eq (h : Registers document p r) :
    completions builtinRegistry document =
      svgCompletion ::
        (builtinRegistry.shapes ++ p.shapes).map (shapeCompletion builtinRegistry) := by
  rw [completions, h.knownShapes_eq, (Registry.register_eq_ok h.registers).1]

/-- The names of the registered shapes are all different. -/
theorem nodup_names (h : Registers document p r) : (r.shapes.map Shape.name).Nodup := by
  obtain ⟨rfl, hnodup, hfree, -⟩ := Registry.register_eq_ok_iff.mp h.registers
  rw [List.map_append]
  refine List.nodup_append.mpr ⟨nodup_builtin, hnodup, fun n hn m hm => ?_⟩
  obtain ⟨b, hb, rfl⟩ := List.mem_map.mp hn
  obtain ⟨s, hs, rfl⟩ := List.mem_map.mp hm
  exact Registry.contains_eq_false.mp (hfree s hs) b hb

/-- Only a shape that is called `svg` has a label that is there already. -/
theorem nodup_labels_iff (h : Registers document p r) :
    ((completions builtinRegistry document).map Completion.label).Nodup ↔
      ∀ s ∈ p.shapes, s.name ≠ svgName := by
  have hnodup := h.nodup_names
  rw [(Registry.register_eq_ok h.registers).1] at hnodup
  have hlabels : (completions builtinRegistry document).map Completion.label =
      svgName :: (builtinRegistry.shapes ++ p.shapes).map Shape.name := by
    rw [h.completions_eq, List.map_cons, List.map_map]
    rfl
  have hbuiltin : svgName ∉ builtinNames := by decide
  rw [hlabels, List.nodup_cons, and_iff_left hnodup, List.map_append, names_of_builtin]
  simp [hbuiltin]

theorem builtin_acceptable (h : Registers document p r) (hs : s ∈ builtinRegistry.shapes) :
    (shapeCompletion builtinRegistry s).Acceptable r := by
  have hmem : s ∈ r.shapes :=
    (Registry.register_eq_ok h.registers).1 ▸ List.mem_append_left p.shapes hs
  have hname : s.name ∈ builtinNames := names_of_builtin ▸ List.mem_map_of_mem hs
  have hspelled : ∀ n ∈ builtinNames, spellsName n.toList := by decide +kernel
  have hnames : ∀ n ∈ s.name :: s.requiredNames, IsName n := by
    rw [requiredNames_of_builtin hs]
    exact List.forall_mem_singleton.mpr (isName_of_spellsName (hspelled _ hname))
  have hsvg : s.name ≠ svgName := fun heq => absurd (heq ▸ hname) (by decide)
  rw [shapeCompletion_acceptable_iff builtinRegistry (Registry.find?_of_mem h.nodup_names hmem)
    hnames, if_neg hsvg, requiredNames_of_builtin hs]
  exact List.nodup_nil

theorem declared_acceptable_iff (h : Registers document p r) (hs : s ∈ p.shapes) :
    (shapeCompletion builtinRegistry s).Acceptable r ↔
      if s.name = svgName then s.requiredNames = [svgArgument] else s.requiredNames.Nodup := by
  obtain ⟨ts, hscan, hparse⟩ := h.writes
  obtain ⟨hname, hparameters⟩ := List.forall_mem_cons.mp (isName_of_parse hscan hparse s hs)
  refine shapeCompletion_acceptable_iff builtinRegistry
    (Registry.find?_of_register h.registers s hs) (List.forall_mem_cons.mpr ⟨hname, fun n hn => ?_⟩)
  obtain ⟨p, hp, -, hpname⟩ := Shape.mem_requiredNames.mp hn
  exact hparameters n (Shape.mem_parameterNames.mpr ⟨p, hp, hpname⟩)

end Registers

/-- The completions of a document that compiles: `svg`, the builtin shapes
and those that it declares. Their labels are different unless it declares a
shape called `svg`. All can be accepted, except those of declared shapes
that ask for an argument twice, or are called `svg` and ask for other
arguments than the primitive. -/
theorem completions_of_compiled {svg : String} (h : compile .builtin document = .ok svg) :
    ∃ p r, Registers document p r ∧
      completions builtinRegistry document =
        svgCompletion ::
          (builtinRegistry.shapes ++ p.shapes).map (shapeCompletion builtinRegistry) ∧
      (((completions builtinRegistry document).map Completion.label).Nodup ↔
        ∀ s ∈ p.shapes, s.name ≠ svgName) ∧
      svgCompletion.Acceptable r ∧
      (∀ s ∈ builtinRegistry.shapes, (shapeCompletion builtinRegistry s).Acceptable r) ∧
      ∀ s ∈ p.shapes, (shapeCompletion builtinRegistry s).Acceptable r ↔
        if s.name = svgName then s.requiredNames = [svgArgument] else s.requiredNames.Nodup := by
  obtain ⟨p, r, hregisters⟩ := registers_of_compile h
  exact ⟨p, r, hregisters, hregisters.completions_eq, hregisters.nodup_labels_iff,
    svgCompletion_acceptable r, fun _ => hregisters.builtin_acceptable,
    fun _ => hregisters.declared_acceptable_iff⟩

/-! ## Three documents -/

/-- A shape that has to be given one of its two arguments. -/
def oneRequired : String := "shape dot(x, y = 1) \x7b\x7d shape main() \x7b\x7d"

/-- A shape that is called `svg`. -/
def declaresSvg : String := "shape svg(value) \x7b\x7d shape main() \x7b\x7d"

/-- A shape with two parameters of one name. -/
def repeatsParameter : String := "shape dot(x, x) \x7b\x7d shape main() \x7b\x7d"

/-- Their characters. -/
def oneRequiredChars : { cs : List Char // oneRequired = .ofList cs } := ⟨_, rfl⟩

def declaresSvgChars : { cs : List Char // declaresSvg = .ofList cs } := ⟨_, rfl⟩

def repeatsParameterChars : { cs : List Char // repeatsParameter = .ofList cs } := ⟨_, rfl⟩

set_option maxRecDepth 10000 in
theorem compilesTo_empty : ∀ cs ∈ [oneRequiredChars.1, declaresSvgChars.1, repeatsParameterChars.1],
    compilesTo (cs, documentOf "") = true := by
  decide +kernel

/-- All completions of the first can be accepted. -/
theorem oneRequired_completions :
    compile .builtin oneRequired = .ok (documentOf "") ∧
      ((completions builtinRegistry oneRequired).map Completion.label).Nodup ∧
      ∃ p r, Registers oneRequired p r ∧
        ∀ item ∈ completions builtinRegistry oneRequired, item.Acceptable r := by
  have hcompile := compile_of_compilesTo (compilesTo_empty _ (.head _))
  rw [← oneRequiredChars.2] at hcompile
  obtain ⟨p, r, hregisters, heq, hlabels, hsvg, hbuiltin, hdeclared⟩ :=
    completions_of_compiled hcompile
  have hshapes : ∀ s ∈ p.shapes, s.name ≠ svgName ∧ s.requiredNames.Nodup :=
    (oneRequiredChars.2 ▸ hregisters).of_chars
      (Q := fun p => ∀ s ∈ p.shapes, s.name ≠ svgName ∧ s.requiredNames.Nodup) (by decide +kernel)
  refine ⟨hcompile, hlabels.mpr fun s hs => (hshapes s hs).1, p, r, hregisters, ?_⟩
  rw [heq]
  refine List.forall_mem_cons.mpr ⟨hsvg, List.forall_mem_map.mpr fun s hs => ?_⟩
  obtain hs | hs := List.mem_append.mp hs
  · exact hbuiltin s hs
  · rw [hdeclared s hs, if_neg (hshapes s hs).1]
    exact (hshapes s hs).2

/-- The second has two completions under one label. -/
theorem declaresSvg_completions :
    compile .builtin declaresSvg = .ok (documentOf "") ∧
      ¬ ((completions builtinRegistry declaresSvg).map Completion.label).Nodup := by
  have hcompile := compile_of_compilesTo (compilesTo_empty _ (.tail _ (.head _)))
  rw [← declaresSvgChars.2] at hcompile
  obtain ⟨p, r, hregisters⟩ := registers_of_compile hcompile
  have hshapes : ∃ s ∈ p.shapes, s.name = svgName :=
    (declaresSvgChars.2 ▸ hregisters).of_chars
      (Q := fun p => ∃ s ∈ p.shapes, s.name = svgName) (by decide +kernel)
  obtain ⟨s, hs, hname⟩ := hshapes
  exact ⟨hcompile, fun hnodup => hregisters.nodup_labels_iff.mp hnodup s hs hname⟩

/-- The third has a completion that cannot be accepted. -/
theorem repeatsParameter_completions :
    compile .builtin repeatsParameter = .ok (documentOf "") ∧
      ∃ p r, Registers repeatsParameter p r ∧
        ∃ item ∈ completions builtinRegistry repeatsParameter, ¬ item.Acceptable r := by
  have hcompile := compile_of_compilesTo (compilesTo_empty _ (.tail _ (.tail _ (.head _))))
  rw [← repeatsParameterChars.2] at hcompile
  obtain ⟨p, r, hregisters⟩ := registers_of_compile hcompile
  have hshapes : ∃ s ∈ p.shapes, s.name ≠ svgName ∧ ¬ s.requiredNames.Nodup :=
    (repeatsParameterChars.2 ▸ hregisters).of_chars
      (Q := fun p => ∃ s ∈ p.shapes, s.name ≠ svgName ∧ ¬ s.requiredNames.Nodup) (by decide +kernel)
  obtain ⟨s, hs, hsvg, hrepeated⟩ := hshapes
  refine ⟨hcompile, p, r, hregisters, shapeCompletion builtinRegistry s, ?_, ?_⟩
  · rw [hregisters.completions_eq]
    exact List.mem_cons_of_mem _ (List.mem_map_of_mem (List.mem_append_right _ hs))
  · rwa [hregisters.declared_acceptable_iff hs, if_neg hsvg]

/-- So the labels of a document that compiles need not be different, and its
completions need not be acceptable. -/
theorem completions_can_fail :
    (compile .builtin declaresSvg = .ok (documentOf "") ∧
      ¬ ((completions builtinRegistry declaresSvg).map Completion.label).Nodup) ∧
    compile .builtin repeatsParameter = .ok (documentOf "") ∧
      ∃ p r, Registers repeatsParameter p r ∧
        ∃ item ∈ completions builtinRegistry repeatsParameter, ¬ item.Acceptable r :=
  ⟨declaresSvg_completions, repeatsParameter_completions⟩

end Documents

end ShapeScript
