/-
ShapeScript.Proofs.Document.ArgumentOrder — arguments in another order.

Arguments are passed by name, so their order should not matter, and it
matters in one respect only. Parameters take their arguments in the order
of the parameters: which argument one takes, and so which failure comes
first, does not depend on how the arguments are written. But before that
the arguments are checked as they are written, and of several that are
rejected the first is reported. Whether one is rejected is again a
question of their names alone.

So a program and one with its arguments reordered have the same documents,
and where all names in calls are right, the same problems too. Both are
instances of one simulation, `simulation_reordered`, which is relative to
what is known of the arguments that are rejected.
-/
import Mathlib.Data.List.Find
import ShapeScript.Proofs.Document.WellFormed
import ShapeScript.Proofs.Session.Simulation

namespace ShapeScript

/-! ## Definitions -/

/-- The calls differ in the order of their arguments. -/
structure Call.Reordered (c c' : Call) : Prop where
  callee : c.callee = c'.callee
  arguments : c.arguments.Perm c'.arguments
  span : c.span = c'.span

/-- The declarations differ in their calls, and those are related by `R`. -/
structure Shape.Calling (R : Call → Call → Prop) (s s' : Shape) : Prop where
  name : s.name = s'.name
  parameters : s.parameters = s'.parameters
  calls : List.Forall₂ R s.body.calls s'.body.calls
  bodySpan : s.body.span = s'.body.span
  span : s.span = s'.span

/-- The programs differ in the order of arguments in calls. -/
structure Program.Reordered (p p' : Program) : Prop where
  shapes : List.Forall₂ (Shape.Calling Call.Reordered) p.shapes p'.shapes
  finish : p.finish = p'.finish

/-- The arguments have different names, which are those of parameters of the
shape. -/
structure Call.Addresses (c : Call) (s : Shape) : Prop where
  distinct : (c.arguments.map Argument.name).Nodup
  declared : ∀ a ∈ c.arguments, a.name ∈ s.parameterNames

/-! ## Calls -/

theorem checkArguments_of_addresses {c : Call} {s : Shape} (h : c.Addresses s) :
    checkArguments s c.arguments [] = .ok () := by
  rw [checkArguments_eq_ok]
  exact ⟨h.distinct, fun a ha => ⟨h.declared a ha, List.not_mem_nil⟩⟩

/-- Whether arguments are accepted does not depend on their order. -/
theorem checkArguments_perm {s : Shape} {arguments arguments' : List Argument}
    (hperm : arguments.Perm arguments') :
    checkArguments s arguments [] = .ok () ↔ checkArguments s arguments' [] = .ok () := by
  simp only [checkArguments_eq_ok, (hperm.map Argument.name).nodup_iff, hperm.mem_iff]

/-- Nor does what a parameter takes from arguments of different names. -/
theorem chosenExpr_perm {arguments arguments' : List Argument} (hperm : arguments.Perm arguments')
    (hdistinct : (arguments.map Argument.name).Nodup) (p : Parameter) :
    chosenExpr arguments p = chosenExpr arguments' p := by
  have hfind : arguments.find? (·.name == p.name) = arguments'.find? (·.name == p.name) := by
    refine List.find?_eq_find?_of_perm hperm ?_
    rintro a ⟨ha, hname⟩ b ⟨hb, hname'⟩
    refine List.inj_on_of_nodup_map hdistinct ha hb ?_
    rw [beq_iff_eq.mp hname, beq_iff_eq.mp hname']
  rw [chosenExpr, chosenExpr, hfind]

section Binding

variable {R : Call → Call → Prop} {s s' : Shape} {c c' : Call}

/-- Arguments are checked against the name of a shape and its parameters. -/
theorem Shape.Calling.checkArguments_eq (hs : s.Calling R s') (arguments : List Argument)
    (seen : List String) : checkArguments s arguments seen = checkArguments s' arguments seen := by
  induction arguments generalizing seen with
  | nil => rfl
  | cons a rest ih => simp only [checkArguments, hs.name, hs.parameters, ih]

namespace Reference

/-- Arguments whose check does not depend on their order bind alike. -/
theorem bindAll_reordered (hs : s.Calling R s') (hc : c.Reordered c')
    (hcheck : checkArguments s c.arguments [] = checkArguments s c'.arguments [])
    (scope : Scope) : bindAll scope s c = bindAll scope s' c' := by
  rw [bindAll, bindAll, ← hs.checkArguments_eq, ← hcheck, ← hs.parameters]
  cases haccepted : checkArguments s c.arguments [] with
  | error e => rfl
  | ok u =>
    obtain ⟨hdistinct, _⟩ := checkArguments_eq_ok.mp haccepted
    refine foldlM_congr (fun p _ bound => ?_) []
    simp only [bindParameter, chosenExpr_perm hc.arguments hdistinct p, hs.name, Call.pos, hc.span]

theorem svg_of_length_ne_one (h : c.arguments.length ≠ 1) (scope : Scope) :
    svg scope c = .error ⟨.argumentCount c.callee 1 c.arguments.length, c.pos⟩ := by
  unfold svg
  split
  · rename_i harguments
    exact absurd (congrArg List.length harguments) h
  · rfl

theorem svg_reordered (hc : c.Reordered c') (scope : Scope) : svg scope c = svg scope c' := by
  have hpos : c.pos = c'.pos := by rw [Call.pos, Call.pos, hc.span]
  have hlength := hc.arguments.length_eq
  by_cases hone : c.arguments.length = 1
  · obtain ⟨a, ha⟩ := List.length_eq_one_iff.mp hone
    have ha' : c'.arguments = [a] := List.perm_singleton.mp (ha ▸ hc.arguments.symm)
    simp only [svg, ha, ha', hc.callee, hpos]
  · rw [svg_of_length_ne_one hone, svg_of_length_ne_one (hlength ▸ hone), hc.callee, hlength, hpos]

end Reference

end Binding

/-! ## Runs -/

section Runs

variable {E : EvalError → EvalError → Prop} {R : Call → Call → Prop} {base r r' : Registry}

theorem registering_calling (hE : ∀ e, E e e) : Registry.Registering E (Shape.Calling R) where
  name _ _ hs := hs.name
  parameters _ _ hs := by rw [hs.parameters]
  error _ _ hs fault := by
    rw [Shape.pos, Shape.pos, hs.span]
    exact hE _

theorem Shape.calling_refl (hR : ∀ c, R c c) (s : Shape) : s.Calling R s :=
  ⟨rfl, rfl, List.forall₂_same.mpr fun c _ => hR c, rfl, rfl⟩

theorem Call.reordered_refl (c : Call) : c.Reordered c := ⟨rfl, .refl _, rfl⟩

/-- Reordered calls do the same, when failures are compared in a way that
does not tell apart those of arguments that are rejected. -/
theorem simulation_reordered (hE : ∀ e, E e e) (hR : ∀ c c', R c c' → c.Reordered c')
    (hbind : ∀ c c', R c c' → c.callee ≠ svgName → ∀ s s', r.find? c.callee = some s →
      s.Calling R s' → ∀ scope,
        Corresponds E Eq (Reference.bindAll scope s c) (Reference.bindAll scope s' c'))
    (h : r.Related (Shape.Calling R) r') : Simulation E Eq Eq R r r' where
  callee c c' hc := (hR c c' hc).callee
  error c c' hc fault := by
    rw [Call.pos, Call.pos, (hR c c' hc).span]
    exact hE _
  svg := by
    rintro c c' hc _ scope _ rfl
    rw [← Reference.svg_reordered (hR c c' hc)]
    exact .refl hE (fun _ => rfl) _
  shape c c' hc hsvg := by
    refine entering_of_related (registering_calling hE) h (fun _ _ hs => hs.calls) ?_
    rintro s s' hfind hs scope _ rfl
    exact hbind c c' hc hsvg s s' hfind hs scope
  join := join_eq

end Runs

/-! ## Programs -/

section Programs

variable {library : LibraryText} {base r r' : Registry} {p p' : Program}

/-- Reordered calls whose arguments are checked alike by the shape that they
call. -/
structure Call.CheckedAlike (r : Registry) (c c' : Call) : Prop where
  reordered : c.Reordered c'
  checked : c.callee ≠ svgName → ∀ s, r.find? c.callee = some s →
    checkArguments s c.arguments [] = checkArguments s c'.arguments []

theorem Call.checkedAlike_refl (r : Registry) (c : Call) : c.CheckedAlike r c :=
  ⟨c.reordered_refl, fun _ _ _ => rfl⟩

theorem Call.Reordered.checkedAlike {c c' : Call} (h : c.Reordered c')
    (haddresses : c.callee ≠ svgName → ∀ s, r.find? c.callee = some s → c.Addresses s) :
    c.CheckedAlike r c' where
  reordered := h
  checked hsvg s hfind := by
    have haccepted := checkArguments_of_addresses (haddresses hsvg s hfind)
    rw [haccepted, (checkArguments_perm h.arguments).mp haccepted]

theorem Shape.Calling.imp {R R' : Call → Call → Prop} {s s' : Shape} (h : s.Calling R s')
    (hR : ∀ c ∈ s.body.calls, ∀ c', R c c' → R' c c') : s.Calling R' s' where
  name := h.name
  parameters := h.parameters
  calls := forall₂_imp_of_mem h.calls hR
  bodySpan := h.bodySpan
  span := h.span

/-- Whether a program registers, and what is then declared, does not depend
on the order of arguments. -/
theorem register_reordered (base : Registry) (hp : p.Reordered p') :
    Corresponds Eq (Registry.Related (Shape.Calling Call.Reordered)) (base.register p true)
      (base.register p' true) := by
  refine Registry.register_related (registering_calling fun _ => rfl) hp.shapes ?_ ?_
  · exact List.forall₂_same.mpr fun s _ => s.calling_refl Call.reordered_refl
  · intro fault
    rw [hp.finish]

/-- Arguments that are accepted in one order are accepted in another, and
those that are rejected are. -/
theorem simulation_of_reordered (hr : r.Related (Shape.Calling Call.Reordered) r') :
    Simulation (fun _ _ => True) Eq Eq Call.Reordered r r' := by
  refine simulation_reordered (fun _ => trivial) (fun _ _ hc => hc) ?_ hr
  intro c c' hc _ s s' _ hs scope
  have hiff := checkArguments_perm (s := s) hc.arguments
  cases haccepted : checkArguments s c.arguments [] with
  | ok u =>
    have hcheck : checkArguments s c.arguments [] = checkArguments s c'.arguments [] := by
      rw [haccepted, hiff.mp haccepted]
    rw [← Reference.bindAll_reordered hs hc hcheck]
    exact .refl (fun _ => trivial) (fun _ => rfl) _
  | error e =>
    cases haccepted' : checkArguments s c'.arguments [] with
    | ok u =>
      rw [hiff.mpr haccepted'] at haccepted
      cases haccepted
    | error e' =>
      rw [Reference.bindAll, Reference.bindAll, ← hs.checkArguments_eq, haccepted, haccepted']
      exact .error trivial

theorem simulation_of_checkedAlike (hr : r.Related (Shape.Calling (Call.CheckedAlike r)) r') :
    Simulation Eq Eq Eq (Call.CheckedAlike r) r r' := by
  refine simulation_reordered (fun _ => rfl) (fun _ _ hc => hc.reordered) ?_ hr
  intro c c' hc hsvg s s' hfind hs scope
  rw [Reference.bindAll_reordered hs hc.reordered (hc.checked hsvg s hfind)]
  exact .refl (fun _ => rfl) (fun _ => rfl) _

/-- In a program whose calls name parameters of what they call, all calls
are checked alike. -/
theorem related_checkedAlike (hreg : base.register p true = .ok r)
    (hreg' : base.register p' true = .ok r') (hp : p.Reordered p')
    (haddresses : ∀ s ∈ p.shapes, ∀ c ∈ s.body.calls, c.callee ≠ svgName →
      ∀ shape, r.find? c.callee = some shape → c.Addresses shape) :
    r.Related (Shape.Calling (Call.CheckedAlike r)) r' := by
  have hlibrary : List.Forall₂ (Shape.Calling (Call.CheckedAlike r)) base.shapes base.shapes :=
    List.forall₂_same.mpr fun s _ => s.calling_refl (Call.checkedAlike_refl r)
  have hprogram : List.Forall₂ (Shape.Calling (Call.CheckedAlike r)) p.shapes p'.shapes :=
    forall₂_imp_of_mem hp.shapes fun s hs _ hcalling =>
      hcalling.imp fun c hc _ hreordered => hreordered.checkedAlike (haddresses s hs c hc)
  rw [Registry.Related, (Registry.register_eq_ok hreg).1, (Registry.register_eq_ok hreg').1]
  exact List.rel_append hlibrary hprogram

/-- The order of arguments does not matter. Programs that differ in it have
the same documents; and if in calls of registered shapes the arguments of
the one have different names, which are those of parameters, then they also
have the same problems, at the same places. -/
theorem document_ignores_argument_order (hload : library.load = .ok base)
    (hp : p.Reordered p') :
    (∀ svg, p.document library = .ok svg ↔ p'.document library = .ok svg) ∧
    ((∀ r, base.register p true = .ok r → ∀ s ∈ p.shapes, ∀ c ∈ s.body.calls,
        c.callee ≠ svgName → ∀ shape, r.find? c.callee = some shape → c.Addresses shape) →
      p.document library = p'.document library) := by
  obtain ⟨r, r', hreg, hreg', hr⟩ | ⟨e, _, hreg, hreg', rfl⟩ :=
    (register_reordered base hp).outcomes
  · refine ⟨fun svg => ?_, fun haddresses => ?_⟩
    · have hmain := hr.find? (registering_calling fun _ => rfl) mainName
      have hdocuments : Corresponds (fun _ _ => True) Eq (p.document library)
          (p'.document library) :=
        (simulation_of_reordered hr).document hload hreg hreg' hmain (fun _ _ hm => hm.calls) rfl
          (fun _ _ _ => trivial) (fun _ _ ht => by rw [ht])
      exact hdocuments.ok_iff
    · have hr := related_checkedAlike hreg hreg' hp (haddresses r hreg)
      have hmain := hr.find? (registering_calling fun _ => rfl) mainName
      have hdocuments : Corresponds Eq Eq (p.document library) (p'.document library) :=
        (simulation_of_checkedAlike hr).document hload hreg hreg' hmain (fun _ _ hm => hm.calls)
          rfl (fun _ _ he => by rw [he]) (fun _ _ ht => by rw [ht])
      exact hdocuments.eq
  · rw [document_of_register_error hload hreg, document_of_register_error hload hreg']
    exact ⟨fun _ => Iff.rfl, fun _ => rfl⟩

/-- A program whose `main` calls `tag` with some arguments. -/
def tagCaller (arguments : List Argument) : Program :=
  ⟨[tagShape, ⟨mainName, [], ⟨[⟨"tag", arguments, .origin⟩], .origin⟩, .origin⟩], .origin⟩

/-- `text: "3", unit: "pt"`. -/
def goodArguments : List Argument :=
  [⟨"text", .string "3" .origin, .origin⟩, ⟨"unit", .string "pt" .origin, .origin⟩]

/-- `text: width, unit: height`, where neither is defined. -/
def badArguments : List Argument :=
  [⟨"text", .name "width" .origin, .origin⟩, ⟨"unit", .name "height" .origin, .origin⟩]

theorem tagCaller_reordered {arguments arguments' : List Argument}
    (h : arguments.Perm arguments') : (tagCaller arguments).Reordered (tagCaller arguments') :=
  ⟨.cons (tagShape.calling_refl Call.reordered_refl)
    (.cons ⟨rfl, rfl, .cons ⟨rfl, h, rfl⟩ .nil, rfl, rfl⟩ .nil), rfl⟩

theorem register_tagCaller (hnames : base.shapes.map Shape.name = builtinNames)
    (arguments : List Argument) : ∃ r, base.register (tagCaller arguments) true = .ok r :=
  register_of_builtin hnames (show _ = ["tag", mainName] from rfl) (by decide) rfl

theorem tagCaller_addresses {arguments : List Argument}
    (hdistinct : (arguments.map Argument.name).Nodup)
    (hdeclared : ∀ a ∈ arguments, a.name ∈ tagShape.parameterNames)
    (hreg : base.register (tagCaller arguments) true = .ok r) :
    ∀ s ∈ (tagCaller arguments).shapes, ∀ c ∈ s.body.calls, c.callee ≠ svgName →
      ∀ shape, r.find? c.callee = some shape → c.Addresses shape := by
  intro s hs c hc hsvg shape hfind
  simp only [tagCaller, List.mem_cons, List.not_mem_nil, or_false] at hs
  obtain rfl | rfl := hs
  · obtain rfl := List.mem_singleton.mp hc
    exact absurd rfl hsvg
  · obtain rfl := List.mem_singleton.mp hc
    have htag := Registry.find?_of_register hreg tagShape List.mem_cons_self
    obtain rfl : tagShape = shape := Option.some.inj (htag.symm.trans hfind)
    exact ⟨hdistinct, hdeclared⟩

/-- The callee binds its arguments and draws its text. -/
theorem document_tagCaller {arguments : List Argument} (hload : library.load = .ok base)
    (hreg : base.register (tagCaller arguments) true = .ok r) :
    (tagCaller arguments).document library =
      ((Reference.bindAll [] tagShape ⟨"tag", arguments, .origin⟩ >>= fun bound =>
        Reference.block ⟨r, stackLimit⟩ ["tag"] bound tagShape.body).mapError
          fun e => Failure.problem (.eval e)).map documentOf := by
  have hroom : ([] : List String).length < stackLimit := by decide
  have hsvg : "tag" ≠ svgName := by decide
  have htag := Registry.find?_of_register hreg tagShape List.mem_cons_self
  have hfind := Registry.find?_of_register hreg _ (List.mem_cons_of_mem _ List.mem_cons_self)
  obtain ⟨m, _, hm, hdoc⟩ := document_of_register hload hreg
  obtain rfl := Option.some.inj (hfind.symm.trans hm)
  rw [hdoc, Reference.block_singleton rfl, Reference.call_of_shape hroom hsvg htag]
  rfl

theorem document_tagCaller_good (hload : library.load = .ok base)
    (hreg : base.register (tagCaller goodArguments) true = .ok r) :
    (tagCaller goodArguments).document library = .ok (documentOf "3pt") := by
  have htag : (["tag"] : List String).length < stackLimit := by decide
  let bound : Scope := [("text", .string "3"), ("unit", .string "pt")]
  have hbind : Reference.bindAll [] tagShape ⟨"tag", goodArguments, .origin⟩ = .ok bound := rfl
  have hbody : Reference.block ⟨r, stackLimit⟩ ["tag"] bound tagShape.body = .ok "3pt" := by
    rw [Reference.block_singleton rfl, Reference.call_of_svg htag rfl]
    rfl
  rw [document_tagCaller hload hreg, hbind]
  show ((Reference.block ⟨r, stackLimit⟩ ["tag"] bound tagShape.body).mapError _).map _ = _
  rw [hbody]
  rfl

theorem document_tagCaller_bad (hload : library.load = .ok base)
    (hreg : base.register (tagCaller badArguments) true = .ok r) :
    (tagCaller badArguments).document library =
      .error (.problem (.eval ⟨.variableNotDefined "width", .origin⟩)) := by
  have hbind : Reference.bindAll [] tagShape ⟨"tag", badArguments, .origin⟩ =
      .error ⟨.variableNotDefined "width", .origin⟩ := rfl
  rw [document_tagCaller hload hreg, hbind]
  rfl

/-- With the builtin library the one program has its document and the other
its problem in both orders. -/
theorem tagCaller_ignores_argument_order :
    ∃ base, LibraryText.builtin.load = .ok base ∧
      (tagCaller goodArguments).Reordered (tagCaller goodArguments.reverse) ∧
      (tagCaller goodArguments.reverse).document .builtin = .ok (documentOf "3pt") ∧
      (tagCaller badArguments).Reordered (tagCaller badArguments.reverse) ∧
      (tagCaller badArguments.reverse).document .builtin =
        .error (.problem (.eval ⟨.variableNotDefined "width", .origin⟩)) := by
  obtain ⟨base, hload, hnames, _⟩ := builtin_load
  obtain ⟨r, hreg⟩ := register_tagCaller hnames goodArguments
  obtain ⟨r', hreg'⟩ := register_tagCaller hnames badArguments
  have hgood := tagCaller_reordered goodArguments.reverse_perm.symm
  have hbad := tagCaller_reordered badArguments.reverse_perm.symm
  have hdocument := (document_ignores_argument_order hload hgood).1 (documentOf "3pt")
  have hproblem := (document_ignores_argument_order hload hbad).2 fun _ =>
    tagCaller_addresses (by decide) (by decide)
  refine ⟨base, hload, hgood, hdocument.mp (document_tagCaller_good hload hreg), hbad, ?_⟩
  rw [← hproblem]
  exact document_tagCaller_bad hload hreg'

end Programs

end ShapeScript
