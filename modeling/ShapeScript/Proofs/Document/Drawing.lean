/-
ShapeScript.Proofs.Document.Drawing — what a document is made of.

Only calls of `svg` put anything into a document. `Reference.Draws` says
which texts the calls of a body draw: a call of `svg` its string, a call of
a shape what the calls in the shape's body draw, and the calls of a body
what each of them draws, from the first to the last. That is the order of
the call tree, depth first; `Moment.Run` is the order of time. There the
texts are collected along the steps of a run, one for every call of `svg`
that is entered, and `Draws.run` says that the two orders are the same.

So a document consists of its opening tag, the texts of the calls of `svg`
that its program executes, in the order in which it does, and its closing
tag: `document_eq_ok_iff`. Texts are neither looked into nor changed on the
way, and since the statement is an equivalence, a program that can draw has
a document.
-/
import ShapeScript.Proofs.Session.Moments

namespace ShapeScript

/-! ## Definitions -/

/-- Calls that a body makes inside the calls named by `frames`, with the
body's scope, draw the texts, in this order. -/
inductive Reference.Draws (g : Setting) :
    List String → Scope → List Call → List String → Prop
  | nil (frames : List String) (scope : Scope) : Reference.Draws g frames scope [] []
  | svg {frames : List String} {scope : Scope} {c : Call} {a : Argument} {text : String}
      {calls : List Call} {texts : List String} (hfits : frames.length < g.limit)
      (hsvg : c.callee = svgName) (harguments : c.arguments = [a]) (hname : a.name = svgArgument)
      (hvalue : a.value.evaluate scope = .ok (.string text))
      (hrest : Reference.Draws g frames scope calls texts) :
      Reference.Draws g frames scope (c :: calls) (text :: texts)
  | shape {frames : List String} {scope bound : Scope} {c : Call} {shape : Shape}
      {calls : List Call} {inner texts : List String} (hfits : frames.length < g.limit)
      (hsvg : c.callee ≠ svgName) (hfind : g.registry.find? c.callee = some shape)
      (hbind : bindArguments scope shape c = .ok bound)
      (hbody : Reference.Draws g (frames ++ [c.callee]) bound shape.body.calls inner)
      (hrest : Reference.Draws g frames scope calls texts) :
      Reference.Draws g frames scope (c :: calls) (inner ++ texts)

namespace Moment

/-- The text that the next step draws, if it does: the step that enters a
call of `svg` for which there is a place on the stack. -/
def drawn : Moment → List String
  | ⟨s, .enter c, _⟩ =>
    if c.callee = svgName ∧ s.stack.length ≤ s.limit then (svgText s.scope c).toOption.toList
    else []
  | _ => []

/-- The steps from the one moment to the other draw the texts, in this
order. -/
inductive Run : Moment → List String → Moment → Prop
  | refl (m : Moment) : Run m [] m
  | head {m m' last : Moment} {texts : List String} (hstep : m' ∈ m.next)
      (hrest : Run m' texts last) : Run m (m.drawn ++ texts) last

end Moment

/-! ## Drawing and the evaluator -/

namespace Reference

variable {g : Setting} {frames : List String} {scope : Scope} {c : Call} {calls : List Call}

/-- The call draws the texts, whatever is called after it. -/
def DrawsFirst (g : Setting) (frames : List String) (scope : Scope) (c : Call)
    (texts : List String) : Prop :=
  ∀ calls more, Draws g frames scope calls more →
    Draws g frames scope (c :: calls) (texts ++ more)

theorem draws_of_mapM {outcomes : List String}
    (hcall : ∀ c text, call g frames scope c = .ok text →
      ∃ texts, DrawsFirst g frames scope c texts ∧ String.join texts = text)
    (h : calls.mapM (call g frames scope) = .ok outcomes) :
    ∃ texts, Draws g frames scope calls texts ∧ String.join texts = String.join outcomes := by
  induction calls generalizing outcomes with
  | nil =>
    obtain rfl := Except.ok.inj h
    exact ⟨[], .nil frames scope, rfl⟩
  | cons c calls ih =>
    rw [List.mapM_cons, bind_eq_ok] at h
    obtain ⟨text, hc, h⟩ := h
    obtain ⟨rest, hcalls, h⟩ := bind_eq_ok.mp h
    obtain rfl := Except.ok.inj h
    obtain ⟨texts, hfirst, htexts⟩ := hcall c text hc
    obtain ⟨more, hdraws, hmore⟩ := ih hcalls
    refine ⟨texts ++ more, hfirst calls more hdraws, ?_⟩
    rw [String.join_append, String.join_cons, htexts, hmore]

/-- A call that gives a text draws it. -/
theorem drawsFirst_of_call {text : String} (h : call g frames scope c = .ok text) :
    ∃ texts, DrawsFirst g frames scope c texts ∧ String.join texts = text := by
  induction frames, scope, c using call.induct g generalizing text with
  | case1 frames scope c hfull =>
    rw [call_of_full (limit_lt_snoc.mp hfull)] at h
    cases h
  | case2 frames scope c hfits hsvg =>
    have hroom := not_limit_lt_snoc.mp hfits
    rw [call_of_svg hroom hsvg] at h
    obtain ⟨a, harguments, hname, hvalue⟩ := svg_eq_ok h
    rw [← evaluate_eq_value] at hvalue
    refine ⟨[text], fun calls more hmore => ?_, by simp [String.join_cons]⟩
    exact .svg hroom hsvg harguments hname hvalue hmore
  | case3 frames scope c hfits hsvg hfind =>
    rw [call_of_undefined (not_limit_lt_snoc.mp hfits) hsvg hfind] at h
    cases h
  | case4 frames scope c hfits hsvg shape hfind ih =>
    have hroom := not_limit_lt_snoc.mp hfits
    rw [call_of_shape hroom hsvg hfind] at h
    obtain ⟨bound, hbind, h⟩ := bind_eq_ok.mp h
    obtain ⟨outcomes, hbody, rfl⟩ := map_eq_ok.mp h
    obtain ⟨texts, hdraws, hjoin⟩ := draws_of_mapM (fun c text hc => ih bound c hc) hbody
    rw [← bindArguments_eq_bindAll] at hbind
    refine ⟨texts, fun calls more hmore => ?_, hjoin⟩
    exact .shape hroom hsvg hfind hbind hdraws hmore

theorem draws_of_block {b : Block} {text : String} (h : block g frames scope b = .ok text) :
    ∃ texts, Draws g frames scope b.calls texts ∧ String.join texts = text := by
  obtain ⟨outcomes, hcalls, rfl⟩ := map_eq_ok.mp h
  exact draws_of_mapM (fun c text hc => drawsFirst_of_call hc) hcalls

/-- A call of `svg` gives the text that it draws. -/
theorem call_of_drawing {a : Argument} {text : String} (hfits : frames.length < g.limit)
    (hsvg : c.callee = svgName) (harguments : c.arguments = [a]) (hname : a.name = svgArgument)
    (hvalue : a.value.evaluate scope = .ok (.string text)) :
    call g frames scope c = .ok text := by
  rw [evaluate_eq_value] at hvalue
  simp only [call_of_svg hfits hsvg, svg, harguments, if_pos hname, hvalue]
  rfl

/-- Calls that draw texts give them. -/
theorem Draws.mapM_eq_ok {texts : List String} (h : Draws g frames scope calls texts) :
    ∃ outcomes, calls.mapM (call g frames scope) = .ok outcomes ∧
      String.join outcomes = String.join texts := by
  induction h with
  | nil => exact ⟨[], rfl, rfl⟩
  | @svg frames scope c a text calls texts hfits hsvg harguments hname hvalue _ ih =>
    obtain ⟨outcomes, hcalls, hjoin⟩ := ih
    refine ⟨text :: outcomes, ?_, by rw [String.join_cons, String.join_cons, hjoin]⟩
    rw [List.mapM_cons, call_of_drawing hfits hsvg harguments hname hvalue, hcalls]
    rfl
  | @shape frames scope bound c shape calls inner texts hfits hsvg hfind hbind _ _ ihbody ih =>
    obtain ⟨body, hbody, hinner⟩ := ihbody
    obtain ⟨outcomes, hcalls, hjoin⟩ := ih
    rw [bindArguments_eq_bindAll] at hbind
    have hcall : call g frames scope c = .ok (String.join body) := by
      rw [call_of_shape hfits hsvg hfind, hbind]
      exact congrArg (Except.map String.join) hbody
    refine ⟨String.join body :: outcomes, ?_, ?_⟩
    · rw [List.mapM_cons, hcall, hcalls]
      rfl
    · rw [String.join_cons, String.join_append, hinner, hjoin]

theorem block_eq_ok_iff {b : Block} {text : String} :
    block g frames scope b = .ok text ↔
      ∃ texts, Draws g frames scope b.calls texts ∧ String.join texts = text := by
  constructor
  · exact draws_of_block
  · rintro ⟨texts, hdraws, rfl⟩
    obtain ⟨outcomes, hcalls, hjoin⟩ := hdraws.mapM_eq_ok
    exact map_eq_ok.mpr ⟨outcomes, hcalls, hjoin⟩

end Reference

/-! ## Drawing and the steps of a run -/

namespace Moment

variable {m m' last : Moment} {s : Session} {c : Call} {calls : List Call} {text : String}
  {texts : List String} {rs : List Resumption}

/-- A step that draws nothing. -/
theorem Run.quiet (hstep : m' ∈ m.next) (hdrawn : m.drawn = []) (hrest : Run m' texts last) :
    Run m texts last := by
  have hrun := Run.head hstep hrest
  rwa [hdrawn] at hrun

theorem Run.trans {more : List String} (h : Run m texts m') (h' : Run m' more last) :
    Run m (texts ++ more) last := by
  induction h with
  | refl => exact h'
  | head hstep _ ih =>
    rw [List.append_assoc]
    exact .head hstep (ih h')

/-- Making a call puts its name on the stack, and nothing is drawn yet. -/
theorem Run.call (hrest : Run ⟨s.push c.callee, .enter c, ⟨s.scope, calls, text⟩ :: rs⟩ texts last) :
    Run ⟨s, .run (c :: calls) text, rs⟩ texts last :=
  .quiet rfl rfl hrest

/-- Leaving a call draws nothing either. -/
theorem Run.leave {name : String} {bound : Scope} {more : String}
    (hrest : Run ⟨s, .run calls (text ++ more), rs⟩ texts last) :
    Run ⟨s.entered name bound, .run [] more, ⟨s.scope, calls, text⟩ :: rs⟩ texts last := by
  have hstep : ⟨s, .run calls (text ++ more), rs⟩ ∈
      next ⟨s.entered name bound, .run [] more, ⟨s.scope, calls, text⟩ :: rs⟩ := by
    simp [next]
  exact .quiet hstep rfl hrest

/-- A call of `svg` draws its text in one step. -/
theorem Run.draw {more : String} (hfits : s.stack.length < s.limit) (hsvg : c.callee = svgName)
    (hmore : svgText s.scope c = .ok more)
    (hrest : Run ⟨s, .run calls (text ++ more), rs⟩ texts last) :
    Run ⟨s, .run (c :: calls) text, rs⟩ (more :: texts) last := by
  have hplace : ¬ (s.push c.callee).limit < (s.push c.callee).stack.length :=
    Reference.not_limit_lt_snoc.mpr hfits
  have henter : (s.push c.callee).enter c = (s.push c.callee, .run [] more) := by
    rw [Session.enter_of_svg hplace hsvg, Session.push_scope, ← svgText_eq_svg, hmore]
    rfl
  have hdrawn : drawn ⟨s.push c.callee, .enter c, ⟨s.scope, calls, text⟩ :: rs⟩ = [more] := by
    rw [drawn, if_pos ⟨hsvg, Int.not_lt.mp hplace⟩, Session.push_scope, hmore]
    rfl
  have hstep : ⟨s.push c.callee, .run [] more, ⟨s.scope, calls, text⟩ :: rs⟩ ∈
      next ⟨s.push c.callee, .enter c, ⟨s.scope, calls, text⟩ :: rs⟩ := by
    simp [next, henter]
  have hleave : Run ⟨s.entered c.callee s.scope, .run [] more, ⟨s.scope, calls, text⟩ :: rs⟩ texts
      last := .leave hrest
  have hrun := Run.head hstep hleave
  rw [hdrawn] at hrun
  exact .call hrun

/-- A call of a shape draws what its body draws. -/
theorem Run.enter {shape : Shape} {bound : Scope} {inner : List String} {more : String}
    (hfits : s.stack.length < s.limit) (hsvg : c.callee ≠ svgName)
    (hfind : s.registry.find? c.callee = some shape)
    (hbind : bindArguments s.scope shape c = .ok bound)
    (hbody : Run ⟨s.entered c.callee bound, .run shape.body.calls "", ⟨s.scope, calls, text⟩ :: rs⟩
      inner ⟨s.entered c.callee bound, .run [] more, ⟨s.scope, calls, text⟩ :: rs⟩)
    (hrest : Run ⟨s, .run calls (text ++ more), rs⟩ texts last) :
    Run ⟨s, .run (c :: calls) text, rs⟩ (inner ++ texts) last := by
  have hplace : ¬ (s.push c.callee).limit < (s.push c.callee).stack.length :=
    Reference.not_limit_lt_snoc.mpr hfits
  have henter : (s.push c.callee).enter c =
      (s.entered c.callee bound, .run shape.body.calls "") := by
    rw [bindArguments_eq_bindAll] at hbind
    rw [Session.enter_of_bind_ok hplace hsvg hfind hbind, Session.entered]
  have hstep : ⟨s.entered c.callee bound, .run shape.body.calls "", ⟨s.scope, calls, text⟩ :: rs⟩ ∈
      next ⟨s.push c.callee, .enter c, ⟨s.scope, calls, text⟩ :: rs⟩ := by
    simp [next, henter]
  have hdrawn : drawn ⟨s.push c.callee, .enter c, ⟨s.scope, calls, text⟩ :: rs⟩ = [] := by
    simp [drawn, hsvg]
  exact .call (.quiet hstep hdrawn (hbody.trans (.leave hrest)))

end Moment

/-- The steps that run calls draw the texts in the order in which the calls
do, and come to their concatenation. -/
theorem Reference.Draws.run {r : Registry} {limit : Int} {frames : List String} {scope : Scope}
    {calls : List Call} {texts : List String} (h : Draws ⟨r, limit⟩ frames scope calls texts)
    (text : String) (rs : List Resumption) :
    Moment.Run ⟨⟨r, limit, frames, scope⟩, .run calls text, rs⟩ texts
      ⟨⟨r, limit, frames, scope⟩, .run [] (text ++ String.join texts), rs⟩ := by
  induction h generalizing text rs with
  | nil => simpa using Moment.Run.refl _
  | @svg frames scope c a drawn calls texts hfits hsvg harguments hname hvalue _ ih =>
    have hdrawn : svgText scope c = .ok drawn := by
      rw [evaluate_eq_value] at hvalue
      simp only [svgText_eq_svg, Reference.svg, harguments, if_pos hname, hvalue]
      rfl
    rw [String.join_cons, ← String.append_assoc]
    exact .draw hfits hsvg hdrawn (ih (text ++ drawn) rs)
  | @shape frames scope bound c shape calls inner texts hfits hsvg hfind hbind _ _ ihbody ih =>
    have hbody := ihbody "" (⟨scope, calls, text⟩ :: rs)
    rw [String.empty_append] at hbody
    rw [String.join_append, ← String.append_assoc]
    exact .enter hfits hsvg hfind hbind hbody (ih (text ++ String.join inner) rs)

/-! ## Documents -/

/-- A program with a document registers on the library. -/
theorem registers_of_document_ok {library : LibraryText} {p : Program} {svg : String}
    (h : p.document library = .ok svg) :
    ∃ base r, library.load = .ok base ∧ base.register p true = .ok r := by
  unfold Program.document at h
  split at h
  · cases h
  · rename_i base hload
    split at h
    · cases h
    · rename_i r hreg
      exact ⟨base, r, hload, hreg⟩

/-- A document is the trace of the calls of `svg`. A program has a document
exactly if the calls in the body of its `main` draw some texts. These are
the texts of the calls of `svg` that are executed, in the order of the call
tree and in that of the steps of the run; and the document is the opening
tag, the texts as they are, one after another, and the closing tag. -/
theorem document_eq_ok_iff (library : LibraryText) (p : Program) (svg : String) :
    p.document library = .ok svg ↔
      ∃ base r m texts, library.load = .ok base ∧ base.register p true = .ok r ∧
        r.find? mainName = some m ∧
        Reference.Draws ⟨r, stackLimit⟩ [] [] m.body.calls texts ∧
        Moment.Run (.start r.session m.body.calls) texts
          ⟨r.session, .run [] (String.join texts), []⟩ ∧
        svg = openingTag ++ String.join texts ++ closingTag := by
  constructor
  · intro hdoc
    obtain ⟨base, r, hload, hreg⟩ := registers_of_document_ok hdoc
    obtain ⟨m, _, hmain, hrun⟩ := document_of_register hload hreg
    obtain ⟨text, htext, rfl⟩ := map_eq_ok.mp (hrun.symm.trans hdoc)
    obtain ⟨texts, hdraws, rfl⟩ := Reference.block_eq_ok_iff.mp (mapError_eq_ok.mp htext)
    have hsteps := hdraws.run "" []
    rw [String.empty_append] at hsteps
    exact ⟨base, r, m, texts, hload, hreg, hmain, hdraws, hsteps, rfl⟩
  · rintro ⟨base, r, m, texts, hload, hreg, hmain, hdraws, _, rfl⟩
    obtain ⟨m', _, hmain', hrun⟩ := document_of_register hload hreg
    obtain rfl : m = m' := Option.some.inj (hmain.symm.trans hmain')
    rw [hrun, Reference.block_eq_ok_iff.mpr ⟨texts, hdraws, rfl⟩]
    rfl

end ShapeScript
