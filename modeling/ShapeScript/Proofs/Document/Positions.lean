/-
ShapeScript.Proofs.Document.Positions — where problems are reported.

A problem of the lexer lies at the character it is about, one of the
parser at a token or at the end of the last, and so does one of the
evaluator, with one exception. The builtin shapes are read from a text of
their own, and their bodies run on the same stack as everything else: if
the last free place was taken by the call of a builtin shape, the call of
`svg` in its body finds the stack full, and the overflow is reported at
that call, in the text of the library. `hostError_position` says that
this is the only way in which a position of another text is reported, and
`drawAndRecur` is a program that it happens to.

A tree that was read from tokens is alike to itself with positions in the
set of those that the tokens have; so what is proved of alike trees says
where its problems lie. The shapes of the library have other positions,
but they are painters, and only the stack stops those.
-/
import ShapeScript.Proofs.Alike.Evaluation
import ShapeScript.Proofs.Alike.Parsing
import ShapeScript.Proofs.Document
import ShapeScript.Proofs.Library.Builtin
import ShapeScript.Proofs.Session.Outcomes

namespace ShapeScript

/-! ## Definitions -/

/-- The positions of a token list: where its tokens start, and where it
ends. -/
def PositionOf (ts : List Token) (p : Position) : Prop := (∃ t ∈ ts, p = t.pos) ∨ p = endOf ts

/-- The positions of a source: that of the character that it cannot be
scanned at, or else those of its tokens. -/
inductive SourcePosition (source : String) : Position → Prop
  | character {before rest : List Char} {c : Char}
      (htext : Text.strip source.toList = before ++ c :: rest)
      (hscan : scan source =
        .error (.problem ⟨stuckAt c, Position.origin.over before (c :: rest)⟩)) :
      SourcePosition source (Position.origin.over before (c :: rest))
  | tokens {ts : List Token} {p : Position} (hscan : scan source = .ok ts)
      (hp : PositionOf ts p) : SourcePosition source p

/-- The call of `svg` in the body of one of the shapes overflows the
stack. -/
def EvalError.OverflowsIn (shapes : List Shape) (e : EvalError) : Prop :=
  ∃ s ∈ shapes, ∃ c ∈ s.body.calls, ∃ frames,
    c.callee = svgName ∧ e = ⟨.stackOverflow (frames ++ [s.name, svgName]), c.pos⟩

/-- Relates the positions in a set to all positions. What is alike to
itself under this relation has its positions in the set. -/
abbrev Inside (P : Position → Prop) : Position → Position → Prop := fun p _ => P p

theorem Agree.pos_of_error {P : Position → Prop} {φ α : Type} {V : α → α → Prop}
    {x x' : Except (Located φ) α} {e : Located φ} (h : Agree (Inside P) V x x')
    (he : x = .error e) : P e.pos := by
  cases h with
  | ok _ => cases he
  | error _ hpos =>
    obtain rfl := Except.error.inj he
    exact hpos

/-! ## Problems of a body -/

section Calls

variable {P : Position → Prop}

theorem Reference.pos_of_bindFails {scope : Scope} {shape : Shape} {c : Call} {e : EvalError}
    (h : BindFails scope shape c e) (hc : c.Alike (Inside P) c)
    (hshape : shape.Alike (Inside P) shape ∨ shape.isPainter) : P e.pos := by
  have harguments : ∀ a ∈ c.arguments, a.Alike (Inside P) a := List.forall₂_same.mp hc.arguments
  cases h with
  | undeclared ha _ => exact (harguments _ ha).pos
  | repeated ha _ => exact (harguments _ ha).pos
  | missing _ _ => exact hc.pos
  | @value p x e hp hchosen he =>
    unfold chosenExpr at hchosen
    split at hchosen
    · rename_i a ha
      obtain rfl := Option.some.inj hchosen
      have halike := (harguments a (List.mem_of_find?_eq_some ha)).value
      exact (value_alike halike scope).pos_of_error he
    · obtain hshape | hpainter := hshape
      · have hfallback := (List.forall₂_same.mp hshape.parameters p hp).fallback
        rw [hchosen] at hfallback
        cases hfallback with
        | some halike => exact (value_alike halike scope).pos_of_error he
      · obtain ⟨x', hx', hliteral⟩ := shape.fallback_of_isPainter hpainter hp
        obtain rfl := Option.some.inj (hchosen.symm.trans hx')
        obtain ⟨v, hv⟩ := value_of_isLiteral hliteral scope
        rw [hv] at he
        cases he

/-- When the shapes that can be called have their positions in a set or
are painters, a failure lies in the set or is an overflow in a painter. -/
theorem Reference.pos_of_fails {g : Setting} {painters : List Shape}
    (hshapes : ∀ s ∈ g.registry.shapes,
      s.Alike (Inside P) s ∨ s ∈ painters ∧ s.isPainter)
    {frames : List String} {scope : Scope} {c : Call} {e : EvalError}
    (h : Fails g frames scope c e) (hc : c.Alike (Inside P) c) :
    P e.pos ∨ EvalError.OverflowsIn painters e := by
  induction h with
  | overflow => exact .inl hc.pos
  | svg _ _ he => exact .inl ((svg_alike hc _).pos_of_error he)
  | undefined => exact .inl hc.pos
  | arguments _ _ hfind he =>
    have hshape := hshapes _ (Registry.mem_of_find?_eq_some hfind).1
    exact .inl (pos_of_bindFails he hc (hshape.imp_right And.right))
  | @body frames scope bound c inner shape e _ _ hfind hbind hinner h ih =>
    obtain ⟨hmem, hname⟩ := Registry.mem_of_find?_eq_some hfind
    obtain hshape | ⟨hpainters, hpainter⟩ := hshapes shape hmem
    · exact ih (List.forall₂_same.mp hshape.body.calls inner hinner)
    · -- the call in a painter's body is one of `svg` and has a text, so of the
      -- ways to fail only the full stack is left
      obtain ⟨hcallee, text, htext⟩ := svg_of_isPainter hpainter hbind hinner
      cases h with
      | overflow =>
        refine .inr ⟨shape, hpainters, inner, hinner, frames, hcallee, ?_⟩
        rw [hname, hcallee, List.append_assoc, List.singleton_append]
      | svg _ _ he =>
        rw [htext] at he
        cases he
      | undefined _ hsvg => exact absurd hcallee hsvg
      | arguments _ hsvg => exact absurd hcallee hsvg
      | body _ hsvg => exact absurd hcallee hsvg

end Calls

/-! ## Problems of a source -/

/-- What is read from tokens has their positions. -/
theorem parseProgram_alike_self (ts : List Token) :
    Agree (Inside (PositionOf ts)) (Program.Alike (Inside (PositionOf ts))) (parseProgram ts)
      (parseProgram ts) :=
  parseProgram_alike (List.forall₂_same.mpr fun t ht => ⟨rfl, .inl ⟨t, ht, rfl⟩⟩) (.inr rfl)

theorem pos_of_document_error {P : Position → Prop} {library : LibraryText} {base : Registry}
    {p : Program} {e : EvalError} (hload : library.load = .ok base)
    (hpainters : ∀ s ∈ base.shapes, s.isPainter) (hp : p.Alike (Inside P) p)
    (hdocument : p.document library = .error (.problem (.eval e))) :
    P e.pos ∨ e.OverflowsIn base.shapes := by
  have hshapes : ∀ s ∈ p.shapes, s.Alike (Inside P) s := List.forall₂_same.mp hp.shapes
  cases hreg : base.register p true with
  | error e' =>
    rw [document_of_register_error hload hreg] at hdocument
    cases hdocument
    obtain ⟨s, hs, rfl⟩ | rfl := Registry.register_eq_error hreg
    · exact .inl (hshapes s hs).pos
    · exact .inl hp.finish
  | ok r =>
    obtain ⟨m, hm, _, hblock⟩ := block_of_document_error hload hreg hdocument
    obtain ⟨c, hc, hfails⟩ := Reference.fails_of_block hblock
    refine Reference.pos_of_fails (fun s hs => ?_) hfails
      (List.forall₂_same.mp (hshapes m hm).body.calls c hc)
    rw [(Registry.register_eq_ok hreg).1] at hs
    rcases List.mem_append.mp hs with hs | hs
    · exact .inr ⟨hs, hpainters s hs⟩
    · exact .inl (hshapes s hs)

theorem FirstFailure.position {source : String} {base : Registry} {q : Problem}
    (h : FirstFailure .builtin source q) (hload : LibraryText.builtin.load = .ok base)
    (hpainters : ∀ s ∈ base.shapes, s.isPainter) :
    SourcePosition source q.pos ∨ ∃ e, q = .eval e ∧ e.OverflowsIn base.shapes := by
  cases h with
  | lex hscan =>
    obtain ⟨_, p, c, rest, hcut, _, hfailure⟩ := (scan_eq_error_iff source _).mp hscan
    cases hfailure
    obtain ⟨before, htext, rfl⟩ := hcut.exists_append
    exact .inl (.character htext hscan)
  | parse hscan hparse =>
    exact .inl (.tokens hscan ((parseProgram_alike_self _).pos_of_error hparse))
  | @eval ts p e hscan hparse hdocument =>
    have hself := parseProgram_alike_self ts
    rw [hparse] at hself
    cases hself with
    | ok hp =>
      obtain hpos | hover := pos_of_document_error hload hpainters hp hdocument
      · exact .inl (.tokens hscan hpos)
      · exact .inr ⟨e, rfl, hover⟩

theorem compileForHost_eq_error {library : LibraryText} {source : String} {answer : HostAnswer}
    {e : HostError} (h : compileForHost library source = .ok answer)
    (he : answer.error = some e) :
    ∃ q, compile library source = .error (.problem q) ∧ e = q.toHost := by
  unfold compileForHost at h
  split at h
  · obtain rfl := Except.ok.inj h
    cases he
  · rename_i q hcompile
    obtain rfl := Except.ok.inj h
    exact ⟨q, hcompile, (Option.some.inj he).symm⟩
  · cases h

/-- The errors that a host is told of lie at positions of the source,
except that an overflow at the call of `svg` in the body of a builtin
shape is reported where that call stands in the library. -/
theorem hostError_position {source : String} {answer : HostAnswer} {e : HostError}
    (h : compileForHost .builtin source = .ok answer) (he : answer.error = some e) :
    SourcePosition source ⟨e.line, e.column⟩ ∨
      ∃ base f, LibraryText.builtin.load = .ok base ∧ EvalError.OverflowsIn base.shapes f ∧
        e = (Problem.eval f).toHost := by
  obtain ⟨base, hload, _, hpainters⟩ := builtin_load
  obtain ⟨q, hcompile, rfl⟩ := compileForHost_eq_error h he
  obtain ⟨svg, hsvg, _⟩ | ⟨q', hq', hfirst⟩ := compile_outcome hload source
  · rw [hsvg] at hcompile
    cases hcompile
  · obtain rfl : q' = q := by
      rw [hq'] at hcompile
      cases hcompile
      rfl
    obtain hpos | ⟨f, rfl, hover⟩ := hfirst.position hload hpainters
    · exact .inl hpos
    · exact .inr ⟨base, f, hload, hover, rfl⟩

/-! ## A problem of a program that lies elsewhere -/

/-- The document of the program that characters write, with a library
given by characters too. -/
def documentOfChars (library source : List Char) : Option (Except Failure String) := do
  let shipped ← programOfChars library
  let base ← (Registry.empty.register shipped false).toOption
  let p ← programOfChars source
  let r ← (base.register p true).toOption
  return r.runMain.map documentOf

theorem compile_ofList {library source : List Char} {x : Except Failure String}
    (h : documentOfChars library source = some x) :
    compile (.source (.ofList library)) (.ofList source) = x.mapError Failure.settle := by
  simp only [documentOfChars, bind, Option.bind_eq_some_iff, toOption_eq_some] at h
  obtain ⟨shipped, hshipped, base, hbase, p, hp, r, hr, hx⟩ := h
  obtain ⟨ts, hscan, hparse⟩ := parse_ofList hp
  obtain rfl := Option.some.inj hx
  rw [compile_of_program hscan hparse]
  simp only [Program.document, load_ofList hshipped hbase, hr]

/-- The characters are compiled to the document. -/
def compilesTo (x : List Char × String) : Bool :=
  (documentOfChars builtinChars.1 x.1).any fun answer => answer.toOption == some x.2

theorem compile_of_compilesTo {source : List Char} {svg : String}
    (h : compilesTo (source, svg) = true) : compile .builtin (.ofList source) = .ok svg := by
  rw [compilesTo, Option.any_eq_true] at h
  obtain ⟨x, hx, hsvg⟩ := h
  obtain rfl := toOption_eq_some.mp (beq_iff_eq.mp hsvg)
  rw [LibraryText.builtin, builtinChars.2, compile_ofList hx]
  rfl

/-- Failing in evaluation, at a position. -/
def failsAt (p : Position) : Except Failure String → Bool
  | .error (.problem (.eval e)) => e.pos == p
  | _ => false

/-- A program on one line that draws a circle and then recurs. -/
def drawAndRecur : String := "shape a() \x7b circle() a() \x7d shape main() \x7b a() \x7d"

/-- Its characters. -/
def drawAndRecurChars : { cs : List Char // drawAndRecur = .ofList cs } := ⟨_, rfl⟩

set_option maxRecDepth 10000 in
theorem drawAndRecurChars_failsAt :
    (documentOfChars builtinChars.1 drawAndRecurChars.1).any (failsAt ⟨8, 2⟩) := by
  decide +kernel

theorem drawAndRecurChars_line : (tokensOfChars drawAndRecurChars.1).any fun ts =>
    ts.all (·.pos.line == 0) && (endOf ts).line == 0 := by
  decide +kernel

theorem compileForHost_drawAndRecur : ∃ e : EvalError,
    compileForHost .builtin drawAndRecur = .ok ⟨none, some (Problem.eval e).toHost⟩ ∧
      e.pos = ⟨8, 2⟩ := by
  have hfails := drawAndRecurChars_failsAt
  rw [Option.any_eq_true] at hfails
  obtain ⟨x, hx, hfails⟩ := hfails
  unfold failsAt at hfails
  split at hfails
  · rename_i e
    have hcompile : compile .builtin drawAndRecur = .error (.problem (.eval e)) := by
      rw [LibraryText.builtin, builtinChars.2, drawAndRecurChars.2, compile_ofList hx]
      rfl
    refine ⟨e, ?_, beq_iff_eq.mp hfails⟩
    rw [compileForHost, hcompile]
  · cases hfails

/-- Everything in that program stands on its first line. -/
theorem line_of_drawAndRecur {p : Position} (h : SourcePosition drawAndRecur p) : p.line = 0 := by
  have hlines := drawAndRecurChars_line
  rw [← scan_ofList, ← drawAndRecurChars.2, Option.any_eq_true] at hlines
  obtain ⟨ts, hts, hlines⟩ := hlines
  rw [toOption_eq_some] at hts
  rw [Bool.and_eq_true, List.all_eq_true] at hlines
  cases h with
  | character _ hscan =>
    rw [hts] at hscan
    cases hscan
  | tokens hscan hp =>
    rw [hts] at hscan
    cases hscan
    obtain ⟨t, ht, rfl⟩ | rfl := hp
    · exact beq_iff_eq.mp (hlines.1 t ht)
    · exact beq_iff_eq.mp hlines.2

theorem not_sourcePosition_drawAndRecur : ¬ SourcePosition drawAndRecur ⟨8, 2⟩ := by
  intro h
  cases line_of_drawAndRecur h

/-- The error of that program lies on a line that it does not have. -/
theorem drawAndRecur_points_outside : ∃ e,
    compileForHost .builtin drawAndRecur = .ok ⟨none, some e⟩ ∧
      (e.line, e.column) = (8, 2) ∧ ¬ SourcePosition drawAndRecur ⟨e.line, e.column⟩ := by
  obtain ⟨e, hcompile, hpos⟩ := compileForHost_drawAndRecur
  refine ⟨_, hcompile, ?_⟩
  simp only [Problem.toHost, Problem.pos, hpos]
  exact ⟨trivial, not_sourcePosition_drawAndRecur⟩

/-- The last call of `circle` finds room on the stack, and the call of
`svg` in its body does not. -/
theorem drawAndRecur_overflows_in_library : ∃ base e, LibraryText.builtin.load = .ok base ∧
    compileForHost .builtin drawAndRecur = .ok ⟨none, some (Problem.eval e).toHost⟩ ∧
      EvalError.OverflowsIn base.shapes e := by
  obtain ⟨e, hcompile, hpos⟩ := compileForHost_drawAndRecur
  obtain hsource | ⟨base, f, hload, hover, hf⟩ := hostError_position hcompile rfl
  · simp only [Problem.toHost, Problem.pos, hpos] at hsource
    exact absurd hsource not_sourcePosition_drawAndRecur
  · exact ⟨base, f, hload, hf ▸ hcompile, hover⟩

end ShapeScript
