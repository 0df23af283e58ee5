/-
ShapeScript.Proofs.Library.Builtin — the library that is shipped.

The builtin library loads, and all its shapes are painters: every
parameter has a literal as its default, and the body is one call of `svg`
with texts and parameters joined by `+`. `builtin_load` says so. It is
found by loading the library in the kernel; what painters do is then
proved of any painter: once its parameters are bound, the call in its
body gives a text, so nothing but the stack can stop it.

Taking a string literal apart is slow in the kernel, and what a scanner
reads are characters, so the text is turned into a list of them first.
-/
import ShapeScript.Library
import ShapeScript.Proofs.Registry
import ShapeScript.Proofs.Session.Binding

namespace ShapeScript

/-! ## Painters -/

/-- A number or a string as it is written. -/
def Expr.isLiteral : Expr → Bool
  | .number .. | .string .. => true
  | _ => false

/-- A string, or one of the names. -/
def Expr.isPiece (names : List String) : Expr → Bool
  | .string .. => true
  | .name n _ => names.contains n
  | _ => false

/-- Pieces joined by `+`, the first of which is a string. -/
def Expr.isConcatenation (names : List String) : Expr → Bool
  | .string .. => true
  | .binary left .plus right _ _ => left.isConcatenation names && right.isPiece names
  | _ => false

/-- A call of `svg` with one concatenation. -/
def Call.isPainting (names : List String) (c : Call) : Bool :=
  c.callee == svgName &&
    match c.arguments with
    | [a] => a.name == svgArgument && a.value.isConcatenation names
    | _ => false

/-- Every parameter defaults to a literal, and the body is one call of
`svg` with a concatenation of them. -/
def Shape.isPainter (s : Shape) : Bool :=
  s.parameters.all (fun p => p.fallback.any Expr.isLiteral) &&
    match s.body.calls with
    | [c] => c.isPainting s.parameterNames
    | _ => false

/-- What a painter's body is. -/
theorem Shape.body_of_isPainter {s : Shape} (h : s.isPainter) :
    ∃ c a, s.body.calls = [c] ∧ c.callee = svgName ∧ c.arguments = [a] ∧ a.name = svgArgument ∧
      a.value.isConcatenation s.parameterNames := by
  rw [isPainter, Bool.and_eq_true] at h
  obtain ⟨_, hbody⟩ := h
  split at hbody
  · rename_i c hcalls
    rw [Call.isPainting, Bool.and_eq_true, beq_iff_eq] at hbody
    obtain ⟨hcallee, hargument⟩ := hbody
    split at hargument
    · rename_i a harguments
      rw [Bool.and_eq_true, beq_iff_eq] at hargument
      exact ⟨c, a, hcalls, hcallee, harguments, hargument⟩
    · cases hargument
  · cases hbody

theorem Shape.fallback_of_isPainter {s : Shape} (h : s.isPainter) {p : Parameter}
    (hp : p ∈ s.parameters) : ∃ x, p.fallback = some x ∧ x.isLiteral := by
  rw [isPainter, Bool.and_eq_true, List.all_eq_true] at h
  exact Option.any_eq_true _ _ |>.mp (h.1 p hp)

namespace Reference

variable {scope : Scope} {names : List String}

theorem value_of_isLiteral {x : Expr} (h : x.isLiteral) (scope : Scope) :
    ∃ v, value scope x = .ok v := by
  cases x with
  | number y span => exact ⟨.number y, rfl⟩
  | string s span => exact ⟨.string s, rfl⟩
  | _ => cases h

theorem value_of_isPiece {x : Expr} (h : x.isPiece names)
    (hbound : ∀ n ∈ names, (scope.find? n).isSome) : ∃ v, value scope x = .ok v := by
  cases x with
  | string s span => exact ⟨.string s, rfl⟩
  | name n span =>
    obtain ⟨v, hv⟩ := Option.isSome_iff_exists.mp (hbound n (List.contains_iff_mem.mp h))
    exact ⟨v, by rw [value, hv]⟩
  | _ => cases h

/-- A concatenation of bound names is a string. -/
theorem value_of_isConcatenation {x : Expr} (h : x.isConcatenation names)
    (hbound : ∀ n ∈ names, (scope.find? n).isSome) : ∃ s, value scope x = .ok (.string s) := by
  fun_induction Expr.isConcatenation names x with
  | case1 s span => exact ⟨s, rfl⟩
  | case2 left right opPos span ih =>
    rw [Bool.and_eq_true] at h
    obtain ⟨s, hs⟩ := ih h.1
    obtain ⟨v, hv⟩ := value_of_isPiece h.2 hbound
    refine ⟨s ++ v.display, ?_⟩
    rw [value, hs]
    simp only [bind, Except.bind, hv]
    rfl
  | case3 => cases h

end Reference

/-! ## Painting -/

namespace Reference

variable {scope bound : Scope} {shape : Shape} {c : Call}

/-- The call in a painter's body is one of `svg`, and with the painter's
parameters bound it gives a text. -/
theorem svg_of_isPainter {inner : Call} (hpainter : shape.isPainter)
    (hbind : bindAll scope shape c = .ok bound) (hinner : inner ∈ shape.body.calls) :
    inner.callee = svgName ∧ ∃ text, svg bound inner = .ok text := by
  obtain ⟨c', a, hcalls, hcallee, harguments, hname, hvalue⟩ := shape.body_of_isPainter hpainter
  rw [hcalls, List.mem_singleton] at hinner
  subst hinner
  obtain ⟨s, hs⟩ := value_of_isConcatenation hvalue fun n => (binds_of_bindAll hbind n).mpr
  refine ⟨hcallee, s, ?_⟩
  simp only [svg, harguments, if_pos hname, hs]
  rfl

end Reference

/-! ## Loading -/

theorem append_eq_ofList {s t : String} {cs ds : List Char} (ht : t = .ofList ds)
    (hs : s = .ofList cs) : s ++ t = .ofList (cs ++ ds) := by
  rw [String.ofList_append, hs, ht]

set_option maxRecDepth 10000 in
/-- The characters of the library's text. -/
def builtinChars : { cs : List Char // builtinSource = .ofList cs } := by
  apply Subtype.mk
  unfold builtinSource
  iterate 44 apply append_eq_ofList rfl
  rfl

/-- The tokens of a text that is given by its characters. -/
def tokensOfChars (cs : List Char) : Option (List Token) :=
  (Cursor.tokens ⟨Text.strip cs, 0, .origin⟩).1.toOption

/-- The program that characters write, if they do. -/
def programOfChars (cs : List Char) : Option Program :=
  (tokensOfChars cs).bind fun ts => (parseProgram ts).toOption

theorem scan_ofList (cs : List Char) : (scan (.ofList cs)).toOption = tokensOfChars cs := by
  rw [scan, Cursor.start, String.toList_ofList, tokensOfChars]

theorem parse_ofList {cs : List Char} {p : Program} (h : programOfChars cs = some p) :
    ∃ ts, scan (.ofList cs) = .ok ts ∧ parseProgram ts = .ok p := by
  rw [programOfChars, Option.bind_eq_some_iff, ← scan_ofList] at h
  obtain ⟨ts, hscan, hparse⟩ := h
  exact ⟨ts, toOption_eq_some.mp hscan, toOption_eq_some.mp hparse⟩

theorem load_ofList {cs : List Char} {p : Program} {r : Registry}
    (hp : programOfChars cs = some p) (hr : Registry.empty.register p false = .ok r) :
    (LibraryText.source (.ofList cs)).load = .ok r := by
  obtain ⟨ts, hscan, hparse⟩ := parse_ofList hp
  have htokens : tokensOf (.ofList cs) = .ok ts := by
    rw [tokensOf, hscan]
    rfl
  simp only [LibraryText.load, htokens, hparse, hr]

/-- The names of the builtin shapes. -/
def builtinNames : List String := ["circle", "rect", "ellipse", "line"]

/-- The program registers without a `main`, and then its shapes are
painters with the builtin names. -/
def Program.isBuiltin (p : Program) : Bool :=
  match Registry.empty.register p false with
  | .error _ => false
  | .ok r => r.shapes.map Shape.name == builtinNames && r.shapes.all Shape.isPainter

set_option maxRecDepth 10000 in
theorem builtinChars_isBuiltin : (programOfChars builtinChars.1).any Program.isBuiltin := by
  decide +kernel

/-- The builtin library loads, and its shapes are painters. -/
theorem builtin_load : ∃ base, LibraryText.builtin.load = .ok base ∧
    base.shapes.map Shape.name = builtinNames ∧ ∀ s ∈ base.shapes, s.isPainter := by
  have hchecked := builtinChars_isBuiltin
  cases hp : programOfChars builtinChars.1 with
  | none =>
    rw [hp] at hchecked
    cases hchecked
  | some p =>
    rw [hp, Option.any_some, Program.isBuiltin] at hchecked
    split at hchecked
    · cases hchecked
    · rename_i r hr
      rw [Bool.and_eq_true, beq_iff_eq, List.all_eq_true] at hchecked
      refine ⟨r, ?_, hchecked⟩
      rw [LibraryText.builtin, builtinChars.2]
      exact load_ofList hp hr

/-- A program with a `main` registers on that library when its names are
different and none of them is builtin. -/
theorem register_of_builtin {base : Registry} {p : Program} {names : List String}
    (hnames : base.shapes.map Shape.name = builtinNames) (hp : p.shapes.map Shape.name = names)
    (hdistinct : (builtinNames ++ names).Nodup) (hmain : p.hasMain = true) :
    ∃ r, base.register p true = .ok r := by
  subst hp
  obtain ⟨_, hnodup, hother⟩ := List.nodup_append.mp hdistinct
  refine ⟨_, Registry.register_eq_ok_iff.mpr ⟨rfl, hnodup, fun s hs => ?_, hmain⟩⟩
  rw [Registry.contains_eq_false]
  intro b hb
  have hbuiltin : b.name ∈ builtinNames := hnames ▸ List.mem_map_of_mem hb
  exact hother b.name hbuiltin s.name (List.mem_map_of_mem hs)

end ShapeScript
