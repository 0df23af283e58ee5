/-
ShapeScript.Proofs.Editor.KnownShapes — the editor knows the shapes that
calls run.

Registering a program and collecting what a document declares are two walks
over the same declarations, which part where a name is taken: registering
gives up, and the editor keeps what it has and goes on. So a program that
registers is known as it is registered (`Registry.declareNew_of_declare`).
Of any other program the editor knows the first declaration of each name
that the library does not have (`Registry.find?_declareNew`).

`knownShapes_of_document` says this for all documents. What comes of it in
one that compiles is that the signature shown for a name is that of the
shape which a call by that name runs.
-/
import ShapeScript.Editor
import ShapeScript.Proofs.Document.Positions
import ShapeScript.Proofs.Editor.Word
import ShapeScript.Proofs.Session.Declarations

namespace ShapeScript

/-! ## Collecting declarations -/

namespace Registry

variable {r r' : Registry} {shape : Shape} {shapes : List Shape} {name : String}

theorem isSome_find?_of_contains (h : r.contains name) : (r.find? name).isSome := by
  rwa [find?, List.find?_isSome, ← List.any_eq_true]

/-- One declaration is found if nothing was there under its name. -/
theorem find?_insertNew (shape : Shape) :
    (if r.contains shape.name then r else r.insert shape).find? name =
      (r.find? name).or (if shape.name == name then some shape else none) := by
  split
  · rename_i htaken
    split
    · rename_i hname
      obtain rfl := beq_iff_eq.mp hname
      obtain ⟨s, hs⟩ := Option.isSome_iff_exists.mp (isSome_find?_of_contains htaken)
      rw [hs, Option.some_or]
    · rw [Option.or_none]
  · rw [find?, insert, List.find?_append, List.find?_singleton, find?]

/-- What is found under a name was there before, or else is the first
declaration of it. -/
theorem find?_declareNew :
    (declareNew shapes r).find? name = (r.find? name).or (shapes.find? (·.name == name)) := by
  induction shapes generalizing r with
  | nil => rw [declareNew, List.find?_nil, Option.or_none]
  | cons shape shapes ih =>
    rw [declareNew, ih, find?_insertNew, Option.or_assoc, List.find?_cons]
    cases shape.name == name <;> rfl

/-- No name is taken twice. -/
theorem nodup_declareNew (h : (r.shapes.map Shape.name).Nodup) :
    ((declareNew shapes r).shapes.map Shape.name).Nodup := by
  induction shapes generalizing r with
  | nil => exact h
  | cons shape shapes ih =>
    rw [declareNew]
    split
    · exact ih h
    · rename_i hfree
      have hnew : shape.name ∉ r.shapes.map Shape.name := by
        rw [List.mem_map, not_exists]
        exact fun s hs => contains_eq_false.mp (Bool.eq_false_iff.mpr hfree) s hs.1 hs.2
      refine ih ?_
      rw [insert, List.map_append, List.map_singleton]
      exact List.nodup_append_comm.mp (List.nodup_cons.mpr ⟨hnew, h⟩)

/-- Shapes that are registered are all new. -/
theorem declareNew_of_declare (h : declare shapes r = .ok r') : declareNew shapes r = r' := by
  induction shapes generalizing r with
  | nil => exact Except.ok.inj h
  | cons shape shapes ih =>
    rw [declare] at h
    split at h
    · cases h
    · rename_i hfree
      rw [declareNew, if_neg hfree]
      exact ih h

theorem declare_of_register {p : Program} {requireMain : Bool}
    (h : r.register p requireMain = .ok r') : declare p.shapes r = .ok r' := by
  obtain ⟨hr, hnodup, hfree, -⟩ := register_requiring_eq_ok_iff.mp h
  exact declare_eq_ok_iff.mpr ⟨hr, hnodup, hfree⟩

end Registry

/-! ## The library -/

theorem builtinRegistry_eq {base : Registry} (hload : LibraryText.builtin.load = .ok base) :
    builtinRegistry = base := by
  rw [builtinRegistry, hload]
  rfl

theorem names_of_builtin : builtinRegistry.shapes.map Shape.name = builtinNames := by
  obtain ⟨base, hload, hnames, -⟩ := builtin_load
  rw [builtinRegistry_eq hload, hnames]

theorem nodup_builtin : (builtinRegistry.shapes.map Shape.name).Nodup := by
  rw [names_of_builtin]
  decide

theorem find?_builtin_eq_none {name : String} (h : name ∉ builtinNames) :
    builtinRegistry.find? name = none := by
  refine Registry.find?_eq_none_of_contains (Registry.contains_eq_false.mpr fun b hb hname => h ?_)
  rw [← names_of_builtin, ← hname]
  exact List.mem_map_of_mem hb

/-! ## Documents -/

/-- The document writes the program. -/
def Writes (document : String) (p : Program) : Prop :=
  ∃ ts, scan document = .ok ts ∧ parseProgram ts = .ok p

/-- The document writes the program, and over the registry it is run. -/
structure Registers (document : String) (p : Program) (r : Registry) : Prop where
  writes : ∃ ts, scan document = .ok ts ∧ parseProgram ts = .ok p
  registers : builtinRegistry.register p true = .ok r

section Documents

open Editor

variable {document : String} {p : Program} {r : Registry}

theorem knownShapes_of_writes (h : Writes document p) (builtin : Registry) :
    knownShapes builtin document = Registry.declareNew p.shapes builtin := by
  obtain ⟨ts, hscan, hparse⟩ := h
  simp only [knownShapes, tokensOf_of_ok hscan, hparse]

theorem knownShapes_of_not_writes (h : ∀ p, ¬ Writes document p) (builtin : Registry) :
    knownShapes builtin document = builtin := by
  cases htokens : tokensOf document with
  | error e => simp only [knownShapes, htokens]
  | ok ts =>
    cases hparse : parseProgram ts with
    | error e => simp only [knownShapes, htokens, hparse]
    | ok p => exact absurd ⟨ts, mapError_eq_ok.mp htokens, hparse⟩ (h p)

theorem registers_of_compile {svg : String} (h : compile .builtin document = .ok svg) :
    ∃ p r, Registers document p r := by
  obtain ⟨base, hload, -⟩ := builtin_load
  obtain ⟨_, -, ts, p, hscan, hparse, hdocument⟩ | ⟨e, herror, -⟩ := compile_outcome hload document
  · cases hregister : base.register p true with
    | error e =>
      rw [document_of_register_error hload hregister] at hdocument
      cases hdocument
    | ok r => exact ⟨p, r, ⟨ts, hscan, hparse⟩, by rwa [builtinRegistry_eq hload]⟩
  · rw [herror] at h
    cases h

namespace Registers

/-- The editor knows just the shapes that are registered. -/
theorem knownShapes_eq (h : Registers document p r) : knownShapes builtinRegistry document = r := by
  rw [knownShapes_of_writes h.writes]
  exact Registry.declareNew_of_declare (Registry.declare_of_register h.registers)

theorem hoverText_eq (h : Registers document p r) {name : String} (hsvg : name ≠ svgName) :
    hoverText builtinRegistry document name =
      (r.find? name).map fun shape => codeBlock shape.signature := by
  rw [hoverText, if_neg hsvg, h.knownShapes_eq]

/-- Hovering over a name, from before it to behind it, shows what is known
of that name. -/
theorem hoverAt_eq (h : Registers document p r) {name : String} {t : Token} {a b n : Nat}
    (hname : t.lexeme = .identifier name) (hstands : Occupies document t a b) (hlow : a ≤ n)
    (hhigh : n ≤ b) {place : Place} (hplace : place.Names document.toList n) :
    hoverAt builtinRegistry document place = some (hoverText builtinRegistry document name) := by
  obtain ⟨ts, hscan, hparse⟩ := h.writes
  have hready := Cursor.ready_start hscan hparse
  have hword := wordAt_of_occupies hready hname hstands hlow hhigh hplace
  obtain ⟨i, j, hreads, -⟩ := hstands
  obtain ⟨w, hw⟩ := hreads.denotes
  rw [hname] at hw
  obtain ⟨rfl, ⟨c, hc, -⟩, -⟩ := denotes_identifier hw
  have hne : name ≠ "" := by
    rintro rfl
    cases hc
  rw [hoverAt, hword, Option.map_some, if_neg hne]

/-- What is shown for the callee of a call is the signature of the shape
that the call runs; nothing is shown if there is no such shape. -/
theorem hoverText_of_call (h : Registers document p r) {c : Call} (hsvg : c.callee ≠ svgName)
    {s : Session} (hregistry : s.registry = r) (hroom : s.stack.length < s.limit) :
    (∃ shape, r.find? c.callee = some shape ∧
      hoverText builtinRegistry document c.callee = some (codeBlock shape.signature) ∧
      s.call c = s.runShape shape c) ∨
    (r.find? c.callee = none ∧ hoverText builtinRegistry document c.callee = none ∧
      s.call c = (.error ⟨.shapeNotDefined c.callee, c.pos⟩, s)) := by
  have htext := h.hoverText_eq hsvg
  subst hregistry
  cases hfind : s.registry.find? c.callee with
  | none =>
    rw [hfind, Option.map_none] at htext
    exact .inr ⟨rfl, htext, Session.call_of_undefined hroom hsvg hfind⟩
  | some shape =>
    rw [hfind, Option.map_some] at htext
    exact .inl ⟨shape, rfl, htext, Session.call_eq_runShape hroom hsvg hfind⟩

end Registers

/-- What the editor knows of a document. If it writes a program that
registers on the library, with or without being required to have a `main`,
the editor has the same registry. If it writes another program, the editor
has different names, finds each shape of the library under its name, and
under any other name the first declaration of it. If it writes none, the
editor has the library. So in a document that compiles, hovering at any
place of a name, other than `svg`, shows what is known of that name, and
that is the signature of the shape that a call by that name runs. -/
theorem knownShapes_of_document (document : String) :
    (∀ p requireMain r, Writes document p → builtinRegistry.register p requireMain = .ok r →
      knownShapes builtinRegistry document = r) ∧
    (∀ p requireMain e, Writes document p → builtinRegistry.register p requireMain = .error e →
      ((knownShapes builtinRegistry document).shapes.map Shape.name).Nodup ∧
      (∀ b ∈ builtinRegistry.shapes,
        (knownShapes builtinRegistry document).find? b.name = some b) ∧
      ∀ name, name ∉ builtinNames → (knownShapes builtinRegistry document).find? name =
        p.shapes.find? (·.name == name)) ∧
    ((∀ p, ¬ Writes document p) → knownShapes builtinRegistry document = builtinRegistry) ∧
    ∀ svg, compile .builtin document = .ok svg → ∃ p r, Registers document p r ∧
      ∀ c : Call, c.callee ≠ svgName →
        (∀ t a b n, t.lexeme = .identifier c.callee → Occupies document t a b → a ≤ n → n ≤ b →
          ∀ place : Place, place.Names document.toList n →
            hoverAt builtinRegistry document place =
              some (hoverText builtinRegistry document c.callee)) ∧
        ∀ s : Session, s.registry = r → s.stack.length < s.limit →
          (∃ shape, r.find? c.callee = some shape ∧
            hoverText builtinRegistry document c.callee = some (codeBlock shape.signature) ∧
            s.call c = s.runShape shape c) ∨
          (r.find? c.callee = none ∧ hoverText builtinRegistry document c.callee = none ∧
            s.call c = (.error ⟨.shapeNotDefined c.callee, c.pos⟩, s)) := by
  refine ⟨fun p requireMain r hwrites hregister => ?_, fun p requireMain e hwrites _ => ?_,
    fun hnone => knownShapes_of_not_writes hnone _, fun svg hcompile => ?_⟩
  · rw [knownShapes_of_writes hwrites]
    exact Registry.declareNew_of_declare (Registry.declare_of_register hregister)
  · rw [knownShapes_of_writes hwrites]
    refine ⟨Registry.nodup_declareNew nodup_builtin, fun b hb => ?_, fun name hname => ?_⟩
    · rw [Registry.find?_declareNew, Registry.find?_of_mem nodup_builtin hb, Option.some_or]
    · rw [Registry.find?_declareNew, find?_builtin_eq_none hname, Option.none_or]
  · obtain ⟨p, r, hregisters⟩ := registers_of_compile hcompile
    exact ⟨p, r, hregisters, fun c hsvg =>
      ⟨fun t a b n hname hstands hlow hhigh _ => hregisters.hoverAt_eq hname hstands hlow hhigh,
        fun s => hregisters.hoverText_of_call hsvg⟩⟩

/-! ## A document that compiles and one that does not -/

/-- What is checked of the program that characters write holds of the
registered one. -/
theorem Registers.of_chars {cs : List Char} (h : Registers (.ofList cs) p r) {Q : Program → Prop}
    [DecidablePred Q] (hQ : (programOfChars cs).any fun p => decide (Q p)) : Q p := by
  obtain ⟨p', hp', hchecked⟩ := Option.any_eq_true _ _ |>.mp hQ
  obtain ⟨ts, hscan, hparse⟩ := h.writes
  obtain ⟨ts', hscan', hparse'⟩ := parse_ofList hp'
  obtain rfl := Except.ok.inj (hscan.symm.trans hscan')
  obtain rfl := Except.ok.inj (hparse.symm.trans hparse')
  exact of_decide_eq_true hchecked

/-- A shape under a name of its own. -/
def oneDot : String := "shape dot(x) \x7b\x7d shape main() \x7b\x7d"

/-- Two shapes under one name. -/
def twoDots : String := "shape dot(x) \x7b\x7d shape dot(y) \x7b\x7d"

def oneDotChars : { cs : List Char // oneDot = .ofList cs } := ⟨_, rfl⟩

def twoDotsChars : { cs : List Char // twoDots = .ofList cs } := ⟨_, rfl⟩

/-- The first shape called `dot` has the parameter `x`. -/
def declaresDot (p : Program) : Bool :=
  (p.shapes.find? (·.name == "dot")).any (·.parameterNames == ["x"])

theorem exists_dot (h : declaresDot p) : ∃ shape, p.shapes.find? (·.name == "dot") = some shape ∧
    shape.parameterNames = ["x"] := by
  obtain ⟨shape, hfind, hparameters⟩ := (Option.any_eq_true _ _).mp h
  exact ⟨shape, hfind, beq_iff_eq.mp hparameters⟩

theorem compilesTo_oneDot : compilesTo (oneDotChars.1, documentOf "") = true := by
  decide +kernel

theorem oneDot_declaresDot : (programOfChars oneDotChars.1).any declaresDot = true := by
  decide +kernel

theorem twoDots_declaresDot : (programOfChars twoDotsChars.1).any (fun p =>
    declaresDot p && !(p.shapes.map Shape.name).Nodup) = true := by
  decide +kernel

/-- The session of a body of `main`. -/
def inMain (r : Registry) : Session := ⟨r, stackLimit, [mainName], []⟩

/-- `dot()`. -/
def dotCall : Call := ⟨"dot", [], .origin⟩

/-- The one shape is known and run. Of the two, the first is known. -/
theorem dots_are_known :
    (compile .builtin oneDot = .ok (documentOf "") ∧ ∃ p r shape, Registers oneDot p r ∧
      shape.parameterNames = ["x"] ∧
      hoverText builtinRegistry oneDot "dot" = some (codeBlock shape.signature) ∧
      (inMain r).call dotCall = (inMain r).runShape shape dotCall) ∧
    ∃ p e shape, Writes twoDots p ∧ builtinRegistry.register p true = .error e ∧
      (knownShapes builtinRegistry twoDots).find? "dot" = some shape ∧
      shape.parameterNames = ["x"] := by
  have hbuiltin : "dot" ∉ builtinNames := by decide
  constructor
  · have hcompile := compile_of_compilesTo compilesTo_oneDot
    rw [← oneDotChars.2] at hcompile
    obtain ⟨-, -, -, hcompiles⟩ := knownShapes_of_document oneDot
    obtain ⟨p, r, hregisters, hcalls⟩ := hcompiles _ hcompile
    have hdot : declaresDot p := (oneDotChars.2 ▸ hregisters).of_chars
      (Q := fun p => declaresDot p) (by simpa using oneDot_declaresDot)
    obtain ⟨shape, hfind, hparameters⟩ := exists_dot hdot
    have hregistered : r.find? "dot" = some shape := by
      rw [← hregisters.knownShapes_eq, knownShapes_of_writes hregisters.writes,
        Registry.find?_declareNew, find?_builtin_eq_none hbuiltin, Option.none_or, hfind]
    have hroom : ((inMain r).stack.length : Int) < (inMain r).limit :=
      show (1 : Int) < stackLimit by decide
    obtain ⟨-, hruns⟩ := hcalls dotCall (by decide)
    obtain ⟨shape', hfind', htext, hrun⟩ | ⟨hnone, -⟩ := hruns (inMain r) rfl hroom
    · obtain rfl := Option.some.inj (hregistered.symm.trans hfind')
      exact ⟨hcompile, p, r, shape, hregisters, hparameters, htext, hrun⟩
    · exact absurd (hregistered.symm.trans hnone) (Option.some_ne_none shape)
  · obtain ⟨p, hp, hchecked⟩ := (Option.any_eq_true _ _).mp twoDots_declaresDot
    obtain ⟨hdot, hrepeated⟩ := Bool.and_eq_true_iff.mp hchecked
    obtain ⟨shape, hfind, hparameters⟩ := exists_dot hdot
    have hwrites : Writes twoDots p := by
      rw [Writes, twoDotsChars.2]
      exact parse_ofList hp
    obtain ⟨-, hrejected, -⟩ := knownShapes_of_document twoDots
    cases hregister : builtinRegistry.register p true with
    | error e =>
      obtain ⟨-, -, hfirst⟩ := hrejected p true e hwrites hregister
      exact ⟨p, e, shape, hwrites, hregister, (hfirst _ hbuiltin).trans hfind, hparameters⟩
    | ok r =>
      obtain ⟨-, hnodup, -⟩ := Registry.register_eq_ok_iff.mp hregister
      simp [hnodup] at hrepeated

end Documents

end ShapeScript
