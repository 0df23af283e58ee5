/-
ShapeScript.Proofs.Library.Loading — loading the library again and again.

What reading the library gives can change from one call to the next. A call
on its own is told by two relations, of which exactly one holds:
`LibraryText.Gives` says which registry a text makes, and
`LibraryText.FailsWith` which failure there is instead. The stage that a
failure names is the first that does not get through, because each rule of
`LibraryText.StopsAt` asks that the stages before it do.

A cache that keeps a registry answers every call with it
(`loadAll_of_kept`), and one that keeps nothing is as fresh after a failure
as it was before (`loadAll_of_failing`). So a run has failures up to the
first call that loads, and one registry from there on
(`library_kept_from_first_success`).
-/
import ShapeScript.Proofs.Document.Totality
import ShapeScript.Proofs.Registry.Runs

namespace ShapeScript

/-! ## One call -/

namespace LibraryText

/-- Loading the library stops at a stage, after it got through the stages
before that. -/
inductive StopsAt : LibraryText → LoadStage → Prop
  | reading : StopsAt .unreadable .reading
  | lexing {text : String} {e : ScanFailure} (hscan : scan text = .error e) :
      StopsAt (.source text) .lexing
  | parsing {text : String} {ts : List Token} {e : ParseError} (hscan : scan text = .ok ts)
      (hparse : parseProgram ts = .error e) : StopsAt (.source text) .parsing
  | registering {text : String} {ts : List Token} {p : Program} (hscan : scan text = .ok ts)
      (hparse : parseProgram ts = .ok p) (hnames : ¬ (p.shapes.map Shape.name).Nodup) :
      StopsAt (.source text) .registering

/-- The failure of a library that does not load: it lies at the origin and
names the stage, unless reading the text failed in a way that is not the
library's. -/
inductive FailsWith : LibraryText → Failure → Prop
  | stage {library : LibraryText} {stage : LoadStage} (hstops : library.StopsAt stage) :
      FailsWith library (.problem (.eval ⟨.libraryNotLoaded stage, ⟨0, 0⟩⟩))
  | other (message : String) : FailsWith (.failing message) (.unforeseen message)

/-- The library loads: its text is a program whose shapes have different
names, and the registry has these shapes in their order. -/
structure Gives (library : LibraryText) (r : Registry) : Prop where
  declared : ∃ text ts p, library = .source text ∧ scan text = .ok ts ∧
    parseProgram ts = .ok p ∧ r.shapes = p.shapes
  distinct : r.names.Nodup

/-- No names are taken at first, so only those of the program have to
differ. -/
theorem admits_empty {shapes : List Shape} :
    Registry.empty.Admits shapes ↔ (shapes.map Shape.name).Nodup :=
  ⟨fun h => h.distinct, fun h => ⟨h, fun _ _ => List.not_mem_nil⟩⟩

/-- A call without a registry that is kept gives one or fails. -/
theorem load_cases (library : LibraryText) :
    (∃ r, library.load = .ok r ∧ library.Gives r) ∨
      ∃ f, library.load = .error f ∧ library.FailsWith f := by
  cases library with
  | unreadable => exact .inr ⟨_, rfl, .stage .reading⟩
  | failing message => exact .inr ⟨_, rfl, .other message⟩
  | source text =>
    rw [load, tokensOf]
    cases hscan : scan text with
    | error e =>
      cases e with
      | problem e => exact .inr ⟨_, rfl, .stage (.lexing hscan)⟩
      | malformedNumber s => exact absurd hscan (scan_ne_malformedNumber text s)
    | ok ts =>
      dsimp only [Except.mapError]
      cases hparse : parseProgram ts with
      | error e => exact .inr ⟨_, rfl, .stage (.parsing hscan hparse)⟩
      | ok p =>
        dsimp only
        cases hregister : Registry.empty.register p false with
        | error e =>
          refine .inr ⟨_, rfl, .stage (.registering hscan hparse fun hnames => ?_)⟩
          have haccepted : Registry.empty.register p false = .ok ⟨[] ++ p.shapes⟩ :=
            Registry.register_accepts_iff.mpr ⟨rfl, admits_empty.mpr hnames, by simp⟩
          rw [haccepted] at hregister
          cases hregister
        | ok r =>
          obtain ⟨rfl, hadmitted, _⟩ := Registry.register_accepts_iff.mp hregister
          exact .inl ⟨_, rfl, ⟨text, ts, p, rfl, hscan, hparse, rfl⟩, admits_empty.mp hadmitted⟩

/-- A library that fails gives nothing. -/
theorem FailsWith.not_gives {library : LibraryText} {f : Failure} {r : Registry}
    (h : library.FailsWith f) : ¬ library.Gives r := by
  rintro ⟨⟨text, ts, p, rfl, hscan, hparse, hshapes⟩, hdistinct⟩
  cases h with
  | stage hstops =>
    cases hstops with
    | lexing hscan' => simp [hscan] at hscan'
    | parsing hscan' hparse' =>
      obtain rfl := Except.ok.inj (hscan.symm.trans hscan')
      simp [hparse] at hparse'
    | registering hscan' hparse' hnames =>
      obtain rfl := Except.ok.inj (hscan.symm.trans hscan')
      obtain rfl := Except.ok.inj (hparse.symm.trans hparse')
      rw [Registry.names, hshapes] at hdistinct
      exact hnames hdistinct

end LibraryText

/-! ## Runs -/

namespace LibraryCache

/-- The answers to calls that are made one after another, given what
reading the library gives at each. -/
def loadAll (cache : LibraryCache) : List LibraryText → List (Except Failure Registry)
  | [] => []
  | library :: calls => (cache.load library).1 :: (cache.load library).2.loadAll calls

theorem loadAll_of_kept (r : Registry) (calls : List LibraryText) :
    (⟨some r⟩ : LibraryCache).loadAll calls = List.replicate calls.length (.ok r) := by
  induction calls with
  | nil => rfl
  | cons library calls ih =>
    rw [List.length_cons, List.replicate_succ, loadAll]
    exact congrArg _ ih

theorem loadAll_of_failing {library : LibraryText} {f : Failure} (h : library.load = .error f)
    (calls : List LibraryText) :
    fresh.loadAll (library :: calls) = .error f :: fresh.loadAll calls := by
  have hload : fresh.load library = (.error f, fresh) := by
    rw [load, fresh]
    dsimp only
    rw [h]
  rw [loadAll, hload]

theorem loadAll_of_loading {library : LibraryText} {r : Registry} (h : library.load = .ok r)
    (calls : List LibraryText) :
    fresh.loadAll (library :: calls) = List.replicate (calls.length + 1) (.ok r) := by
  have hload : fresh.load library = (.ok r, ⟨some r⟩) := by
    rw [load, fresh]
    dsimp only
    rw [h]
  rw [loadAll, hload, loadAll_of_kept, List.replicate_succ]

end LibraryCache

/-- Loading remembers a success and nothing else. Of calls on a fresh cache,
whatever reading the library gives at each, either none loads, and then
each fails for what was read at that call; or there is a first that loads,
the calls before it fail for what was read at each of them, and that call
and all that follow give the one registry that it loads. -/
theorem library_kept_from_first_success (calls : List LibraryText) :
    (∃ failures, LibraryCache.fresh.loadAll calls = failures.map .error ∧
      List.Forall₂ LibraryText.FailsWith calls failures ∧
      ∀ library ∈ calls, ∀ r, ¬ library.Gives r) ∨
    ∃ before first after failures r, calls = before ++ first :: after ∧
      LibraryCache.fresh.loadAll calls =
        failures.map .error ++ List.replicate (after.length + 1) (.ok r) ∧
      List.Forall₂ LibraryText.FailsWith before failures ∧
      (∀ library ∈ before, ∀ r, ¬ library.Gives r) ∧ first.Gives r := by
  induction calls with
  | nil => exact .inl ⟨[], rfl, .nil, by simp⟩
  | cons library calls ih =>
    obtain ⟨r, hload, hgives⟩ | ⟨f, hload, hfails⟩ := library.load_cases
    · refine .inr ⟨[], library, calls, [], r, rfl, ?_, .nil, by simp, hgives⟩
      exact LibraryCache.loadAll_of_loading hload calls
    have hnone : ∀ r, ¬ library.Gives r := fun r => hfails.not_gives
    rw [LibraryCache.loadAll_of_failing hload]
    obtain ⟨failures, hall, hrest, hothers⟩ |
      ⟨before, first, after, failures, r, rfl, hall, hrest, hothers, hgives⟩ := ih
    · refine .inl ⟨f :: failures, ?_, .cons hfails hrest, List.forall_mem_cons.mpr ⟨hnone, hothers⟩⟩
      rw [hall, List.map_cons]
    · refine .inr ⟨library :: before, first, after, f :: failures, r, rfl, ?_, .cons hfails hrest,
        List.forall_mem_cons.mpr ⟨hnone, hothers⟩, hgives⟩
      rw [hall, List.map_cons, List.cons_append]

end ShapeScript
