/-
ShapeScript.Proofs.Pipeline — the bookkeeping of a run.

What a run gives and what it records depend on its stages alone. They are
applied in turn (`Stage.give`), each to what the one before it gave, so a
stage that fails makes all that follow fail in the same way. A run
therefore records what its stages give as far as they give something, and
its answer is that of its last stage.

Saving touches nothing but the disk and what is printed. Recording a
product is thus a step on the record and, if its artifact is to be saved,
one on the disk (`record_eq`), and recording products in order is both
kinds of steps in order (`recordAll_eq`). Where artifacts are saved does
not change while a run writes, since writing leaves the working directory
as it is.
-/
import ShapeScript.Proofs.Disk
import ShapeScript.Proofs.Fallible
import ShapeScript.Pipeline

namespace ShapeScript

/-! ## Stages in turn -/

/-- The stages up to and including one. -/
def Stage.upTo : Stage → List Stage
  | tokens => [.tokens]
  | tree => [.tokens, .tree]
  | document => [.tokens, .tree, .document]

/-- What a stage gives for a source if the stages before it are applied to
the source in turn. -/
def Stage.give (source : String) (library : LibraryText) : Stage → Except Failure Product
  | tokens => (tokensOf source).map .tokens
  | tree => do
    let ts ← tokensOf source
    (programOf ts).map .tree
  | document => do
    let ts ← tokensOf source
    let program ← programOf ts
    (program.document library).map .document

/-- The stage that a run stops after: the one that it was asked for by
name, or else the last of all. -/
def Pipeline.lastStage (p : Pipeline) : Stage :=
  (Stage.document.upTo.find? p.stopsAfter).getD .document

/-- The products of the stages of a run, up to the first that fails. -/
def Pipeline.products (p : Pipeline) : List Product :=
  p.lastStage.upTo.filterMap fun stage => (stage.give p.source p.library).toOption

/-- The start of a run. -/
def Progress.start (disk : Disk) : Progress := ⟨[], [], disk, ""⟩

/-! ## Writing -/

namespace Disk

variable {d : Disk} {path text : String}

/-- The disk after a text was to be written to a file: a disk that refuses
that stays as it is. -/
def attempt (d : Disk) (path text : String) : Disk := (d.write path text).toOption.getD d

/-- Either the disk refuses, or the text is put at the path. -/
theorem attempt_cases (d : Disk) (path text : String) :
    d.attempt path text = d ∨ d.attempt path text = d.put path (.file text.toUTF8) := by
  unfold attempt write
  split
  · exact .inl rfl
  · split
    · exact .inl rfl
    · split
      · exact .inl rfl
      · exact .inr rfl

@[simp] theorem workingDirectory_attempt (d : Disk) (path text : String) :
    (d.attempt path text).workingDirectory = d.workingDirectory := by
  obtain h | h := d.attempt_cases path text <;> rw [h]
  rfl

/-- Writing to a file leaves what stands at other places. -/
theorem entry?_attempt {other : String} (h : placeOf other ≠ placeOf path) :
    Disk.entry? (d.attempt path text) other = d.entry? other := by
  obtain hrefused | hput := d.attempt_cases path text
  · rw [hrefused]
  · rw [hput, entry?_put_of_ne h]

end Disk

namespace Pipeline

variable (p : Pipeline) {disk disk' : Disk} {s : Progress} {x : Product}

theorem artifactPath_congr (h : disk.workingDirectory = disk'.workingDirectory) (stage : Stage) :
    p.artifactPath disk stage = p.artifactPath disk' stage := by
  simp only [artifactPath, Disk.absolute, h]

theorem isStuck_congr (h : disk.workingDirectory = disk'.workingDirectory) (stage : Stage) :
    p.isStuck disk stage = p.isStuck disk' stage := by
  simp only [isStuck, p.artifactPath_congr h]

/-- The absolute path that the artifact of a stage is written to. -/
def artifactFile (disk : Disk) (stage : Stage) : String :=
  disk.absolute (p.artifactPath disk stage)

theorem artifactFile_congr (h : disk.workingDirectory = disk'.workingDirectory) (stage : Stage) :
    p.artifactFile disk stage = p.artifactFile disk' stage := by
  simp only [artifactFile, Disk.absolute, p.artifactPath_congr h, h]

/-! ## Saving and recording -/

theorem disk_save (x : Product) (s : Progress) : (p.save x s).disk =
    s.disk.attempt (p.artifactFile s.disk x.stage) (x.artifact.text artifactLayout) := by
  unfold save Disk.attempt artifactFile
  dsimp only
  split <;> rename_i h <;> rw [h] <;> rfl

theorem workingDirectory_save (x : Product) (s : Progress) :
    (p.save x s).disk.workingDirectory = s.disk.workingDirectory := by
  rw [disk_save, Disk.workingDirectory_attempt]

/-- Saving does not look at the record. -/
theorem save_with (x : Product) (s : Progress) (results : List Product)
    (artifacts : List (String × Product)) :
    p.save x { s with results := results, artifacts := artifacts } =
      { p.save x s with results := results, artifacts := artifacts } := by
  unfold save
  dsimp only
  split <;> rfl

/-- The artifact of a product is to be saved. -/
def wants (x : Product) : Bool := p.saved.contains x.stage.name

/-- The products of a run whose artifacts are to be saved. -/
def attempted : List Product := p.products.filter p.wants

/-- Saves artifacts in order. -/
def saveAll (xs : List Product) (s : Progress) : Progress := xs.foldl (fun s x => p.save x s) s

theorem saveAll_with (xs : List Product) (s : Progress) (results : List Product)
    (artifacts : List (String × Product)) :
    p.saveAll xs { s with results := results, artifacts := artifacts } =
      { p.saveAll xs s with results := results, artifacts := artifacts } := by
  induction xs generalizing s with
  | nil => rfl
  | cons x xs ih =>
    rw [saveAll, List.foldl_cons, ← saveAll, save_with, ih, saveAll, saveAll, List.foldl_cons]

/-- The files written to are those of the artifacts, at the places where
they are saved at first. -/
theorem disk_saveAll (xs : List Product) (s : Progress) :
    (p.saveAll xs s).disk = xs.foldl (fun disk x =>
      disk.attempt (p.artifactFile s.disk x.stage) (x.artifact.text artifactLayout)) s.disk := by
  induction xs generalizing s with
  | nil => rfl
  | cons x xs ih =>
    simp only [saveAll, List.foldl_cons, ← disk_save] at ih ⊢
    simp only [ih, p.artifactFile_congr (p.workingDirectory_save x s)]

/-- Records products in order. -/
def recordAll (xs : List Product) (s : Progress) : Progress := xs.foldl (fun s x => p.record x s) s

theorem record_eq (x : Product) (s : Progress) :
    p.record x s = { p.saveAll ([x].filter p.wants) s with
      results := s.results ++ [x]
      artifacts := Json.setMember s.artifacts x.stage.name x } := by
  by_cases h : p.wants x
  · rw [List.filter_cons_of_pos h, List.filter_nil, record, ← wants, if_pos h, save_with, saveAll,
      List.foldl_cons, List.foldl_nil]
  · rw [List.filter_cons_of_neg h, List.filter_nil, record, ← wants, if_neg h, saveAll,
      List.foldl_nil]

theorem recordAll_eq (xs : List Product) (s : Progress) :
    p.recordAll xs s = { p.saveAll (xs.filter p.wants) s with
      results := s.results ++ xs
      artifacts := xs.foldl (fun kept x => Json.setMember kept x.stage.name x) s.artifacts } := by
  induction xs generalizing s with
  | nil => simp [recordAll, saveAll]
  | cons x xs ih =>
    have hsaved : p.saveAll ((x :: xs).filter p.wants) s =
        p.saveAll (xs.filter p.wants) (p.saveAll ([x].filter p.wants) s) := by
      simp only [saveAll, ← List.foldl_append, ← List.filter_append, List.singleton_append]
    rw [recordAll, List.foldl_cons, ← recordAll, ih, record_eq, saveAll_with, hsaved,
      List.append_assoc, List.singleton_append, List.foldl_cons]

@[simp] theorem workingDirectory_recordAll (xs : List Product) (s : Progress) :
    (p.recordAll xs s).disk.workingDirectory = s.disk.workingDirectory := by
  have hsaves : ∀ xs s, (p.saveAll xs s).disk.workingDirectory = s.disk.workingDirectory := by
    intro xs
    induction xs with
    | nil => exact fun _ => rfl
    | cons x xs ih =>
      intro s
      rw [saveAll, List.foldl_cons, ← saveAll, ih, workingDirectory_save]
  rw [recordAll_eq]
  exact hsaves _ s

end Pipeline

/-- Products whose stages are all different are kept in order. -/
theorem foldl_setMember {xs : List Product} (hxs : (xs.map fun x => x.stage.name).Nodup)
    {kept : List (String × Product)} (hkept : ∀ x ∈ xs, x.stage.name ∉ kept.map Prod.fst) :
    xs.foldl (fun kept x => Json.setMember kept x.stage.name x) kept =
      kept ++ xs.map fun x => (x.stage.name, x) := by
  induction xs generalizing kept with
  | nil => simp
  | cons x xs ih =>
    obtain ⟨hx, hxs⟩ := List.nodup_cons.mp hxs
    rw [List.foldl_cons, Json.setMember_eq_append (hkept x List.mem_cons_self), ih hxs, List.map_cons,
      List.append_assoc, List.singleton_append]
    intro y hy
    have hne : y.stage.name ≠ x.stage.name := fun h => hx (List.mem_map.mpr ⟨y, hy, h⟩)
    simpa [hne] using hkept y (List.mem_cons_of_mem x hy)

/-! ## The run -/

theorem Stage.give_stage {source : String} {library : LibraryText} {stage : Stage} {x : Product}
    (h : stage.give source library = .ok x) : x.stage = stage := by
  cases stage with
  | tokens =>
    obtain ⟨_, _, rfl⟩ := map_eq_ok.mp h
    rfl
  | tree =>
    obtain ⟨_, _, h⟩ := bind_eq_ok.mp h
    obtain ⟨_, _, rfl⟩ := map_eq_ok.mp h
    rfl
  | document =>
    obtain ⟨_, _, h⟩ := bind_eq_ok.mp h
    obtain ⟨_, _, h⟩ := bind_eq_ok.mp h
    obtain ⟨_, _, rfl⟩ := map_eq_ok.mp h
    rfl

theorem Stage.tokens_mem_upTo (stage : Stage) : Stage.tokens ∈ stage.upTo := by
  cases stage <;> simp [Stage.upTo]

/-- Where a stage fails, the stages after it fail in the same way. -/
theorem Stage.give_eq_error {source : String} {library : LibraryText} {stage later : Stage}
    {f : Failure} (hlater : stage ∈ later.upTo) (h : stage.give source library = .error f) :
    later.give source library = .error f := by
  cases stage with
  | tokens =>
    have htokens := map_eq_error.mp h
    cases later with
    | tokens => exact h
    | tree => exact bind_eq_error.mpr (.inl htokens)
    | document => exact bind_eq_error.mpr (.inl htokens)
  | tree =>
    cases later with
    | tokens => cases List.mem_singleton.mp hlater
    | tree => exact h
    | document =>
      obtain htokens | ⟨ts, htokens, hprogram⟩ := bind_eq_error.mp h
      · exact bind_eq_error.mpr (.inl htokens)
      · exact bind_eq_error.mpr
          (.inr ⟨ts, htokens, bind_eq_error.mpr (.inl (map_eq_error.mp hprogram))⟩)
  | document =>
    cases later with
    | tokens => cases List.mem_singleton.mp hlater
    | tree => simp [Stage.upTo] at hlater
    | document => exact h

namespace Pipeline

variable (p : Pipeline) {disk disk' : Disk} {s : Progress} {x : Product}

theorem lastStage_eq : p.lastStage =
    if p.stopsAfter .tokens then .tokens else if p.stopsAfter .tree then .tree else .document := by
  unfold lastStage Stage.upTo
  cases h : p.stopsAfter .tokens <;> cases h' : p.stopsAfter .tree <;>
    cases h'' : p.stopsAfter .document <;> simp [h, h', h'']

theorem products_names : (p.products.map fun x => x.stage.name).Nodup := by
  have hstages : p.products.map Product.stage |>.Sublist p.lastStage.upTo := by
    unfold products
    induction p.lastStage.upTo with
    | nil => exact .slnil
    | cons stage stages ih =>
      cases h : stage.give p.source p.library with
      | error f => simpa [h, Except.toOption] using ih.cons stage
      | ok x => simpa [h, Except.toOption, Stage.give_stage h] using ih
  have hnames : (p.lastStage.upTo.map Stage.name).Nodup := by
    cases p.lastStage <;> decide
  have hsub := hstages.map Stage.name
  rw [List.map_map] at hsub
  exact hnames.sublist hsub

/-- A run that stops early has the products of a run to the end, as many
as it has stages at most. -/
theorem products_take : p.products =
    ({ p with stopAfter := none }.products).take p.lastStage.upTo.length := by
  have hlast : { p with stopAfter := none }.lastStage = .document := rfl
  rw [products, products, hlast]
  dsimp only
  cases hfirst : Stage.tokens.give p.source p.library with
  | error f =>
    have hfails : ∀ stage : Stage, stage.give p.source p.library = .error f := fun stage =>
      Stage.give_eq_error stage.tokens_mem_upTo hfirst
    simp [hfails, Except.toOption]
  | ok x =>
    cases hsecond : Stage.tree.give p.source p.library with
    | error f =>
      have hthird : Stage.document.give p.source p.library = .error f :=
        Stage.give_eq_error (by simp [Stage.upTo]) hsecond
      cases p.lastStage <;> simp [Stage.upTo, hfirst, hsecond, hthird, Except.toOption]
    | ok y =>
      cases hthird : Stage.document.give p.source p.library <;> cases p.lastStage <;>
        simp [Stage.upTo, hfirst, hsecond, hthird, Except.toOption]

section Step

variable {xs : List Product} {rest : Progress → Except Failure Product × Progress}

theorem andThen_recordAll (hstuck : ∀ stage, p.isStuck disk stage = false) :
    p.andThen x (p.recordAll xs (.start disk)) rest =
      if p.stopsAfter x.stage then (.ok x, p.recordAll (xs ++ [x]) (.start disk))
      else rest (p.recordAll (xs ++ [x]) (.start disk)) := by
  have hx : p.isStuck (p.recordAll xs (.start disk)).disk x.stage = false := by
    rw [p.isStuck_congr (p.workingDirectory_recordAll xs _)]
    exact hstuck x.stage
  have hrecord : p.recordAll (xs ++ [x]) (.start disk) =
      p.record x (p.recordAll xs (.start disk)) := by
    rw [recordAll, List.foldl_append]
    rfl
  rw [andThen, hx, hrecord]
  rfl

end Step

theorem run_eq (hstuck : ∀ stage, p.isStuck disk stage = false) :
    p.run disk = ((p.lastStage.give p.source p.library).mapError Failure.settle,
      p.recordAll p.products (.start disk)) := by
  have hbegin : (⟨[], [], disk, ""⟩ : Progress) = p.recordAll [] (.start disk) := rfl
  rw [run, hbegin, products, lastStage_eq]
  cases htokens : tokensOf p.source with
  | error f =>
    have hfirst : Stage.tokens.give p.source p.library = .error f := by
      simp [Stage.give, htokens, Except.map]
    have hfails : ∀ stage : Stage, stage.give p.source p.library = .error f := fun stage =>
      Stage.give_eq_error stage.tokens_mem_upTo hfirst
    simp [hfails, Except.mapError, Except.toOption]
  | ok ts =>
    have hfirst : Stage.tokens.give p.source p.library = .ok (.tokens ts) := by
      simp [Stage.give, htokens, Except.map]
    dsimp only
    rw [p.andThen_recordAll hstuck, Product.stage]
    by_cases hstop : p.stopsAfter .tokens
    · simp [hstop, hfirst, Stage.upTo, Except.mapError, Except.toOption]
    rw [if_neg hstop, if_neg hstop]
    cases hprogram : programOf ts with
    | error f =>
      have hsecond : Stage.tree.give p.source p.library = .error f := by
        simp [Stage.give, htokens, hprogram, Except.map, Bind.bind, Except.bind]
      have hthird : Stage.document.give p.source p.library = .error f :=
        Stage.give_eq_error (by simp [Stage.upTo]) hsecond
      by_cases hstop' : p.stopsAfter .tree <;>
        simp [hstop', hfirst, hsecond, hthird, Stage.upTo, Except.mapError, Except.toOption]
    | ok program =>
      have hsecond : Stage.tree.give p.source p.library = .ok (.tree program) := by
        simp [Stage.give, htokens, hprogram, Except.map, Bind.bind, Except.bind]
      dsimp only
      rw [p.andThen_recordAll hstuck, Product.stage]
      by_cases hstop' : p.stopsAfter .tree
      · simp [hstop', hfirst, hsecond, Stage.upTo, Except.mapError, Except.toOption]
      rw [if_neg hstop', if_neg hstop']
      have hthird : Stage.document.give p.source p.library =
          (program.document p.library).map .document := by
        simp [Stage.give, htokens, hprogram, Bind.bind, Except.bind]
      cases hdocument : program.document p.library with
      | error f =>
        simp [hdocument, hfirst, hsecond, hthird, Stage.upTo, Except.map, Except.mapError,
          Except.toOption]
      | ok svg =>
        dsimp only
        rw [p.andThen_recordAll hstuck, ite_self]
        simp [hdocument, hfirst, hsecond, hthird, Stage.upTo, Except.map, Except.mapError,
          Except.toOption]

theorem entry?_foldl_attempt {xs : List Product} {d : Disk} {path : String}
    (hpath : ∀ x ∈ xs, Disk.placeOf path ≠ Disk.placeOf (p.artifactFile disk x.stage)) :
    Disk.entry? (xs.foldl (fun disk' x => disk'.attempt (p.artifactFile disk x.stage)
      (x.artifact.text artifactLayout)) d) path = d.entry? path := by
  induction xs generalizing d with
  | nil => rfl
  | cons x xs ih =>
    rw [List.foldl_cons, ih fun y hy => hpath y (List.mem_cons_of_mem x hy)]
    exact Disk.entry?_attempt (hpath x List.mem_cons_self)

/-- The bookkeeping of a run is exact, and saving is harmless. As long as
the names of artifact files are paths, whether or not the disk takes them,
a run answers what its last stage gives, as it does if nothing is saved.
It records what its stages give up to the first that fails, by name and in
order, and attempts to write the artifacts of exactly those products that
are to be saved, and no other file. A run that stops early has the record
of a run to the end, up to where it stops. -/
theorem run_bookkeeping (hfiles : ∀ stage, p.isStuck disk stage = false) :
    (p.run disk).1 = (p.lastStage.give p.source p.library).mapError Failure.settle ∧
    (∀ disk', (p.run disk).1 = ({ p with saved := [] }.run disk').1) ∧
    (p.run disk).2.results = p.products ∧
    (p.run disk).2.artifacts = p.products.map (fun x => (x.stage.name, x)) ∧
    (p.run disk).2.disk = p.attempted.foldl (fun disk' x =>
      disk'.attempt (p.artifactFile disk x.stage) (x.artifact.text artifactLayout)) disk ∧
    (p.run disk).2.printed = (p.saveAll p.attempted (.start disk)).printed ∧
    (∀ path, (∀ x ∈ p.attempted, Disk.placeOf path ≠ Disk.placeOf (p.artifactFile disk x.stage)) →
      Disk.entry? (p.run disk).2.disk path = disk.entry? path) ∧
    (p.run disk).2.artifacts =
      ({ p with stopAfter := none }.run disk).2.artifacts.take p.lastStage.upTo.length := by
  have hrecord : ∀ q : Pipeline, (∀ stage, q.isStuck disk stage = false) →
      (q.run disk).2 = ⟨q.products, q.products.map (fun x => (x.stage.name, x)),
        (q.saveAll q.attempted (.start disk)).disk,
        (q.saveAll q.attempted (.start disk)).printed⟩ := by
    intro q hq
    rw [q.run_eq hq, recordAll_eq]
    dsimp only [Progress.start]
    rw [foldl_setMember q.products_names (by simp)]
    rfl
  have hwritten : (p.run disk).2.disk = p.attempted.foldl (fun disk' x =>
      disk'.attempt (p.artifactFile disk x.stage) (x.artifact.text artifactLayout)) disk := by
    rw [hrecord p hfiles]
    exact p.disk_saveAll _ _
  have hunsaved : ∀ disk' stage, { p with saved := [] }.isStuck disk' stage = false :=
    fun _ _ => rfl
  refine ⟨?_, fun disk' => ?_, ?_, ?_, hwritten, ?_, fun path hpath => ?_, ?_⟩
  · rw [p.run_eq hfiles]
  · rw [p.run_eq hfiles, run_eq _ (hunsaved disk')]
    rfl
  · rw [hrecord p hfiles]
  · rw [hrecord p hfiles]
  · rw [hrecord p hfiles]
  · rw [hwritten]
    exact p.entry?_foldl_attempt hpath
  · rw [hrecord p hfiles, hrecord { p with stopAfter := none } hfiles, products_take,
      List.map_take]

/-- A run that saves the tokens and is asked for a stage that there is not.
-/
def savedTokens : Pipeline :=
  ⟨"shape main() \x7b \x7d", some "figures/main.shape", ["tokens", "png"], none, .unreadable⟩

/-- It answers and records the same as if it did not save them. -/
theorem savedTokens_bookkeeping :
    (∀ stage, savedTokens.isStuck ⟨"/home", []⟩ stage = false) ∧
      (savedTokens.run ⟨"/home", []⟩).1 = ({ savedTokens with saved := [] }.run ⟨"/home", []⟩).1 ∧
        (savedTokens.run ⟨"/home", []⟩).2.results = savedTokens.products := by
  have hfiles : ∀ stage, savedTokens.isStuck ⟨"/home", []⟩ stage = false := by
    rintro ⟨⟩ <;> decide +kernel
  obtain ⟨_, hanswer, hresults, _⟩ := savedTokens.run_bookkeeping hfiles
  exact ⟨hfiles, hanswer _, hresults⟩

end Pipeline

end ShapeScript
