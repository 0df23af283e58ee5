/-
ShapeScript.Proofs.CommandLine.Output — a run touches its output only.

What a request asks for decides which file is written (`outputName`). A run
without a source, and one whose last stage fails, leave the disk as it is; a
run whose last stage gives something writes that file and no other
(`follows_carryOut`).

The output is not the input unless it was named so: an artifact has another
name, and the document's name is the input's only if that ends in `.svg`
(`outputFile_eq_input_iff`). So `ssc main.svg` writes over its source:
`svgFile_is_overwritten`.
-/
import ShapeScript.Proofs.CommandLine
import ShapeScript.Proofs.Disk.Frame
import ShapeScript.Proofs.Path

namespace ShapeScript

/-! ## Saving one artifact -/

namespace Pipeline

variable {p : Pipeline} {disk : Disk} {stage : Stage}

/-- If one stage is to be saved and is the last, its artifact is the only
one. -/
theorem attempted_of_saved (hsaved : p.saved = [stage.name]) (hlast : p.lastStage = stage) :
    p.attempted = (stage.give p.source p.library).toOption.toList := by
  have hwanted (other : Stage) : (other.give p.source p.library).toOption.filter p.wants =
      if other = stage then (other.give p.source p.library).toOption else none := by
    cases hgive : other.give p.source p.library with
    | error f => simp [Except.toOption]
    | ok x =>
      have hwants : p.wants x = decide (other = stage) := by
        rw [wants, hsaved, Stage.give_stage hgive]
        cases other <;> cases stage <;> rfl
      by_cases h : other = stage <;> simp [Except.toOption, Option.filter, hwants, h]
  rw [attempted, products, hlast, List.filter_filterMap]
  simp only [hwanted]
  cases hgive : stage.give p.source p.library <;> cases stage <;>
    simp [Stage.upTo, hgive, Except.toOption]

/-- Such a run writes the artifact if the stage gives something, and nothing
otherwise. -/
theorem run_of_saved (hsaved : p.saved = [stage.name]) (hlast : p.lastStage = stage)
    (hfiles : ∀ stage, p.isStuck disk stage = false) :
    (p.run disk).1 = (stage.give p.source p.library).mapError Failure.settle ∧
      (p.run disk).2.disk = (stage.give p.source p.library).toOption.elim disk fun x =>
        disk.attempt (p.artifactFile disk stage) (x.artifact.text artifactLayout) := by
  have hattempted := attempted_of_saved hsaved hlast
  rw [p.run_eq hfiles, recordAll_eq]
  refine ⟨by rw [hlast], ?_⟩
  dsimp only
  rw [← attempted, p.disk_saveAll, hattempted]
  cases hgive : stage.give p.source p.library with
  | error f => rfl
  | ok x =>
    simp only [Except.toOption, Option.toList_some, List.foldl_cons, List.foldl_nil,
      Option.elim_some, Progress.start, Stage.give_stage hgive]

end Pipeline

namespace CommandLine

/-! ## Definitions -/

/-- The text that a run compiles, if it comes to that. -/
def Request.source? (r : Request) (s : Surroundings) : Option String :=
  match r.file with
  | none => s.input.bind textOf
  | some path => (s.disk.read (s.disk.absolute path)).toOption.bind textOf

/-- The stage that a run ends with. -/
def Request.lastStage (r : Request) : Stage := (r.halt.map Halt.stage).getD .document

/-- The file of an artifact: beside the input, under its name without the
extension, or in the working directory. -/
def Request.artifactName (r : Request) (disk : Disk) (stage : Stage) : String :=
  match r.file with
  | none => "stdin_output" ++ "." ++ stage.name ++ ".json"
  | some path => Path.withoutExtension (disk.absolute path) ++ "." ++ stage.name ++ ".json"

/-- The file of the document: what `-o` says, or the input's name with
another extension. -/
def Request.documentName (r : Request) : String :=
  if r.output.getD "" = "" then
    r.file.elim "stdin.svg" fun path => Path.withoutExtension path ++ ".svg"
  else r.output.getD ""

/-- The file that a run is to write: the artifact of the stage that it stops
after, whatever `-o` says, or else the document. -/
def Request.outputName (r : Request) (disk : Disk) : String :=
  match r.halt with
  | none => r.documentName
  | some halt => r.artifactName disk halt.stage

/-- Its absolute path. -/
def Request.outputFile (r : Request) (disk : Disk) : String := disk.absolute (r.outputName disk)

/-- The disk takes the output. The directories on the way to a document may
have to be made first. -/
def Request.canWrite (r : Request) (disk : Disk) : Bool :=
  match r.halt with
  | none => disk.accepts (r.outputFile disk)
  | some _ => (disk.write (r.outputFile disk) "").isOk

end CommandLine

/-- What stands in the output file for a product. -/
def Product.fileText : Product → String
  | document svg => svg
  | x => x.artifact.text artifactLayout

namespace CommandLine

/-- A run whose last stage fails shows the failure and leaves the disk as it
is. One whose last stage gives something ends well, having written that to
the output file only. -/
def Outcome.Ended (o : Outcome) (r : Request) (disk : Disk) : Except Failure Product → Prop
  | .error f => o.ending = .exit 1 ∧ o.err = failureText r f.settle ∧ o.disk = disk
  | .ok x => o.ending = .exit 0 ∧ o.err = "" ∧
    disk.WroteOnly o.disk (r.outputFile disk) x.fileText

/-- A run without a source does not end well and leaves the disk as it is.
With one, it ends as its last stage tells. -/
def Outcome.Follows (o : Outcome) (r : Request) (s : Surroundings) : Prop :=
  match r.source? s with
  | none => o.ending ≠ .exit 0 ∧ o.disk = s.disk
  | some source => o.Ended r s.disk (r.lastStage.give source s.library)

/-! ## What is written -/

variable {r : Request} {s : Surroundings} {path source : String}

theorem documentPath_eq (r : Request) : r.documentPath = r.documentName := by
  unfold Request.documentPath Request.documentName
  cases r.output with
  | none => cases r.file <;> rfl
  | some name =>
    by_cases hname : name = ""
    · subst hname
      cases r.file <;> rfl
    · cases r.file <;> simp [hname]

/-- All stages together compile the source. -/
theorem give_document (library : LibraryText) (source : String) :
    (Stage.document.give source library).mapError Failure.settle =
      (compile library source).map .document := by
  rw [← Pipeline.run_forHost library source ⟨"", []⟩, Pipeline.run_eq _ fun _ => rfl]
  rfl

theorem writeDocument_ended {disk : Disk} {svg : String} (hhalt : r.halt = none)
    (hwrites : r.canWrite disk = true) (out : String) :
    (writeDocument r out disk svg).Ended r disk (.ok (.document svg)) := by
  have hpath : r.outputFile disk = disk.absolute r.documentPath := by
    rw [Request.outputFile, Request.outputName, hhalt, documentPath_eq]
  rw [Request.canWrite, hhalt] at hwrites
  dsimp only at hwrites
  obtain ⟨made, written, hmade, hwritten⟩ := (Disk.accepts_iff svg).mp hwrites
  have hwrote := Disk.wroteOnly_of_write (Disk.grown_of_makeDirectories hmade) hwritten
  rw [hpath] at hmade hwritten
  have hdocument : writeDocument r out disk svg =
      { ending := .exit 0
        out := out ++ "\n" ++ green "--- Compilation Successful ---" ++ "\nSVG written to "
          ++ disk.absolute r.documentPath ++ "\n"
        timed := true, err := "", disk := written } := by
    unfold writeDocument
    simp only [hmade, hwritten]
  rw [hdocument]
  exact ⟨rfl, rfl, hwrote⟩

theorem compileSource_document (hhalt : r.halt = none) (hwrites : r.canWrite s.disk = true)
    (out : String) :
    (compileSource r s out source).Ended r s.disk (Stage.document.give source s.library) := by
  have hcompile := give_document s.library source
  rw [compileSource_eq hhalt]
  cases hgive : Stage.document.give source s.library with
  | error f =>
    rw [hgive] at hcompile
    rw [map_eq_error.mp hcompile.symm]
    exact ⟨rfl, rfl, rfl⟩
  | ok x =>
    rw [hgive] at hcompile
    obtain ⟨svg, hsvg, rfl⟩ := map_eq_ok.mp hcompile.symm
    rw [hsvg]
    exact writeDocument_ended hhalt hwrites out

theorem source?_of_file (hfile : r.file = some path) :
    r.source? s = (s.disk.read (s.disk.absolute path)).toOption.bind textOf := by
  rw [Request.source?, hfile]

theorem disk_diskOutcome (r : Request) (out : String) (disk : Disk) (e : DiskError) :
    (diskOutcome r out disk e).disk = disk := by
  unfold diskOutcome
  split <;> rfl

section Artifacts

variable (hroot : Path.isAbsolute s.disk.workingDirectory.toList = true)
include hroot

theorem artifactPath_pipeline (library : LibraryText) (stage : Stage) :
    (r.pipeline s.disk library source).artifactPath s.disk stage =
      r.artifactName s.disk stage := by
  unfold Pipeline.artifactPath Request.artifactName Request.pipeline
  cases r.file with
  | none => rfl
  | some path =>
    have hsome : s.disk.absolute path ≠ "" := by
      obtain ⟨root, hslashes, hchars⟩ := Path.toList_absolute hroot path
      intro hempty
      rw [← Disk.absolute, hempty] at hchars
      obtain rfl | rfl := hslashes <;> cases hchars
    have hagain : s.disk.absolute (s.disk.absolute path) = s.disk.absolute path :=
      Path.absolute_absolute hroot
    dsimp only [Option.map_some]
    split
    · rename_i hnone
      cases hnone
    · rename_i hempty
      exact absurd (Option.some.inj hempty) hsome
    · rename_i hfile
      rw [← Option.some.inj hfile, hagain]

omit hroot in
theorem nul_not_mem_artifactName
    (hfile : ∀ path, r.file = some path → '\x00' ∉ (s.disk.absolute path).toList)
    (stage : Stage) : '\x00' ∉ (r.artifactName s.disk stage).toList := by
  have hstage : '\x00' ∉ stage.name.toList := by cases stage <;> decide
  unfold Request.artifactName
  cases hname : r.file with
  | none => simp [hstage]
  | some path =>
    have hshort : '\x00' ∉ (Path.withoutExtension (s.disk.absolute path)).toList := by
      obtain ⟨head, stem, ext, hparts⟩ := Path.exists_parts (s.disk.absolute path)
      have hpath := hfile path hname
      rw [hparts.whole] at hpath
      rw [hparts.shortened]
      simp only [List.mem_append, not_or] at hpath ⊢
      exact ⟨hpath.1, hpath.2.1⟩
    simp [hshort, hstage]

theorem compileSource_artifact {halt : Halt} (hhalt : r.halt = some halt)
    (hwrites : r.canWrite s.disk = true)
    (hfile : ∀ path, r.file = some path → '\x00' ∉ (s.disk.absolute path).toList) (out : String) :
    (compileSource r s out source).Ended r s.disk (halt.stage.give source s.library) := by
  have hstuck : ∀ stage, (r.pipeline s.disk s.library source).isStuck s.disk stage = false := by
    intro stage
    rw [Pipeline.isStuck, artifactPath_pipeline hroot, Bool.and_eq_false_iff]
    refine .inr (Bool.eq_false_iff.mpr fun hnul => ?_)
    exact nul_not_mem_artifactName hfile stage (List.contains_iff_mem.mp hnul)
  have hsaved : (r.pipeline s.disk s.library source).saved = [halt.stage.name] := by
    simp [Request.pipeline, hhalt]
  have hstop : (r.pipeline s.disk s.library source).stopAfter = some halt.stage.name := by
    simp [Request.pipeline, hhalt]
  have hlast : (r.pipeline s.disk s.library source).lastStage = halt.stage := by
    rw [Pipeline.lastStage_eq, Pipeline.stopsAfter, Pipeline.stopsAfter, hstop]
    cases halt <;> rfl
  have houtput : (r.pipeline s.disk s.library source).artifactFile s.disk halt.stage =
      r.outputFile s.disk := by
    rw [Pipeline.artifactFile, artifactPath_pipeline hroot, Request.outputFile,
      Request.outputName, hhalt]
  obtain ⟨hresult, hdisk⟩ := Pipeline.run_of_saved hsaved hlast hstuck
  rw [houtput] at hdisk
  have hsource : (r.pipeline s.disk s.library source).library = s.library ∧
      (r.pipeline s.disk s.library source).source = source := ⟨rfl, rfl⟩
  rw [hsource.1, hsource.2] at hresult hdisk
  unfold compileSource
  generalize (r.pipeline s.disk s.library source).run s.disk = ran at hresult hdisk
  obtain ⟨result, progress⟩ := ran
  dsimp only at hresult hdisk ⊢
  rw [hresult, hhalt]
  cases hgive : halt.stage.give source s.library with
  | error f =>
    rw [hgive] at hdisk
    exact ⟨rfl, rfl, hdisk⟩
  | ok x =>
    rw [hgive] at hdisk
    refine ⟨rfl, rfl, ?_⟩
    have htext : x.fileText = x.artifact.text artifactLayout := by
      have hstage := Stage.give_stage hgive
      cases x with
      | document svg => cases halt <;> cases hstage
      | _ => rfl
    rw [Request.canWrite, hhalt] at hwrites
    obtain ⟨empty, hempty⟩ := isOk_iff.mp hwrites
    obtain ⟨written, hwritten⟩ := Disk.exists_write hempty (x.artifact.text artifactLayout)
    have hattempt : s.disk.attempt (r.outputFile s.disk) (x.artifact.text artifactLayout) =
        written := by
      rw [Disk.attempt, hwritten]
      rfl
    rw [hdisk, htext]
    dsimp only [Except.toOption, Option.elim_some]
    rw [hattempt]
    exact Disk.wroteOnly_of_write (.refl _ _) hwritten

theorem ended_compileSource (hwrites : r.canWrite s.disk = true)
    (hfile : ∀ path, r.file = some path → '\x00' ∉ (s.disk.absolute path).toList) (out : String) :
    (compileSource r s out source).Ended r s.disk (r.lastStage.give source s.library) := by
  cases hhalt : r.halt with
  | none =>
    rw [Request.lastStage, hhalt]
    exact compileSource_document hhalt hwrites out
  | some halt =>
    rw [Request.lastStage, hhalt]
    exact compileSource_artifact hroot hhalt hwrites hfile out

/-- A run ends as its source and its last stage tell. -/
theorem follows_carryOut (hwrites : r.canWrite s.disk = true) : (carryOut r s).Follows r s := by
  -- What is read is compiled if it is a text.
  have hbytes (bytes : ByteArray) (hsource : r.source? s = textOf bytes)
      (hread : r.read s = .ok bytes) (hinput : (r.file.isNone && s.input.isNone) = false) :
      (carryOut r s).Follows r s := by
    rw [Outcome.Follows, hsource, carryOut, hinput]
    simp only [hread]
    cases textOf bytes with
    | none => exact ⟨nofun, rfl⟩
    | some source =>
      refine ended_compileSource hroot hwrites (fun path hfile => ?_) _
      rw [Request.read, hfile] at hread
      exact Disk.nul_not_mem_of_read hread
  cases hfile : r.file with
  | none =>
    cases hinput : s.input with
    | none =>
      have hsource : r.source? s = none := by rw [Request.source?, hfile, hinput]; rfl
      rw [Outcome.Follows, hsource, carryOut, hfile, hinput]
      exact ⟨by simp, rfl⟩
    | some bytes =>
      refine hbytes bytes ?_ ?_ ?_
      · rw [Request.source?, hfile, hinput]; rfl
      · rw [Request.read, hfile, hinput]; rfl
      · rw [hinput, Option.isNone_some, Bool.and_false]
  | some path =>
    have hnamed : (r.file.isNone && s.input.isNone) = false := by rw [hfile]; rfl
    cases hread : s.disk.read (s.disk.absolute path) with
    | error e =>
      have hsource : r.source? s = none := by
        rw [source?_of_file hfile, hread]
        rfl
      have hfails : r.read s = .error e := by rw [Request.read, hfile]; exact hread
      rw [Outcome.Follows, hsource, carryOut, hnamed]
      simp only [hfails]
      exact ⟨ending_diskOutcome r _ s.disk e, disk_diskOutcome r _ s.disk e⟩
    | ok bytes =>
      refine hbytes bytes ?_ ?_ hnamed
      · rw [source?_of_file hfile, hread]
        rfl
      · rw [Request.read, hfile]; exact hread

end Artifacts

/-! ## The output and the input -/

/-- The output of a run without `-o` is its input only if the input is
called like a document and a document is asked for. -/
theorem outputFile_eq_input_iff (hroot : Path.isAbsolute s.disk.workingDirectory.toList = true)
    (hfile : r.file = some path) (houtput : r.output.getD "" = "") :
    Disk.placeOf (r.outputFile s.disk) = Disk.placeOf (s.disk.absolute path) ↔
      r.halt = none ∧ Path.withoutExtension path ++ ".svg" = path := by
  unfold Request.outputFile Request.outputName
  cases hhalt : r.halt with
  | none =>
    have hname : r.documentName = Path.withoutExtension path ++ ".svg" := by
      rw [Request.documentName, if_pos houtput, hfile, Option.elim_some]
    have hsvg : ∃ c ∈ (".svg" : String).toList, c ≠ '.' := ⟨'s', by decide, by decide⟩
    dsimp only
    rw [hname, Disk.absolute, Disk.absolute,
      Path.placeOf_withoutExtension_append hroot (by decide) hsvg]
    simp
  | some halt =>
    have hname : r.artifactName s.disk halt.stage =
        Path.withoutExtension (s.disk.absolute path) ++ ("." ++ halt.stage.name ++ ".json") := by
      rw [Request.artifactName, hfile]
      simp only [String.append_assoc]
    have hslash : '/' ∉ ("." ++ halt.stage.name ++ ".json").toList := by cases halt <;> decide
    have hletter : ∃ c ∈ ("." ++ halt.stage.name ++ ".json").toList, c ≠ '.' :=
      ⟨'j', by cases halt <;> decide, by decide⟩
    have hdots : 1 < ("." ++ halt.stage.name ++ ".json").toList.count '.' := by
      cases halt <;> decide
    have hagain : s.disk.absolute (s.disk.absolute path) = s.disk.absolute path :=
      Path.absolute_absolute hroot
    refine ⟨fun h => ?_, fun h => absurd h.1 (Option.some_ne_none halt)⟩
    dsimp only at h
    rw [hname] at h
    have hsame := (Path.placeOf_withoutExtension_append hroot hslash hletter).mp
      (h.trans (congrArg Disk.placeOf hagain.symm))
    exact absurd hsame (Path.withoutExtension_append_ne hdots)

/-- What is read somewhere else than in the output is what was there. -/
theorem Outcome.Follows.read_eq {o : Outcome} {other : String} {content : ByteArray}
    (h : o.Follows r s) (hplace : Disk.placeOf other ≠ Disk.placeOf (r.outputFile s.disk))
    (hread : s.disk.read other = .ok content) : o.disk.read other = .ok content := by
  unfold Outcome.Follows at h
  split at h
  · rwa [h.2]
  · unfold Outcome.Ended at h
    split at h
    · rwa [h.2.2]
    · exact h.2.2.read_eq hplace hread

/-- A run touches its output only. It leaves the disk as it is if there is
nothing to compile or if that fails, and otherwise writes one file: the
artifact of the stage it stops after, or the document. Without `-o` that file
is the input exactly if a document is asked for and the input is called like
one; in all other runs the input reads as before. -/
theorem run_touches_output_only {words : List String} (hparse : parse words = .ok r)
    (hroot : Path.isAbsolute s.disk.workingDirectory.toList = true)
    (hwrites : r.canWrite s.disk = true) :
    (run words s).Follows r s ∧
      ∀ path, r.file = some path → r.output.getD "" = "" →
        (Disk.placeOf (r.outputFile s.disk) = Disk.placeOf (s.disk.absolute path) ↔
          r.halt = none ∧ Path.withoutExtension path ++ ".svg" = path) ∧
        (¬ (r.halt = none ∧ Path.withoutExtension path ++ ".svg" = path) →
          ∀ content, s.disk.read (s.disk.absolute path) = .ok content →
            (run words s).disk.read (s.disk.absolute path) = .ok content) := by
  have hrun : run words s = carryOut r s := by rw [run, hparse]
  have hfollows := follows_carryOut hroot hwrites
  rw [hrun]
  refine ⟨hfollows, fun path hfile houtput => ?_⟩
  have hplace := outputFile_eq_input_iff hroot hfile houtput
  refine ⟨hplace, fun hother content hcontent => hfollows.read_eq (fun h => ?_) hcontent⟩
  exact hother (hplace.mp h.symm)

/-! ## A file of its own name and one called like a document -/

/-- The program with CR LF between its lines has a circle as its document. -/
theorem compile_unified_returnOutside :
    compile .builtin (Text.unified returnOutside) = .ok circleDocument := by
  have hcompile := compile_of_compilesTo (compilesTo_documents _ (.head _))
  rw [← returnOutsideChars.2] at hcompile
  rw [compile_unified_of_keepsLineEnds _ _ fun _ => keepsLineEnds_returnOutside, hcompile]

/-- The document is written beside the source, which stays. -/
theorem mainFile_is_kept :
    (run ["main.shape"] (mainFile returnOutside)).ending = .exit 0 ∧
      (mainFile returnOutside).disk.WroteOnly (run ["main.shape"] (mainFile returnOutside)).disk
        "/home/main.svg" circleDocument ∧
      (run ["main.shape"] (mainFile returnOutside)).disk.read "/home/main.shape" =
        .ok returnOutside.toUTF8 := by
  have hwrites : mainRequest.canWrite (mainFile returnOutside).disk = true := by decide +kernel
  obtain ⟨hparse, hdisk⟩ := parse_mainFile
  obtain ⟨hread, _⟩ := hdisk returnOutside (by simp)
  obtain ⟨hfollows, hinput⟩ :=
    run_touches_output_only (s := mainFile returnOutside) hparse (by decide) hwrites
  have hsource : mainRequest.source? (mainFile returnOutside) =
      some (Text.unified returnOutside) := by
    rw [source?_of_file rfl, hread]
    exact textOf_toUTF8 returnOutside
  have hgive : Stage.document.give (Text.unified returnOutside) .builtin =
      .ok (.document circleDocument) := by
    refine mapError_eq_ok.mp ((give_document .builtin _).trans ?_)
    rw [compile_unified_returnOutside]
    rfl
  have hpaths : mainRequest.outputFile (mainFile returnOutside).disk = "/home/main.svg" ∧
      (mainFile returnOutside).disk.absolute "main.shape" = "/home/main.shape" ∧
      Path.withoutExtension "main.shape" ++ ".svg" ≠ "main.shape" := by decide +kernel
  obtain ⟨houtput, hfile, hother⟩ := hpaths
  rw [Outcome.Follows, hsource] at hfollows
  have hended : (run ["main.shape"] (mainFile returnOutside)).Ended mainRequest
      (mainFile returnOutside).disk (.ok (.document circleDocument)) := hgive ▸ hfollows
  obtain ⟨hending, _, hwrote⟩ := hended
  have hkept := (hinput "main.shape" rfl rfl).2 (fun h => hother h.2) _ hread
  rw [houtput] at hwrote
  rw [hfile] at hkept
  exact ⟨hending, hwrote, hkept⟩

/-- The same program in a file called like a document. -/
def svgFile : Surroundings :=
  ⟨⟨"/home", [("/home/main.svg", .file returnOutside.toUTF8)]⟩, none, .builtin⟩

/-- Compiling it writes the document over the source. -/
theorem svgFile_is_overwritten :
    parse ["main.svg"] = .ok ⟨some "main.svg", none, none⟩ ∧
      svgFile.disk.read "/home/main.svg" = .ok returnOutside.toUTF8 ∧
      (run ["main.svg"] svgFile).Wrote "/home/main.svg" circleDocument ∧
      circleDocument ≠ returnOutside := by
  have hparse : parse ["main.svg"] = .ok ⟨some "main.svg", none, none⟩ := by decide +kernel
  have hdisk : svgFile.disk.absolute "main.svg" = "/home/main.svg" ∧
      svgFile.disk.absolute (Request.mk (some "main.svg") none none).documentPath =
        "/home/main.svg" ∧
      svgFile.disk.read "/home/main.svg" = .ok returnOutside.toUTF8 ∧
      svgFile.disk.accepts "/home/main.svg" = true := by decide +kernel
  obtain ⟨hfile, hdocument, hread, haccepts⟩ := hdisk
  refine ⟨hparse, hread, ?_, by decide +kernel⟩
  rw [← hdocument] at haccepts ⊢
  rw [← hfile] at hread
  exact run_wrote hparse rfl rfl hread haccepts compile_unified_returnOutside

end CommandLine

end ShapeScript
