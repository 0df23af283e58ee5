/-
ShapeScript.Proofs.CommandLine — the command line and the host agree.

A host hands over a text. The command line reads a file, and what it
compiles is the text with its line ends unified (`textOf_toUTF8`). Asked for
a document, it runs all stages and saves nothing on the way, so it does what
`compile` does (`compileSource_eq`) and then either shows the failure or
writes the document.

`run_agrees_with_host` compares that with the answer that a host gets for
the same text. They agree on whether there is a document, and on the error
if there is none. The document that is written is that of the unified text.
It is the host's document if no string of the source has a CR in it, and
`returnInString` is a source that loses one.
-/
import ShapeScript.CommandLine
import ShapeScript.Proofs.Disk
import ShapeScript.Proofs.Document.LineEnds
import ShapeScript.Proofs.Document.Positions
import ShapeScript.Proofs.Document.Totality
import ShapeScript.Proofs.Pipeline

namespace ShapeScript

/-- A run of all stages that saves nothing compiles its source, prints
nothing and leaves the disk as it is. -/
theorem Pipeline.run_unsaved {p : Pipeline} (hsaved : p.saved = []) (hstop : p.stopAfter = none)
    (disk : Disk) :
    (p.run disk).1 = (compile p.library p.source).map .document ∧
      (p.run disk).2.disk = disk ∧ (p.run disk).2.printed = "" := by
  have hstuck : ∀ stage, p.isStuck disk stage = false := by
    intro stage
    rw [isStuck, hsaved]
    rfl
  have hlast : p.lastStage = .document := by
    simp [lastStage, Stage.upTo, stopsAfter, hstop]
  have hfilter : p.products.filter p.wants = [] := by
    refine List.filter_eq_nil_iff.mpr fun x _ => ?_
    rw [wants, hsaved]
    exact Bool.false_ne_true
  rw [p.run_eq hstuck, hlast, recordAll_eq, hfilter]
  refine ⟨?_, rfl, rfl⟩
  rw [← run_forHost p.library p.source disk, run_eq _ fun _ => rfl]
  rfl

namespace CommandLine

/-! ## Definitions -/

/-- The run ends well, and the file at a path has the text. -/
structure Outcome.Wrote (o : Outcome) (path text : String) : Prop where
  ending : o.ending = .exit 0
  err : o.err = ""
  content : o.disk.read path = .ok text.toUTF8

/-- The run ends with status 1, shows the error of a file, with its position
counted from one, and leaves the disk as it was. -/
structure Outcome.Rejected (o : Outcome) (disk : Disk) (path : String) (e : HostError) : Prop where
  ending : o.ending = .exit 1
  err : o.err =
    "\n" ++ red ("--- COMPILATION ERROR ---\n" ++ renderAt (some path) e.line e.column e.message)
      ++ "\n"
  disk : o.disk = disk

/-! ## What is compiled -/

theorem textOf_toUTF8 (text : String) : textOf text.toUTF8 = some (Text.unified text) := by
  have htext : String.fromUTF8? text.toUTF8 = some text := dif_pos text.isValidUTF8
  rw [textOf, htext]
  rfl

theorem Request.input_of_file {r : Request} {path : String} (h : r.file = some path) :
    r.input = some path := by
  unfold file at h
  split at h
  · cases h
  · exact h

section Runs

variable {words : List String} {r : Request} {path : String} {s : Surroundings} {content : String}

/-- A request without a stage to stop after compiles the source, and shows
the failure or writes the document. -/
theorem compileSource_eq (hhalt : r.halt = none) (out source : String) :
    compileSource r s out source =
      match compile s.library source with
      | .error f =>
        { ending := .exit 1, out := out, timed := true, err := failureText r f, disk := s.disk }
      | .ok svg => writeDocument r out s.disk svg := by
  have hsaved : (r.pipeline s.disk s.library source).saved = [] := by
    simp [Request.pipeline, hhalt]
  have hstop : (r.pipeline s.disk s.library source).stopAfter = none := by
    simp [Request.pipeline, hhalt]
  obtain ⟨hresult, hdisk, hprinted⟩ := Pipeline.run_unsaved hsaved hstop s.disk
  have hcompile : (r.pipeline s.disk s.library source).library = s.library ∧
      (r.pipeline s.disk s.library source).source = source := ⟨rfl, rfl⟩
  rw [hcompile.1, hcompile.2] at hresult
  unfold compileSource
  generalize (r.pipeline s.disk s.library source).run s.disk = ran at hresult hdisk hprinted
  obtain ⟨result, progress⟩ := ran
  dsimp only at hresult hdisk hprinted ⊢
  rw [hresult, hdisk, hprinted, hhalt, String.append_empty]
  cases compile s.library source with
  | error f => rfl
  | ok svg => rfl

theorem writeDocument_wrote {disk : Disk} {svg : String} (out : String)
    (haccepts : disk.accepts (disk.absolute r.documentPath) = true) :
    (writeDocument r out disk svg).Wrote (disk.absolute r.documentPath) svg := by
  obtain ⟨made, written, hmade, hwritten⟩ := (Disk.accepts_iff svg).mp haccepts
  unfold writeDocument
  simp only [hmade, hwritten]
  exact ⟨rfl, rfl, Disk.read_of_write hwritten⟩

theorem ending_diskOutcome (r : Request) (out : String) (disk : Disk) (e : DiskError) :
    (diskOutcome r out disk e).ending ≠ .exit 0 := by
  unfold diskOutcome
  split <;> simp

/-- A disk that does not accept the document stops the run. -/
theorem ending_writeDocument {disk : Disk} {svg : String} (out : String)
    (hrefuses : disk.accepts (disk.absolute r.documentPath) = false) :
    (writeDocument r out disk svg).ending ≠ .exit 0 := by
  unfold writeDocument
  dsimp only
  cases hmade : disk.makeDirectories (Path.directoryOf (disk.absolute r.documentPath)) with
  | error e => exact ending_diskOutcome r out disk e
  | ok made =>
    dsimp only
    cases hwritten : made.write (disk.absolute r.documentPath) svg with
    | error e => exact ending_diskOutcome r out made e
    | ok written =>
      rw [(Disk.accepts_iff svg).mpr ⟨made, written, hmade, hwritten⟩] at hrefuses
      cases hrefuses

/-! ## A file -/

variable (hparse : parse words = .ok r) (hfile : r.file = some path) (hhalt : r.halt = none)
variable (hcontent : s.disk.read (s.disk.absolute path) = .ok content.toUTF8)
include hparse hfile hcontent hhalt

omit hhalt in
/-- The run of a file compiles its text with unified line ends. -/
theorem run_eq_compileSource :
    run words s = compileSource r s ("--- Compiling " ++ path ++ " ---\n")
      (Text.unified content) := by
  have hread : r.read s = .ok content.toUTF8 := by
    simp only [Request.read, hfile, hcontent]
  simp only [run, hparse, carryOut, hread, textOf_toUTF8, Request.inputLabel, hfile]
  rfl

theorem run_rejected {p : Problem}
    (hcompile : compile s.library (Text.unified content) = .error (.problem p)) :
    (run words s).Rejected s.disk path p.toHost := by
  rw [run_eq_compileSource hparse hfile hcontent, compileSource_eq hhalt, hcompile]
  refine ⟨rfl, ?_, rfl⟩
  simp only [failureText, Request.input_of_file hfile]
  rfl

theorem run_wrote {svg : String}
    (haccepts : s.disk.accepts (s.disk.absolute r.documentPath) = true)
    (hcompile : compile s.library (Text.unified content) = .ok svg) :
    (run words s).Wrote (s.disk.absolute r.documentPath) svg := by
  rw [run_eq_compileSource hparse hfile hcontent, compileSource_eq hhalt, hcompile]
  exact writeDocument_wrote _ haccepts

theorem ending_run {svg : String}
    (hrefuses : s.disk.accepts (s.disk.absolute r.documentPath) = false)
    (hcompile : compile s.library (Text.unified content) = .ok svg) :
    (run words s).ending ≠ .exit 0 := by
  rw [run_eq_compileSource hparse hfile hcontent, compileSource_eq hhalt, hcompile]
  exact ending_writeDocument _ hrefuses

/-! ## The host's answer -/

/-- The command line does with a file what the host boundary does with its
text, except for a CR in a string. If the host is told of an error, the run
shows that error and writes nothing. Otherwise the host gets a document, and
so does the text with unified line ends. The run writes that one, unless the
disk does not accept it. The two documents are the same if no string of the
source has a CR in it. -/
theorem run_agrees_with_host (hlibrary : s.library = .builtin) :
    (∃ e, compileForHost .builtin content = .ok ⟨none, some e⟩ ∧
      (run words s).Rejected s.disk path e) ∨
    ∃ svg written, compileForHost .builtin content = .ok ⟨some svg, none⟩ ∧
      compileForHost .builtin (Text.unified content) = .ok ⟨some written, none⟩ ∧
      ((∀ ts, scan content = .ok ts → KeepsLineEnds ts) → written = svg) ∧
      (s.disk.accepts (s.disk.absolute r.documentPath) = true →
        (run words s).Wrote (s.disk.absolute r.documentPath) written) ∧
      (s.disk.accepts (s.disk.absolute r.documentPath) = false →
        (run words s).ending ≠ .exit 0) := by
  obtain ⟨base, hload, _⟩ := builtin_load
  obtain ⟨f, hsource, hunified⟩ | ⟨svg, written, hsource, hunified⟩ :=
    compile_unified_cases .builtin content
  · left
    -- the builtin library loads, so the failure is a problem of the source
    obtain ⟨svg, hsvg, _⟩ | ⟨p, hp, _⟩ := compile_outcome hload content
    · rw [hsvg] at hsource
      cases hsource
    obtain rfl : .problem p = f := Except.error.inj (hp.symm.trans hsource)
    refine ⟨p.toHost, ?_, ?_⟩
    · rw [compileForHost, hsource]
    · rw [← hlibrary] at hunified
      exact run_rejected hparse hfile hhalt hcontent hunified
  · right
    refine ⟨svg, written, ?_, ?_, fun hkeeps => ?_, fun haccepts => ?_, fun hrefuses => ?_⟩
    · rw [compileForHost, hsource]
    · rw [compileForHost, hunified]
    · rw [compile_unified_of_keepsLineEnds .builtin content hkeeps, hsource] at hunified
      exact (Except.ok.inj hunified).symm
    · rw [← hlibrary] at hunified
      exact run_wrote hparse hfile hhalt hcontent haccepts hunified
    · rw [← hlibrary] at hunified
      exact ending_run hparse hfile hhalt hcontent hrefuses hunified

end Runs

/-! ## A CR outside a string and one inside -/

/-- A working directory with a file in it. -/
def mainFile (content : String) : Surroundings :=
  ⟨⟨"/home", [("/home/main.shape", .file content.toUTF8)]⟩, none, .builtin⟩

/-- The request to compile that file. -/
def mainRequest : Request := ⟨some "main.shape", none, none⟩

/-- A program whose lines end in CR LF, without a string. -/
def returnOutside : String := "shape main()\r\n\x7b circle() \x7d\r\n"

/-- A program with a CR in a string. -/
def returnInside : String := "shape main() \x7b svg(value: \"\r\") \x7d"

/-- Their characters. -/
def returnOutsideChars : { cs : List Char // returnOutside = .ofList cs } := ⟨_, rfl⟩

def returnInsideChars : { cs : List Char // returnInside = .ofList cs } := ⟨_, rfl⟩

/-- The document with a circle. -/
def circleDocument : String :=
  documentOf "<circle cx='0' cy='0' r='10' fill='hotpink' stroke='none' stroke-width='0'/>"

theorem parse_mainFile : parse ["main.shape"] = .ok mainRequest ∧
    ∀ content ∈ [returnOutside, returnInside],
      (mainFile content).disk.read ((mainFile content).disk.absolute "main.shape") =
          .ok content.toUTF8 ∧
        (mainFile content).disk.absolute mainRequest.documentPath = "/home/main.svg" ∧
          (mainFile content).disk.accepts "/home/main.svg" = true := by
  decide +kernel

theorem returnOutsideChars_kinds : (tokensOfChars returnOutsideChars.1).any fun ts =>
    ts.all fun t => t.kind != .string := by
  decide +kernel

theorem keepsLineEnds_returnOutside {ts : List Token} (h : scan returnOutside = .ok ts) :
    KeepsLineEnds ts := by
  have hkinds := returnOutsideChars_kinds
  rw [← scan_ofList, ← returnOutsideChars.2, h] at hkinds
  intro t ht text htext
  have hkind := List.all_eq_true.mp hkinds t ht
  rw [Token.kind, htext] at hkind
  cases hkind

set_option maxRecDepth 10000 in
theorem compilesTo_documents : ∀ x ∈ [(returnOutsideChars.1, circleDocument),
    (returnInsideChars.1, documentOf "\r"),
    (Text.unifyLineEnds returnInsideChars.1, documentOf "\n")], compilesTo x = true := by
  decide +kernel

theorem compileForHost_returnOutside :
    compileForHost .builtin returnOutside = .ok ⟨some circleDocument, none⟩ := by
  have hcompile := compile_of_compilesTo (compilesTo_documents _ (.head _))
  rw [← returnOutsideChars.2] at hcompile
  rw [compileForHost, hcompile]

/-- The host's document of a program with CR LF between its lines is what is
written. -/
theorem returnOutside_agrees_with_host :
    compileForHost .builtin returnOutside = .ok ⟨some circleDocument, none⟩ ∧
      (run ["main.shape"] (mainFile returnOutside)).Wrote "/home/main.svg" circleDocument := by
  refine ⟨compileForHost_returnOutside, ?_⟩
  obtain ⟨hparse, hdisk⟩ := parse_mainFile
  obtain ⟨hread, hpath, haccepts⟩ := hdisk returnOutside (by simp)
  obtain ⟨e, herror, _⟩ | ⟨svg, written, hsvg, _, hkeeps, hwrote, _⟩ :=
    run_agrees_with_host hparse rfl rfl hread rfl
  · rw [compileForHost_returnOutside] at herror
    cases herror
  · rw [compileForHost_returnOutside] at hsvg
    cases hsvg
    rw [hkeeps fun ts hts => keepsLineEnds_returnOutside hts, hpath] at hwrote
    exact hwrote haccepts

/-- A CR in a string stands in the host's document, and in the one that is
written an LF stands for it. -/
theorem returnInside_is_lost :
    compileForHost .builtin returnInside = .ok ⟨some (documentOf "\r"), none⟩ ∧
      (run ["main.shape"] (mainFile returnInside)).Wrote "/home/main.svg" (documentOf "\n") ∧
        documentOf "\n" ≠ documentOf "\r" := by
  have hcompile := compile_of_compilesTo (compilesTo_documents _ (.tail _ (.head _)))
  have hunified := compile_of_compilesTo (compilesTo_documents _ (.tail _ (.tail _ (.head _))))
  have hsource : Text.unified returnInside =
      .ofList (Text.unifyLineEnds returnInsideChars.1) := by
    have hchars := congrArg String.toList returnInsideChars.2
    rw [String.toList_ofList] at hchars
    rw [Text.unified, hchars]
  rw [← returnInsideChars.2] at hcompile
  rw [← hsource] at hunified
  obtain ⟨hparse, hdisk⟩ := parse_mainFile
  obtain ⟨hread, hpath, haccepts⟩ := hdisk returnInside (by simp)
  refine ⟨?_, ?_, by simp [documentOf]⟩
  · rw [compileForHost, hcompile]
  · rw [← hpath] at haccepts ⊢
    exact run_wrote hparse rfl rfl hread haccepts hunified

end CommandLine

end ShapeScript
