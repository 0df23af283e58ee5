/-
ShapeScript.Proofs.Editor.Diagnostics — where diagnostics are shown.

An editor shows a diagnostic in the document as it is, so blanks put in
front of a document should move its diagnostic along with the text
(`Diagnostic.movedBy`). But the scanner drops them before it starts to
count, and nobody adds them again: whatever the diagnostic is about, in the
tokens, the program or its evaluation, it stays where it was
(`diagnostics_of_blanks`).

`diagnostics_movedBy_iff` says when this is right all the same: if the
blanks do not break a line, and the diagnostic is not on the line that they
start.
-/
import ShapeScript.Editor
import ShapeScript.Proofs.Document
import ShapeScript.Proofs.Token.Layout
import ShapeScript.Proofs.Token.Places

namespace ShapeScript

/-! ## Texts that start with blanks -/

theorem Text.strip_append {w text : List Char} (hw : ∀ c ∈ w, isBlank c) :
    strip (w ++ text) = strip text := by
  rw [strip, strip, dropLeadingBlanks, List.dropWhile_append_of_pos hw]
  rfl

theorem scan_of_blanks {w document : String} (hw : ∀ c ∈ w.toList, Text.isBlank c) :
    scan (w ++ document) = scan document := by
  rw [scan, scan, Cursor.start, Cursor.start, String.toList_append, Text.strip_append hw]

theorem compile_of_blanks {w document : String} (hw : ∀ c ∈ w.toList, Text.isBlank c)
    (library : LibraryText) : compile library (w ++ document) = compile library document := by
  rw [compile, compile, tokensOf, tokensOf, scan_of_blanks hw]

namespace Editor

/-- Diagnostics do not know of the blanks that a document starts with. -/
theorem diagnostics_of_blanks {w document : String} (hw : ∀ c ∈ w.toList, Text.isBlank c)
    (library : LibraryText) :
    diagnostics library (w ++ document) = diagnostics library document := by
  rw [diagnostics, diagnostics, compileForHost, compileForHost, compile_of_blanks hw]

/-- Once its library is loaded, the editor finds at most one thing wrong
with any document, and fails on none. -/
theorem diagnostics_of_load {library : LibraryText} {base : Registry}
    (hload : library.load = .ok base) (document : String) :
    ∃ found, diagnostics library document = .ok found ∧ found.length ≤ 1 := by
  obtain ⟨svg, hcompile, _⟩ | ⟨p, hcompile, _⟩ := compile_outcome hload document
  · refine ⟨[], ?_, Nat.zero_le 1⟩
    rw [diagnostics, compileForHost, hcompile]
    rfl
  · refine ⟨[.ofError p.toHost], ?_, Nat.le_refl 1⟩
    rw [diagnostics, compileForHost, hcompile]
    rfl

end Editor

/-! ## Moving diagnostics -/

/-- Where a position is when a text is put in front: as many lines further
down as the text has line breaks, and on the first line as many characters
further on as the text has behind the last of them. -/
def Position.movedBy (p : Position) (w : List Char) : Position :=
  ⟨p.line + lineAt w w.length, if p.line = 0 then p.column + sinceLineEnd w w.length else p.column⟩

/-- Where a diagnostic is when a text is put in front. -/
def Editor.Diagnostic.movedBy (x : Diagnostic) (w : List Char) : Diagnostic :=
  { x with span := ⟨x.span.start.movedBy w, x.span.finish.movedBy w⟩ }

/-- In a text that breaks no line all characters stand on the first one. -/
theorem sinceLineEnd_of_lineAt_eq_zero {text : List Char} {i : Nat} (h : lineAt text i = 0) :
    sinceLineEnd text i = i := by
  induction i with
  | zero => rfl
  | succ i ih =>
    rw [lineAt_succ] at h
    obtain ⟨hlines, hends⟩ := Nat.add_eq_zero_iff.mp h
    cases hbreak : endsLineAt text i with
    | true =>
      rw [hbreak] at hends
      cases hends
    | false =>
      rw [sinceLineEnd_succ, hbreak, ih hlines]
      rfl

/-- A position stays where it is if the text breaks no line and the position
is on another line, or there is no text. -/
theorem Position.movedBy_eq_self_iff {p : Position} {w : List Char} :
    p.movedBy w = p ↔ lineAt w w.length = 0 ∧ (p.line = 0 → w = []) := by
  obtain ⟨line, column⟩ := p
  rw [movedBy, mk.injEq]
  dsimp only
  have hline : line + (lineAt w w.length : Int) = line ↔ lineAt w w.length = 0 := by omega
  rw [hline]
  refine and_congr_right fun hbreaks => ?_
  rw [sinceLineEnd_of_lineAt_eq_zero hbreaks]
  by_cases hfirst : line = 0
  · rw [if_pos hfirst, ← List.length_eq_zero_iff]
    have hcolumn : column + (w.length : Int) = column ↔ w.length = 0 := by omega
    rw [hcolumn]
    exact ⟨fun h _ => h, fun h => h hfirst⟩
  · rw [if_neg hfirst]
    exact iff_of_true rfl fun h => absurd h hfirst

namespace Editor

/-- A diagnostic is one character long, so it is moved as its start is. -/
theorem Diagnostic.movedBy_eq_self_iff {x : Diagnostic} {w : List Char}
    (hlines : x.span.finish.line = x.span.start.line) :
    x.movedBy w = x ↔ lineAt w w.length = 0 ∧ (x.span.start.line = 0 → w = []) := by
  obtain ⟨⟨start, finish⟩, message, severity, source⟩ := x
  simp only [movedBy, Diagnostic.mk.injEq, Span.mk.injEq, Position.movedBy_eq_self_iff, and_true]
  rw [show finish.line = start.line from hlines, and_self]

theorem line_finish_of_mem {library : LibraryText} {document : String} {found : List Diagnostic}
    {x : Diagnostic} (hfound : diagnostics library document = .ok found) (hx : x ∈ found) :
    x.span.finish.line = x.span.start.line := by
  obtain ⟨answer, _, rfl⟩ := map_eq_ok.mp hfound
  obtain ⟨e, _, rfl⟩ := Option.map_eq_some_iff.mp (Option.mem_toList.mp hx)
  rfl

/-- A gap in front of a document does not change its diagnostics. So they
are moved along with the text just if none is there, or the gap breaks no
line and they are not on the first one, or it is empty. Of a document there
always are diagnostics, and at most one, if the library loads. -/
theorem diagnostics_movedBy_iff (library : LibraryText) {gap : String} (document : String)
    (hgap : ∀ c ∈ gap.toList, isGap c) :
    diagnostics library (gap ++ document) = diagnostics library document ∧
    (diagnostics library (gap ++ document) =
        (diagnostics library document).map (List.map (Diagnostic.movedBy · gap.toList)) ↔
      ∀ found, diagnostics library document = .ok found → ∀ x ∈ found,
        lineAt gap.toList gap.toList.length = 0 ∧ (x.span.start.line = 0 → gap = "")) ∧
    ∀ base, library.load = .ok base →
      ∃ found, diagnostics library document = .ok found ∧ found.length ≤ 1 := by
  have hsame : diagnostics library (gap ++ document) = diagnostics library document :=
    diagnostics_of_blanks (fun c hc => isBlank_of_isGap (hgap c hc)) library
  refine ⟨hsame, ?_, fun base hload => diagnostics_of_load hload document⟩
  rw [hsame]
  cases hdiagnostics : diagnostics library document with
  | error f => exact iff_of_true rfl fun found h => by cases h
  | ok found =>
    have hmap := @List.map_inj_left _ _ found (Diagnostic.movedBy · gap.toList) id
    rw [List.map_id] at hmap
    rw [Except.map, Except.ok.injEq, eq_comm, hmap]
    simp only [Except.ok.injEq, forall_eq']
    refine forall₂_congr fun x hx => ?_
    rw [id, Diagnostic.movedBy_eq_self_iff (line_finish_of_mem hdiagnostics hx),
      String.toList_eq_nil_iff]

/-! ## Two documents -/

/-- What is shown of a document that cannot be scanned. -/
theorem diagnostics_of_scan {document : String} {e : LexError}
    (hscan : scan document = .error (.problem e)) (library : LibraryText) :
    diagnostics library document =
      .ok [.ofError ⟨e.pos.line, e.pos.column, e.fault.message⟩] := by
  rw [diagnostics, compileForHost, compile, tokensOf, hscan]
  rfl

/-- No lexeme starts with this character. -/
def stray : String := "?"

/-- The same on the second line. -/
def strayBelow : String := "(\n?"

theorem scan_stray : scan stray = .error (.problem ⟨.unexpectedCharacter '?', ⟨0, 0⟩⟩) := by
  have hstart : Cursor.start stray = ⟨['?'], 0, .origin⟩ := by decide +kernel
  have hnext : (Cursor.mk ['?'] 0 .origin).next =
      (.error (.problem ⟨.unexpectedCharacter '?', ⟨0, 0⟩⟩), ⟨['?'], 0, .origin⟩) := rfl
  rw [scan, hstart, Cursor.tokens_of_error hnext]

theorem scan_strayBelow :
    scan strayBelow = .error (.problem ⟨.unexpectedCharacter '?', ⟨1, 0⟩⟩) := by
  have hstart : Cursor.start strayBelow = ⟨['(', '\n', '?'], 0, .origin⟩ := by decide +kernel
  have hopen : (Cursor.mk ['(', '\n', '?'] 0 .origin).next =
      (.ok (some ⟨.openParen, ⟨.origin, ⟨0, 1⟩⟩⟩), ⟨['\n', '?'], 1, ⟨0, 1⟩⟩) := rfl
  have hnext : (Cursor.mk ['\n', '?'] 1 ⟨0, 1⟩).next =
      (.error (.problem ⟨.unexpectedCharacter '?', ⟨1, 0⟩⟩), ⟨['?'], 2, ⟨1, 0⟩⟩) := rfl
  rw [scan, hstart, Cursor.tokens_of_some hopen, Cursor.tokens_of_error hnext]
  rfl

/-- Behind a blank, what is wrong on the second line is still shown where it
is. -/
theorem strayBelow_is_found : (∀ c ∈ " ".toList, isGap c) ∧
    diagnostics .builtin (" " ++ strayBelow) =
      (diagnostics .builtin strayBelow).map (List.map (Diagnostic.movedBy · " ".toList)) := by
  have hgap : ∀ c ∈ " ".toList, isGap c := List.all_eq_true.mp (by decide +kernel)
  refine ⟨hgap, (diagnostics_movedBy_iff .builtin strayBelow hgap).2.1.mpr ?_⟩
  rw [diagnostics_of_scan scan_strayBelow]
  rintro found hfound x hx
  cases hfound
  obtain rfl := List.mem_singleton.mp hx
  exact ⟨by decide +kernel, fun hfirst => by cases hfirst⟩

/-- Behind a line break, what is wrong on the first line has to be shown on
the second, but is not. -/
theorem stray_is_misplaced :
    (∃ message, diagnostics .builtin ("\n" ++ stray) =
        .ok [⟨⟨⟨0, 0⟩, ⟨0, 1⟩⟩, message, "Error", "ssc"⟩] ∧
      (diagnostics .builtin stray).map (List.map (Diagnostic.movedBy · "\n".toList)) =
        .ok [⟨⟨⟨1, 0⟩, ⟨1, 1⟩⟩, message, "Error", "ssc"⟩]) ∧
    diagnostics .builtin ("\n" ++ stray) ≠
      (diagnostics .builtin stray).map (List.map (Diagnostic.movedBy · "\n".toList)) := by
  have hblank : ∀ c ∈ "\n".toList, Text.isBlank c := List.all_eq_true.mp (by decide +kernel)
  have hstart : (Position.mk 0 0).movedBy "\n".toList = ⟨1, 0⟩ := by decide +kernel
  have hfinish : (Position.mk 0 1).movedBy "\n".toList = ⟨1, 1⟩ := by decide +kernel
  have hmoved : ∀ message, (Diagnostic.ofError ⟨0, 0, message⟩).movedBy "\n".toList =
      ⟨⟨⟨1, 0⟩, ⟨1, 1⟩⟩, message, "Error", "ssc"⟩ := fun message => by
    simp only [Diagnostic.movedBy, Diagnostic.ofError, Int.zero_add, hstart, hfinish]
  have hstray : diagnostics .builtin stray =
      .ok [.ofError ⟨0, 0, (LexFault.unexpectedCharacter '?').message⟩] :=
    diagnostics_of_scan scan_stray .builtin
  rw [diagnostics_of_blanks hblank, hstray, Except.map, List.map_singleton, hmoved]
  exact ⟨⟨_, rfl, rfl⟩, by simp [Diagnostic.ofError]⟩

end Editor

end ShapeScript
