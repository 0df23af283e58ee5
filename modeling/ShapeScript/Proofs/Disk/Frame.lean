/-
ShapeScript.Proofs.Disk.Frame — what making directories and writing a file
leave alone.

Directories are made only where nothing stood (`grown_of_makeDirectories`).
Writing a file after that changes what stands at its place and at no other
(`wroteOnly_of_write`), so every other file reads as before
(`WroteOnly.read_eq`).
-/
import ShapeScript.Proofs.Disk

namespace ShapeScript.Disk

variable {d made written : Disk} {path other text : String} {paths : List String}

/-- A disk with more directories, all of them on a list. -/
structure Grown (d made : Disk) (paths : List String) : Prop where
  workingDirectory : made.workingDirectory = d.workingDirectory
  entries : ∀ other, made.entry? other = d.entry? other ∨
    d.entry? other = none ∧ made.entry? other = some .directory ∧
      ∃ p ∈ paths, placeOf other = placeOf p

/-- The directories that a file lies in, the nearest first, as far as they
are not always there. -/
def directoriesTo (d : Disk) (path : String) : List String :=
  Path.directoryOf path :: d.parentsOf (Path.directoryOf path)

/-- A disk after a text was written to a file: nothing else has changed,
except that there may be new directories on the way to it. -/
structure WroteOnly (d written : Disk) (path text : String) : Prop where
  workingDirectory : written.workingDirectory = d.workingDirectory
  content : written.read path = .ok text.toUTF8
  no_directory : d.entry? path ≠ some .directory
  entries : ∀ other, placeOf other ≠ placeOf path → written.entry? other = d.entry? other ∨
    d.entry? other = none ∧ written.entry? other = some .directory ∧
      ∃ p ∈ d.directoriesTo path, placeOf other = placeOf p

/-! ## Reading -/

theorem isAncestor_congr (h : made.workingDirectory = d.workingDirectory) (path : String) :
    made.isAncestor path = d.isAncestor path := by
  rw [isAncestor, isAncestor, h]

theorem parents_congr (h : made.workingDirectory = d.workingDirectory) (steps : Nat)
    (start : String) : made.parents steps start = d.parents steps start := by
  induction steps generalizing start with
  | zero => rfl
  | succ steps ih => rw [parents, parents, isAncestor_congr h, ih]

theorem wayTo_eq_ok_iff :
    d.wayTo path = .ok () ↔ refusal? path = none ∧ d.wayAlong (d.parentsOf path) = .ok () := by
  unfold wayTo
  cases refusal? path <;> simp

/-- A file is read if the way to it is free and it is a file. -/
theorem read_eq_ok_iff {content : ByteArray} :
    d.read path = .ok content ↔
      d.wayTo path = .ok () ∧ d.entry? path = some (.file content) := by
  unfold read
  cases d.wayTo path with
  | error e => simp
  | ok u =>
    cases d.entry? path with
    | none => simp
    | some e => cases e <;> simp

/-- The name of a file that is read is a path. -/
theorem nul_not_mem_of_read {content : ByteArray} (h : d.read path = .ok content) :
    '\x00' ∉ path.toList := by
  have hrefusal := (wayTo_eq_ok_iff.mp (read_eq_ok_iff.mp h).1).1
  intro hnul
  rw [refusal?, if_pos (List.contains_iff_mem.mpr hnul)] at hrefusal
  cases hrefusal

/-! ## Making directories -/

theorem entry?_put_directory : Disk.entry? (d.put path .directory) path = some .directory := by
  by_cases h : d.entry? path = some .directory
  · by_cases hancestor : d.isAncestor path = true
    · exact if_pos hancestor
    · have hput : (d.put path .directory).isAncestor path = false := Bool.eq_false_iff.mpr hancestor
      unfold entry?
      rw [hput, put, List.lookup_cons, beq_self_eq_true]
      rfl
  · exact entry?_put h

namespace Grown

theorem refl (d : Disk) (paths : List String) : d.Grown d paths := ⟨rfl, fun _ => .inl rfl⟩

theorem put (h : d.Grown made paths) (hnone : d.entry? path = none) :
    d.Grown (made.put path .directory) (path :: paths) := by
  refine ⟨h.workingDirectory, fun other => ?_⟩
  by_cases hplace : placeOf other = placeOf path
  · refine .inr ⟨?_, ?_, path, .head _, hplace⟩
    · rw [entry?_congr hplace, hnone]
    · rw [entry?_congr hplace, entry?_put_directory]
  · rw [entry?_put_of_ne hplace]
    obtain hsame | ⟨hno, hdirectory, p, hp, hplace⟩ := h.entries other
    · exact .inl hsame
    · exact .inr ⟨hno, hdirectory, p, .tail _ hp, hplace⟩

end Grown

theorem makeOne_eq_ok (h : d.makeOne path = .ok made) : made = d.put path .directory := by
  unfold makeOne at h
  split at h
  · cases h
  · split at h
    · cases h
    · exact (Except.ok.inj h).symm

/-- A directory is made where nothing stood, and only if the one it lies in is
there. -/
theorem grown_of_makeAll (h : d.makeAll paths = .ok made) : d.Grown made paths := by
  induction paths generalizing made with
  | nil =>
    cases h
    exact .refl d []
  | cons path parents ih =>
    rw [makeAll] at h
    split at h
    · cases h
      exact .refl d _
    · cases h
    · rename_i hnone
      split at h
      · cases h
      · cases h
      · rename_i before hparents
        rw [makeOne_eq_ok h]
        exact (ih hparents).put hnone

theorem grown_of_makeDirectories (h : d.makeDirectories (Path.directoryOf path) = .ok made) :
    d.Grown made (d.directoriesTo path) := by
  unfold makeDirectories at h
  split at h
  · cases h
    exact .refl d _
  · exact grown_of_makeAll h

/-! ## Writing a file -/

theorem wroteOnly_of_write (hgrown : d.Grown made (d.directoriesTo path))
    (h : made.write path text = .ok written) : d.WroteOnly written path text := by
  have hcontent := read_of_write h
  obtain ⟨_, hfile, _, rfl⟩ := write_eq_ok_iff.mp h
  refine ⟨hgrown.workingDirectory, hcontent, fun hdirectory => ?_, fun other hplace => ?_⟩
  · obtain hsame | ⟨hnone, _⟩ := hgrown.entries path
    · exact hfile (hsame.trans hdirectory)
    · rw [hdirectory] at hnone
      cases hnone
  · rw [entry?_put_of_ne hplace]
    exact hgrown.entries other

namespace WroteOnly

variable {content : ByteArray}

/-- What stood somewhere else still stands there. -/
theorem entry?_eq {e : DiskEntry} (h : d.WroteOnly written path text)
    (hplace : placeOf other ≠ placeOf path) (he : d.entry? other = some e) :
    written.entry? other = some e := by
  obtain hsame | ⟨hnone, _⟩ := h.entries other hplace
  · exact hsame.trans he
  · rw [he] at hnone
    cases hnone

/-- A way that was free stays free. -/
theorem wayAlong_eq_ok {parents : List String} (h : d.WroteOnly written path text)
    (hway : d.wayAlong parents = .ok ()) : written.wayAlong parents = .ok () := by
  induction parents with
  | nil => rfl
  | cons parent parents ih =>
    obtain ⟨hparents, hparent⟩ := wayAlong_cons_eq_ok.mp hway
    -- The file was not written in the place of a directory.
    have hplace : placeOf parent ≠ placeOf path := fun hplace =>
      h.no_directory (entry?_congr hplace ▸ hparent)
    exact wayAlong_cons_eq_ok.mpr ⟨ih hparents, h.entry?_eq hplace hparent⟩

/-- Every other file is read as before. -/
theorem read_eq (h : d.WroteOnly written path text) (hplace : placeOf other ≠ placeOf path)
    (hread : d.read other = .ok content) : written.read other = .ok content := by
  obtain ⟨hway, hfile⟩ := read_eq_ok_iff.mp hread
  obtain ⟨hrefusal, halong⟩ := wayTo_eq_ok_iff.mp hway
  refine read_eq_ok_iff.mpr ⟨wayTo_eq_ok_iff.mpr ⟨hrefusal, ?_⟩, h.entry?_eq hplace hfile⟩
  rw [parentsOf, parents_congr h.workingDirectory]
  exact h.wayAlong_eq_ok halong

end WroteOnly

end ShapeScript.Disk
