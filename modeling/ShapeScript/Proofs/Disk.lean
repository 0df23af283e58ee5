/-
ShapeScript.Proofs.Disk — what stands on a disk after something was put.

Putting something at a path changes what stands at that place and at no
other (`entry?_put_of_ne`). The way to a path leads through directories, and
a text is written only where no directory stands. So writing a file leaves
the way to it open, and reading the file gives what was written
(`read_of_write`). Whether a disk takes a file does not depend on the text
(`exists_write`), so a disk accepts a path or it does not.
-/
import ShapeScript.Disk

namespace ShapeScript.Disk

variable {d made written : Disk} {path other text : String} {e : DiskEntry}

/-! ## Entries -/

theorem lookup_filter {α : Type} {entries : List (String × α)} {place other : String}
    (h : other ≠ place) :
    (entries.filter (·.1 != place)).lookup other = entries.lookup other := by
  induction entries with
  | nil => rfl
  | cons entry entries ih =>
    obtain ⟨name, a⟩ := entry
    by_cases hname : name = place
    · rw [List.filter_cons_of_neg (by simp [hname]), ih, List.lookup_cons, hname,
        beq_eq_false_iff_ne.mpr h]
    · rw [List.filter_cons_of_pos (by simp [hname]), List.lookup_cons, List.lookup_cons, ih]

theorem entry?_put_of_ne (h : placeOf other ≠ placeOf path) :
    Disk.entry? (d.put path e) other = d.entry? other := by
  unfold entry?
  rw [put, List.lookup_cons, beq_eq_false_iff_ne.mpr h]
  exact congrArg (if d.isAncestor other then some DiskEntry.directory else ·) (lookup_filter h)

/-- Paths to one place lead to one entry. -/
theorem entry?_congr (h : placeOf path = placeOf other) : d.entry? path = d.entry? other := by
  unfold entry? isAncestor
  rw [h]

theorem entry?_put (h : d.entry? path ≠ some .directory) :
    Disk.entry? (d.put path e) path = some e := by
  have hancestor : (d.put path e).isAncestor path = false := by
    rw [Bool.eq_false_iff]
    intro hancestor
    exact h (if_pos hancestor)
  unfold entry?
  rw [hancestor, put, List.lookup_cons, beq_self_eq_true]
  rfl

/-! ## Reading what was written -/

theorem wayAlong_cons_eq_ok {parent : String} {parents : List String} :
    d.wayAlong (parent :: parents) = .ok () ↔
      d.wayAlong parents = .ok () ∧ d.entry? parent = some .directory := by
  rw [wayAlong]
  cases d.wayAlong parents with
  | error e => simp
  | ok u =>
    cases d.entry? parent with
    | none => simp
    | some entry => cases entry <;> simp

/-- A way through directories stays open if nothing is put in the place of
one. -/
theorem wayAlong_put {parents : List String} (h : d.entry? path ≠ some .directory)
    (hway : d.wayAlong parents = .ok ()) : (d.put path e).wayAlong parents = .ok () := by
  induction parents with
  | nil => rfl
  | cons parent parents ih =>
    obtain ⟨hparents, hparent⟩ := wayAlong_cons_eq_ok.mp hway
    have hplace : placeOf parent ≠ placeOf path := by
      intro hplace
      rw [entry?_congr hplace] at hparent
      exact h hparent
    rw [wayAlong_cons_eq_ok, entry?_put_of_ne hplace]
    exact ⟨ih hparents, hparent⟩

theorem parents_put (steps : Nat) (start : String) :
    (d.put path e).parents steps start = d.parents steps start := by
  induction steps generalizing start with
  | zero => rfl
  | succ steps ih =>
    rw [parents, parents, ih]
    rfl

theorem wayTo_put (h : d.entry? path ≠ some .directory) (hway : d.wayTo path = .ok ()) :
    (d.put path e).wayTo path = .ok () := by
  unfold wayTo parentsOf at hway ⊢
  rw [parents_put]
  split at hway
  · cases hway
  · exact wayAlong_put h hway

/-- A text is written if the way to the path is open, no directory stands
there, and its name is not too long. -/
theorem write_eq_ok_iff : d.write path text = .ok written ↔
    d.wayTo path = .ok () ∧ d.entry? path ≠ some .directory ∧ hasLongName path = false ∧
      written = d.put path (.file text.toUTF8) := by
  unfold write
  cases d.wayTo path with
  | error e => simp
  | ok u =>
    cases d.entry? path with
    | none => cases hasLongName path <;> simp [eq_comm]
    | some entry => cases entry <;> cases hasLongName path <;> simp [eq_comm]

/-- Reading a file gives the text that was written to it. -/
theorem read_of_write (h : d.write path text = .ok written) :
    written.read path = .ok text.toUTF8 := by
  obtain ⟨hway, hentry, _, rfl⟩ := write_eq_ok_iff.mp h
  rw [read, wayTo_put hentry hway, entry?_put hentry]

/-! ## Accepting a file -/

/-- A file can be written at a path, once the directories on the way to it
are made. -/
def accepts (d : Disk) (path : String) : Bool :=
  match d.makeDirectories (Path.directoryOf path) with
  | .error _ => false
  | .ok made => (made.write path "").isOk

/-- A disk that takes a text takes any. -/
theorem exists_write (h : d.write path text = .ok written) (text' : String) :
    ∃ written', d.write path text' = .ok written' := by
  obtain ⟨hway, hentry, hname, _⟩ := write_eq_ok_iff.mp h
  exact ⟨_, write_eq_ok_iff.mpr ⟨hway, hentry, hname, rfl⟩⟩

theorem accepts_iff (text : String) : d.accepts path = true ↔
    ∃ made written, d.makeDirectories (Path.directoryOf path) = .ok made ∧
      made.write path text = .ok written := by
  unfold accepts
  cases d.makeDirectories (Path.directoryOf path) with
  | error e => simp
  | ok made =>
    constructor
    · intro h
      cases hwrite : made.write path "" with
      | error e => simp [hwrite, Except.isOk, Except.toBool] at h
      | ok written =>
        obtain ⟨written', hwrite'⟩ := exists_write hwrite text
        exact ⟨made, written', rfl, hwrite'⟩
    · rintro ⟨_, written, ⟨⟩, hwrite⟩
      obtain ⟨written', hwrite'⟩ := exists_write hwrite ""
      simp only [hwrite']
      rfl

end ShapeScript.Disk
