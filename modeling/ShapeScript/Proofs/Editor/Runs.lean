/-
ShapeScript.Proofs.Editor.Runs — the word at any place of any document.

Whatever is in a document, a cursor on a line touches runs of alphanumeric
characters, among them the empty one, and one of these holds all others:
`LargestRun`. It is found by cutting the line where it begins and where it
ends, which sets it apart (`exists_setApart`).

An editor may name places that no line has. A line that is not there has no
word, but a place beyond a line, its terminator included, has no answer at
all (`wordAt_cases`), although such a place stands for the end of the line.
-/
import ShapeScript.Proofs.Editor.Lines

namespace ShapeScript

/-! ## Terminators -/

/-- A line without its terminator. -/
def Text.content (line : List Char) : List Char := line.takeWhile (!endsLine ·)

/-- Behind the first line end of a line there are only line ends. -/
theorem Text.endsLine_of_mem_dropWhile {text line : List Char} (hline : line ∈ lines text) :
    ∀ x ∈ line.dropWhile (!endsLine ·), endsLine x := by
  fun_induction lines text generalizing line with
  | case1 => cases hline
  | case2 rest ih =>
    obtain rfl | hline := List.mem_cons.mp hline
    · exact List.all_eq_true.mp rfl
    · exact ih hline
  | case3 c rest _ hc ih =>
    obtain rfl | hline := List.mem_cons.mp hline
    · simp [hc]
    · exact ih hline
  | case4 c rest _ hc ih =>
    have hcons : ∀ more, (c :: more).dropWhile (!endsLine ·) = more.dropWhile (!endsLine ·) :=
      fun more => List.dropWhile_cons_of_pos (by simpa using hc)
    cases hrest : lines rest with
    | nil =>
      rw [hrest, consToFirst, List.mem_singleton] at hline
      rw [hline, hcons]
      exact List.forall_mem_nil _
    | cons first more =>
      rw [hrest] at hline ih
      obtain rfl | hline := List.mem_cons.mp hline
      · rw [hcons]
        exact ih List.mem_cons_self
      · exact ih (List.mem_cons_of_mem _ hline)

/-- A line is its content and then line ends. -/
theorem Text.eq_content_append {text line : List Char} (hline : line ∈ lines text) :
    ∃ ending, line = content line ++ ending ∧ ∀ x ∈ ending, endsLine x :=
  ⟨_, List.takeWhile_append_dropWhile.symm, endsLine_of_mem_dropWhile hline⟩

namespace Editor

/-! ## Runs -/

/-- The characters of the text between two of its places are alphanumeric,
and the cursor stands at one of the two or between them. -/
structure RunAt (text : List Char) (k a b : Nat) : Prop where
  low : a ≤ k
  high : k ≤ b
  fits : b ≤ text.length
  chars : ∀ i x, a ≤ i → i < b → text[i]? = some x → Text.isAlphanumeric x

/-- The word is written in the line by the run that holds all runs of its
place. -/
def LargestRun (line : List Char) (k : Nat) (word : List Char) : Prop :=
  ∃ a b, RunAt line k a b ∧ line.extract a b = word ∧
    ∀ a' b', RunAt line k a' b' → a ≤ a' ∧ b' ≤ b

section Runs

variable {line before word word' after : List Char} {k : Nat}

theorem LargestRun.unique (h : LargestRun line k word) (h' : LargestRun line k word') :
    word = word' := by
  obtain ⟨a, b, hrun, rfl, hall⟩ := h
  obtain ⟨a', b', hrun', rfl, hall'⟩ := h'
  obtain ⟨ha, hb⟩ := hall a' b' hrun'
  obtain ⟨ha', hb'⟩ := hall' a b hrun
  rw [Nat.le_antisymm ha ha', Nat.le_antisymm hb hb']

/-- A character that is not alphanumeric is in no run. -/
theorem RunAt.outside {a b i : Nat} {x : Char} (h : RunAt word k a b) (hx : word[i]? = some x)
    (hno : Text.isAlphanumeric x = false) : i < a ∨ b ≤ i := by
  by_contra hin
  obtain ⟨hlow, hhigh⟩ := not_or.mp hin
  have hyes := h.chars i x (Nat.le_of_not_lt hlow) (Nat.lt_of_not_le hhigh) hx
  rw [hno] at hyes
  cases hyes

theorem eq_false_of_mem_head?_dropWhile {p : Char → Bool} {cs : List Char} :
    ∀ x ∈ (cs.dropWhile p).head?, p x = false := by
  intro x hx
  have h := List.head?_dropWhile_not p cs
  rwa [Option.mem_def.mp hx] at h

/-- Every place of a line is that of a word, maybe an empty one, that is set
apart in it. -/
theorem exists_setApart (hk : k ≤ line.length) :
    ∃ before word after, line = before ++ (word ++ after) ∧ SetApart before after ∧
      (∀ x ∈ word, Text.isAlphanumeric x) ∧ before.length ≤ k ∧
      k ≤ before.length + word.length := by
  obtain ⟨u, v, rfl, rfl⟩ : ∃ u v, line = u ++ v ∧ u.length = k :=
    ⟨_, _, (List.take_append_drop k line).symm, List.length_take_of_le hk⟩
  have hu : u = (u.reverse.dropWhile Text.isAlphanumeric).reverse ++
      runBefore Text.isAlphanumeric u := by
    rw [runBefore, ← List.reverse_append, List.takeWhile_append_dropWhile, List.reverse_reverse]
  have hlength := congrArg List.length hu
  rw [List.length_append] at hlength
  refine ⟨(u.reverse.dropWhile Text.isAlphanumeric).reverse,
    runBefore Text.isAlphanumeric u ++ v.takeWhile Text.isAlphanumeric,
    v.dropWhile Text.isAlphanumeric, ?_, ⟨fun x hx => ?_, eq_false_of_mem_head?_dropWhile⟩,
    fun x hx => ?_, ?_, ?_⟩
  · rw [List.append_assoc, List.takeWhile_append_dropWhile, ← List.append_assoc, ← hu]
  · rw [List.getLast?_reverse] at hx
    exact eq_false_of_mem_head?_dropWhile x hx
  · obtain hx | hx := List.mem_append.mp hx
    · exact List.mem_takeWhile_imp (List.mem_reverse.mp hx)
    · exact List.mem_takeWhile_imp hx
  · omega
  · rw [List.length_append]
    omega

/-- A word that is set apart holds every run of its places. -/
theorem largestRun_of_setApart (h : SetApart before after)
    (hword : ∀ x ∈ word, Text.isAlphanumeric x) (hlow : before.length ≤ k)
    (hhigh : k ≤ before.length + word.length) :
    LargestRun (before ++ (word ++ after)) k word := by
  have hfits : before.length + word.length ≤ (before ++ (word ++ after)).length := by
    simp only [List.length_append]
    omega
  have hat : ∀ i, (before ++ (word ++ after))[before.length + i]? = (word ++ after)[i]? := by
    intro i
    rw [List.getElem?_append_right (Nat.le_add_right _ _), Nat.add_sub_cancel_left]
  refine ⟨before.length, before.length + word.length, ⟨hlow, hhigh, hfits, ?_⟩, ?_,
    fun a b hrun => ⟨?_, ?_⟩⟩
  · intro i x hi hlt hx
    obtain ⟨j, rfl⟩ := Nat.exists_eq_add_of_le hi
    rw [hat, List.getElem?_append_left (Nat.lt_of_add_lt_add_left hlt)] at hx
    exact hword x (List.mem_of_getElem? hx)
  · rw [List.extract_eq_take_drop, List.drop_left, Nat.add_sub_cancel_left, List.take_left]
  · -- the character before the word is outside of the run
    cases hlast : before.getLast? with
    | none =>
      rw [List.getLast?_eq_none_iff.mp hlast]
      exact Nat.zero_le a
    | some x =>
      have hx := List.getLast?_eq_getElem?.symm.trans hlast
      obtain ⟨hbound, -⟩ := List.getElem?_eq_some_iff.mp hx
      have hkb := hrun.high
      obtain hlt | hle :=
        hrun.outside ((List.getElem?_append_left hbound).trans hx) (h.before x hlast)
      · omega
      · omega
  · -- and so is the one behind it
    have hnext : (before ++ (word ++ after))[before.length + word.length]? = after.head? := by
      rw [hat, List.getElem?_append_right (Nat.le_refl _), Nat.sub_self, List.head?_eq_getElem?]
    cases hafter : after.head? with
    | none => exact Nat.le_trans hrun.fits (List.getElem?_eq_none_iff.mp (hnext.trans hafter))
    | some x =>
      have hak := hrun.low
      obtain hlt | hle := hrun.outside (hnext.trans hafter) (h.after x hafter)
      · omega
      · exact hle

/-- A place of a line's content has its largest run as word. -/
theorem wordInLine_of_le_content {text : List Char} (hline : line ∈ Text.lines text)
    (hk : k ≤ (Text.content line).length) :
    ∃ word, wordInLine line k = some word ∧ LargestRun (Text.content line) k word := by
  obtain ⟨ending, hsplit, hending⟩ := Text.eq_content_append hline
  obtain ⟨before, word, after, hcontent, hset, hword, hlow, hhigh⟩ := exists_setApart hk
  have hset' : SetApart before (after ++ ending) := by
    refine ⟨hset.before, fun x hx => ?_⟩
    rw [List.head?_append, Option.mem_def, Option.or_eq_some_iff] at hx
    obtain hx | ⟨-, hx⟩ := hx
    · exact hset.after x hx
    · exact Text.isAlphanumeric_of_endsLine (hending x (List.mem_of_head? hx))
  refine ⟨word, ?_, hcontent ▸ largestRun_of_setApart hset hword hlow hhigh⟩
  rw [hsplit, hcontent, List.append_assoc, List.append_assoc]
  exact wordInLine_of_setApart hset' hword hlow hhigh

/-- A place in a line's terminator or behind it has no word. -/
theorem wordInLine_of_content_lt {text : List Char} (hline : line ∈ Text.lines text)
    (hcontent : (Text.content line).length < k) (hk : k ≤ line.length) :
    wordInLine line k = some [] := by
  obtain ⟨ending, hsplit, hending⟩ := Text.eq_content_append hline
  obtain ⟨i, rfl⟩ := Nat.exists_eq_add_of_lt hcontent
  have hends : ∀ x ∈ ending, Text.isAlphanumeric x = false :=
    fun x hx => Text.isAlphanumeric_of_endsLine (hending x hx)
  have hlengths := congrArg List.length hsplit
  rw [List.length_append] at hlengths
  have hi : i + 1 ≤ ending.length := by omega
  have hlength : (Text.content line ++ ending.take (i + 1)).length =
      (Text.content line).length + i + 1 := by
    rw [List.length_append, List.length_take_of_le hi, Nat.add_assoc]
  have hset : SetApart (Text.content line ++ ending.take (i + 1)) (ending.drop (i + 1)) := by
    refine ⟨fun x hx => hends x ?_,
      fun x hx => hends x (List.mem_of_mem_drop (List.mem_of_head? hx))⟩
    have hne : ending.take (i + 1) ≠ [] :=
      List.ne_nil_of_length_pos (by rw [List.length_take_of_le hi]; exact Nat.succ_pos i)
    rw [List.getLast?_append_of_ne_nil _ hne] at hx
    exact List.mem_of_mem_take (List.mem_of_getLast? hx)
  have hcut : line = (Text.content line ++ ending.take (i + 1)) ++ ([] ++ ending.drop (i + 1)) := by
    rw [List.nil_append, List.append_assoc, List.take_append_drop, ← hsplit]
  rw [← hlength]
  nth_rewrite 1 [hcut]
  exact wordInLine_of_setApart hset (List.forall_mem_nil _) (Nat.le_refl _) (Nat.le_refl _)

end Runs

/-- What is answered for any line and character. A line that the document
does not have has no word. At the places of a line's content the word is the
largest run there is; at those of its terminator there is none; and beyond
the line there is no answer. -/
theorem wordAt_cases (document : String) (line character : Nat) :
    ((Text.lines document.toList)[line]? = none → wordAt document line character = some "") ∧
    ∀ cs, (Text.lines document.toList)[line]? = some cs →
      (character ≤ (Text.content cs).length → ∃ word,
        wordAt document line character = some (.ofList word) ∧
          ∀ run, LargestRun (Text.content cs) character run ↔ run = word) ∧
      ((Text.content cs).length < character → character ≤ cs.length →
        wordAt document line character = some "") ∧
      (cs.length < character → wordAt document line character = none) := by
  refine ⟨fun hnone => ?_, fun cs hcs => ⟨fun hk => ?_, fun hcontent hk => ?_, fun hk => ?_⟩⟩
  · rw [wordAt, hnone]
  · have hline := List.mem_of_getElem? hcs
    obtain ⟨word, hword, hlargest⟩ := wordInLine_of_le_content hline hk
    refine ⟨word, ?_, fun run => ⟨fun hrun => hrun.unique hlargest, fun h => h ▸ hlargest⟩⟩
    simp only [wordAt, hcs, hword, Option.map_some]
  · have hword := wordInLine_of_content_lt (List.mem_of_getElem? hcs) hcontent hk
    simp only [wordAt, hcs, hword, Option.map_some]
  · simp only [wordAt, hcs, wordInLine, if_pos hk, Option.map_none]

/-- A place behind the only line of a document has no answer, and the place
behind its terminator, if it has one, has the empty word. The largest run at
the line's end is another word. -/
theorem wordAt_beyond_line :
    ((Text.lines "abc".toList)[0]? = some "abc".toList ∧ wordAt "abc" 0 5 = none) ∧
    ((Text.lines "abc\n".toList)[0]? = some "abc\n".toList ∧
      Text.content "abc\n".toList = "abc".toList ∧ wordAt "abc\n" 0 4 = some "") ∧
    ∀ run, LargestRun "abc".toList 3 run ↔ run = "abc".toList := by
  have hlargest : LargestRun "abc".toList 3 "abc".toList := by
    have hnone : ∀ x ∈ (none : Option Char), Text.isAlphanumeric x = false :=
      fun x hx => absurd hx (Option.not_mem_none x)
    exact @largestRun_of_setApart [] ['a', 'b', 'c'] [] 3 ⟨hnone, hnone⟩
      (List.all_eq_true.mp rfl) (by decide) (by decide)
  exact ⟨⟨by decide +kernel, by decide +kernel⟩,
    ⟨by decide +kernel, by decide +kernel, by decide +kernel⟩,
    fun run => ⟨fun hrun => hrun.unique hlargest, fun h => h ▸ hlargest⟩⟩

end Editor

end ShapeScript
