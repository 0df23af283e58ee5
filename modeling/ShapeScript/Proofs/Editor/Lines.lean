/-
ShapeScript.Proofs.Editor.Lines — words of a text found line by line.

An editor splits a text into lines and names a place by its line and by
the characters before it on that line. `Place.Names` says which index of
the text such a place has, by counting the characters of the lines above.

A word that is set apart in the text, with no alphanumeric character next
to it, has its first and its last character on the same line, because a
line breaks only behind a line end (`endsLine_before`) and those are not
alphanumeric. So what is found from any of its places is that word
(`wordAt_of_setApart`).
-/
import Mathlib.Data.List.Infix
import ShapeScript.Editor.Word
import ShapeScript.Proofs.Token.LineEnds

namespace ShapeScript

/-! ## Classes of characters -/

namespace Text

/-- Ranges that do not overlap have no character in common. -/
theorem inRanges_eq_false {ranges others : List (Nat × Nat)} {c : Char}
    (hdisjoint : ∀ r ∈ ranges, ∀ o ∈ others, r.2 < o.1 ∨ o.2 < r.1)
    (h : inRanges ranges c) : inRanges others c = false := by
  obtain ⟨r, hr, hc⟩ := List.any_eq_true.mp h
  refine List.any_eq_false.mpr fun o ho hin => ?_
  simp only [Bool.and_eq_true, decide_eq_true_eq] at hc hin
  have := hdisjoint r hr o ho
  omega

theorem isAlphanumeric_of_isBlank {c : Char} (h : isBlank c) : isAlphanumeric c = false :=
  inRanges_eq_false (by decide +kernel) h

theorem isBlank_of_endsLine {c : Char} (h : endsLine c) : isBlank c := by
  simp only [endsLine, Bool.or_eq_true, Bool.and_eq_true, decide_eq_true_eq, beq_iff_eq] at h
  simp only [isBlank, inRanges, blankRanges, List.any_cons, List.any_nil, Bool.or_eq_true,
    Bool.and_eq_true, decide_eq_true_eq]
  omega

/-- No line ends within a word. -/
theorem isAlphanumeric_of_endsLine {c : Char} (h : endsLine c) : isAlphanumeric c = false :=
  isAlphanumeric_of_isBlank (isBlank_of_endsLine h)

/-! ## Lines -/

theorem flatten_consToFirst (c : Char) (ls : List (List Char)) :
    (consToFirst c ls).flatten = c :: ls.flatten := by
  cases ls <;> rfl

/-- The lines of a text are that text. -/
theorem flatten_lines (text : List Char) : (lines text).flatten = text := by
  fun_induction lines text with
  | case1 => rfl
  | case2 rest ih => rw [List.flatten_cons, ih]; rfl
  | case3 c rest _ hc ih => rw [List.flatten_cons, ih]; rfl
  | case4 c rest _ hc ih => rw [flatten_consToFirst, ih]

/-- Every line but the last ends with a line end. -/
def Terminated (ls : List (List Char)) : Prop :=
  ∀ i, 0 < i → i < ls.length → ∃ x ∈ (ls.take i).flatten.getLast?, endsLine x

theorem Terminated.cons {line : List Char} {ls : List (List Char)} (hls : Terminated ls)
    (hline : ∃ x ∈ line.getLast?, endsLine x) : Terminated (line :: ls) := by
  intro i hpos hi
  obtain ⟨k, rfl⟩ := Nat.exists_eq_succ_of_ne_zero hpos.ne'
  rw [List.take_succ_cons, List.flatten_cons]
  rcases Nat.eq_zero_or_pos k with rfl | hk
  · rwa [List.take_zero, List.flatten_nil, List.append_nil]
  · obtain ⟨x, hx, hends⟩ := hls k hk (Nat.lt_of_succ_lt_succ hi)
    exact ⟨x, List.mem_getLast?_append_of_mem_getLast? hx, hends⟩

theorem Terminated.consToFirst {c : Char} {ls : List (List Char)} (hls : Terminated ls) :
    Terminated (consToFirst c ls) := by
  intro i hpos hi
  obtain ⟨k, rfl⟩ := Nat.exists_eq_succ_of_ne_zero hpos.ne'
  cases ls with
  | nil => exact absurd hi (Nat.not_lt.mpr (Nat.succ_le_succ (Nat.zero_le k)))
  | cons line ls =>
    obtain ⟨x, hx, hends⟩ := hls (k + 1) hpos hi
    exact ⟨x, @List.mem_getLast?_append_of_mem_getLast? _ [c] _ _ hx, hends⟩

theorem terminated_lines (text : List Char) : Terminated (lines text) := by
  fun_induction lines text with
  | case1 => exact fun i _ hi => absurd hi (Nat.not_lt_zero i)
  | case2 rest ih => exact ih.cons ⟨'\n', rfl, rfl⟩
  | case3 c rest _ hc ih => exact ih.cons ⟨c, rfl, hc⟩
  | case4 c rest _ hc ih => exact ih.consToFirst

end Text

namespace Editor

/-! ## Words of a line -/

/-- No alphanumeric character stands at the end of what is before a word,
or at the start of what is after it. -/
structure SetApart (before after : List Char) : Prop where
  before : ∀ x ∈ before.getLast?, Text.isAlphanumeric x = false
  after : ∀ x ∈ after.head?, Text.isAlphanumeric x = false

section Words

variable {before word after : List Char}

theorem runBefore_append {p : Char → Bool} {u : List Char}
    (hbefore : ∀ x ∈ before.getLast?, p x = false) (hu : ∀ x ∈ u, p x) :
    runBefore p (before ++ u) = u := by
  rw [← List.head?_reverse] at hbefore
  rw [runBefore, List.reverse_append,
    takeWhile_append_of_head (fun x hx => hu x (List.mem_reverse.mp hx)) hbefore,
    List.reverse_reverse]

/-- A word set apart in a line is found from any of its places. -/
theorem wordInLine_of_setApart (h : SetApart before after)
    (hword : ∀ x ∈ word, Text.isAlphanumeric x) {k : Nat} (hlow : before.length ≤ k)
    (hhigh : k ≤ before.length + word.length) :
    wordInLine (before ++ (word ++ after)) k = some word := by
  obtain ⟨i, rfl⟩ := Nat.exists_eq_add_of_le hlow
  have hi : i ≤ word.length := Nat.le_of_add_le_add_left hhigh
  have htake : (before ++ (word ++ after)).take (before.length + i) = before ++ word.take i := by
    rw [List.take_length_add_append, List.take_append_of_le_length hi]
  have hdrop : (before ++ (word ++ after)).drop (before.length + i) = word.drop i ++ after := by
    rw [List.drop_length_add_append, List.drop_append_of_le_length hi]
  have hfits : ¬ (before ++ (word ++ after)).length < before.length + i := by
    simp only [List.length_append]
    omega
  rw [wordInLine, if_neg hfits, htake, hdrop,
    runBefore_append h.before fun x hx => hword x (List.mem_of_mem_take hx),
    takeWhile_append_of_head (fun x hx => hword x (List.mem_of_mem_drop hx)) h.after,
    List.take_append_drop]

end Words

/-! ## Places -/

/-- The characters of the lines above a line. -/
def above (text : List Char) (line : Nat) : List Char := ((Text.lines text).take line).flatten

/-- The place is that of an index of the text: it lies on a line, and as
many characters stand above the line and before it on the line. -/
def Place.Names (text : List Char) (place : Place) (n : Nat) : Prop :=
  ∃ line, (Text.lines text)[place.line]? = some line ∧ place.character < line.length ∧
    (above text place.line).length + place.character = n

section Places

variable {text line : List Char} {i n : Nat}

theorem above_prefix (text : List Char) (i : Nat) : above text i <+: text := by
  refine ⟨((Text.lines text).drop i).flatten, ?_⟩
  rw [above, ← List.flatten_append, List.take_append_drop, Text.flatten_lines]

theorem above_succ (hline : (Text.lines text)[i]? = some line) :
    above text (i + 1) = above text i ++ line := by
  rw [above, List.take_add_one, hline, List.flatten_append, Option.toList_some,
    List.flatten_singleton]
  rfl

theorem above_of_length_le (h : (Text.lines text).length ≤ i) : above text i = text := by
  rw [above, List.take_of_length_le h, Text.flatten_lines]

/-- An index of lists in a row is an index of one of them. -/
theorem exists_line {ls : List (List Char)} (hn : n < ls.flatten.length) :
    ∃ i line k, ls[i]? = some line ∧ k < line.length ∧ (ls.take i).flatten.length + k = n := by
  induction ls generalizing n with
  | nil => exact absurd hn (Nat.not_lt_zero n)
  | cons line ls ih =>
    rw [List.flatten_cons, List.length_append] at hn
    by_cases hline : n < line.length
    · exact ⟨0, line, n, rfl, hline, Nat.zero_add n⟩
    · obtain ⟨i, found, k, hfound, hk, hsum⟩ := ih (n := n - line.length) (by omega)
      refine ⟨i + 1, found, k, hfound, hk, ?_⟩
      rw [List.take_succ_cons, List.flatten_cons, List.length_append]
      omega

/-- Every index of a text has a place. -/
theorem exists_names (hn : n < text.length) : ∃ place : Place, place.Names text n := by
  rw [← Text.flatten_lines text] at hn
  obtain ⟨i, line, k, hline, hk, hsum⟩ := exists_line hn
  exact ⟨⟨i, k⟩, line, hline, hk, hsum⟩

end Places

section SetApart

variable {text before word after : List Char}

/-- No line starts within a word or directly behind it. -/
theorem start_not_in_word (htext : text = before ++ (word ++ after))
    (hword : ∀ x ∈ word, Text.isAlphanumeric x) {i : Nat} (hi : i < (Text.lines text).length)
    (hlow : before.length < (above text i).length) :
    before.length + word.length < (above text i).length := by
  have hpos : 0 < i := by
    rcases Nat.eq_zero_or_pos i with rfl | hpos
    · exact absurd hlow (Nat.not_lt_zero _)
    · exact hpos
  obtain ⟨x, hx, hends⟩ := Text.terminated_lines text i hpos hi
  rw [← above] at hx
  have hprefix := above_prefix text i
  generalize above text i = start at *
  subst htext
  by_contra hhigh
  -- otherwise the line end in front is a character of the word
  obtain ⟨u, rfl⟩ : before <+: start :=
    List.prefix_of_prefix_length_le (List.prefix_append _ _) hprefix hlow.le
  have hu : u <+: word := by
    refine List.prefix_of_prefix_length_le ((List.prefix_append_right_inj before).mp hprefix)
      (List.prefix_append word after) ?_
    rw [List.length_append] at hhigh
    omega
  have hne : u ≠ [] := by
    rintro rfl
    rw [List.append_nil] at hlow
    exact Nat.lt_irrefl _ hlow
  rw [List.getLast?_append_of_ne_nil _ hne] at hx
  have halnum := hword x (hu.subset (List.mem_of_getLast? hx))
  rw [Text.isAlphanumeric_of_endsLine hends] at halnum
  cases halnum

/-- A line on which a word has a place has all of the word, set apart. -/
theorem line_of_setApart (htext : text = before ++ (word ++ after)) (h : SetApart before after)
    (hword : ∀ x ∈ word, Text.isAlphanumeric x) (hafter : after ≠ []) {i k : Nat}
    {line : List Char} (hline : (Text.lines text)[i]? = some line) (hk : k < line.length)
    (hlow : before.length ≤ (above text i).length + k)
    (hhigh : (above text i).length + k ≤ before.length + word.length) :
    ∃ left right, line = left ++ (word ++ right) ∧ SetApart left right ∧
      before = above text i ++ left := by
  have hi : i < (Text.lines text).length := (List.getElem?_eq_some_iff.mp hline).1
  have hstart : (above text i).length ≤ before.length := by
    by_contra hlt
    have := start_not_in_word htext hword hi (Nat.lt_of_not_le hlt)
    omega
  have hnext := above_succ hline
  have hfinish : before.length + word.length < (above text i ++ line).length := by
    rw [← hnext]
    by_cases hlast : i + 1 < (Text.lines text).length
    · refine start_not_in_word htext hword hlast ?_
      rw [hnext, List.length_append]
      omega
    · rw [above_of_length_le (Nat.le_of_not_lt hlast), htext, List.length_append,
        List.length_append]
      have := List.length_pos_of_ne_nil hafter
      omega
  have hlines := above_prefix text (i + 1)
  rw [hnext] at hlines
  have habove := above_prefix text i
  generalize above text i = start at *
  subst htext
  obtain ⟨left, rfl⟩ : start <+: before :=
    List.prefix_of_prefix_length_le habove (List.prefix_append _ _) hstart
  simp only [List.append_assoc, List.prefix_append_right_inj, List.length_append] at hlines hfinish
  obtain ⟨right, hright⟩ : left ++ word <+: line := by
    refine List.prefix_of_prefix_length_le ⟨after, List.append_assoc left word after⟩ hlines ?_
    rw [List.length_append]
    omega
  obtain rfl : line = left ++ (word ++ right) := hright.symm.trans (List.append_assoc _ _ _)
  obtain ⟨s, rfl⟩ : right <+: after := by
    rwa [List.prefix_append_right_inj, List.prefix_append_right_inj] at hlines
  refine ⟨left, right, rfl, ⟨fun x hx => ?_, fun x hx => ?_⟩, rfl⟩
  · exact h.before x (List.mem_getLast?_append_of_mem_getLast? hx)
  · exact h.after x (List.mem_head?_append_of_mem_head? hx)

/-- A word that is set apart in a document is found from the place of any
index from its start to its end. -/
theorem wordAt_of_setApart {document : String}
    (htext : document.toList = before ++ (word ++ after)) (h : SetApart before after)
    (hword : ∀ x ∈ word, Text.isAlphanumeric x) (hafter : after ≠ []) {place : Place} {n : Nat}
    (hlow : before.length ≤ n) (hhigh : n ≤ before.length + word.length)
    (hplace : place.Names document.toList n) :
    wordAt document place.line place.character = some (String.ofList word) := by
  obtain ⟨line, hline, hk, rfl⟩ := hplace
  obtain ⟨left, right, rfl, hset, hbefore⟩ :=
    line_of_setApart htext h hword hafter hline hk hlow hhigh
  rw [hbefore, List.length_append] at hlow hhigh
  rw [wordAt, hline]
  show (wordInLine _ _).map String.ofList = _
  rw [wordInLine_of_setApart hset hword (by omega) (by omega)]
  rfl

end SetApart

end Editor

end ShapeScript
