/-
ShapeScript.Proofs.Json.Scalars — words and numbers read back.

A word is told from the others by its first character, and a number
starts with none of those, so the reader comes to a number only where
there is one. What the reader makes of its digits is the double they are
the shortest text of; an integer has its own digits. In both cases the
text must not go on with a character of a number.
-/
import ShapeScript.Proofs.Json.Numbers
import ShapeScript.Proofs.Number.Binary64

namespace ShapeScript.Json

open Number

variable {cs rest : List Char}

/-! ## Words -/

theorem gives_wordPart_cons {word : String} {v : Json} {ws : List (String × Json)}
    (hword : word.toList ≠ []) : (wordPart (word.toList ++ rest) ((word, v) :: ws)).Gives v rest := by
  have hlength : word.toList.length = word.length := String.length_toList
  have hpos : 0 < word.length := hlength ▸ List.length_pos_iff.mpr hword
  have hstarts : word.toList.isPrefixOf (word.toList ++ rest) = true :=
    List.isPrefixOf_iff_prefix.mpr (List.prefix_append _ _)
  have hdrop : (word.toList ++ rest).drop word.length = rest := by
    rw [← hlength, List.drop_left]
  have hlt : rest.length < (word.toList ++ rest).length := by
    rw [List.length_append]
    omega
  refine ⟨hlt, ?_⟩
  rw [wordPart, dif_pos ⟨hstarts, hpos, Nat.zero_lt_of_lt hlt⟩]
  simp only [hdrop]

/-- The characters of the words. -/
theorem toList_words : words.map (fun w => w.1.toList) =
    [['n', 'u', 'l', 'l'], ['t', 'r', 'u', 'e'], ['f', 'a', 'l', 's', 'e'], ['N', 'a', 'N'],
      ['I', 'n', 'f', 'i', 'n', 'i', 't', 'y'],
      ['-', 'I', 'n', 'f', 'i', 'n', 'i', 't', 'y']] := by
  rfl

theorem wordPart_eq_none {ws : List (String × Json)}
    (h : ∀ word ∈ ws.map (fun w => w.1.toList), ¬ word <+: cs) : wordPart cs ws = none := by
  induction ws with
  | nil => rfl
  | cons w ws ih =>
    rw [List.map_cons, List.forall_mem_cons] at h
    rw [wordPart, dif_neg fun hw => h.1 (List.isPrefixOf_iff_prefix.mp hw.1), ih h.2]

/-- Of words that start differently, a word is read as its value. -/
theorem gives_wordPart {ws : List (String × Json)} {word : String} {v : Json}
    (hne : ∀ w ∈ ws, w.1.toList ≠ []) (hheads : (ws.map fun w => w.1.toList.head?).Nodup)
    (h : (word, v) ∈ ws) (rest : List Char) :
    (wordPart (word.toList ++ rest) ws).Gives v rest := by
  induction ws with
  | nil => cases h
  | cons w ws ih =>
    rw [List.forall_mem_cons] at hne
    rw [List.map_cons, List.nodup_cons] at hheads
    rcases List.mem_cons.mp h with rfl | h
    · exact gives_wordPart_cons hne.1
    · have hskip : ¬ (w.1.toList.isPrefixOf (word.toList ++ rest) = true) := by
        intro hstarts
        obtain ⟨more, hmore⟩ := List.isPrefixOf_iff_prefix.mp hstarts
        refine hheads.1 (List.mem_map.mpr ⟨(word, v), h, ?_⟩)
        rw [← List.head?_append_of_ne_nil _ (hne.2 _ h), ← hmore,
          List.head?_append_of_ne_nil _ hne.1]
      rw [wordPart, dif_neg fun hw => hskip hw.1]
      exact ih hne.2 hheads.2 h

/-- The text of a word is read as its value. -/
theorem gives_valuePart_word {word : String} {v : Json} (h : (word, v) ∈ words)
    (rest : List Char) : (valuePart (word.toList ++ rest)).Gives v rest := by
  have hne : ∀ w ∈ words, w.1.toList ≠ [] := by
    have : ∀ cs ∈ words.map fun w => w.1.toList, cs ≠ [] := by
      rw [toList_words]
      decide
    exact fun w hw => this _ (List.mem_map_of_mem hw)
  have hheads : (words.map fun w => w.1.toList.head?).Nodup := by
    have : ((words.map fun w => w.1.toList).map List.head?).Nodup := by
      rw [toList_words]
      decide
    rwa [List.map_map] at this
  obtain ⟨hlt, hword⟩ := gives_wordPart hne hheads h rest
  have hstart : ∀ c ∈ (word.toList ++ rest).head?, c ≠ '"' ∧ c ≠ '[' ∧ c ≠ '\x7b' := by
    rw [List.head?_append_of_ne_nil _ (hne _ h)]
    have : ∀ cs ∈ words.map fun w => w.1.toList,
        ∀ c ∈ cs.head?, c ≠ '"' ∧ c ≠ '[' ∧ c ≠ '\x7b' := by
      rw [toList_words]
      simp
    exact this _ (List.mem_map_of_mem h)
  refine ⟨hlt, ?_⟩
  generalize word.toList ++ rest = cs at *
  by_cases hminus : ∃ more, cs = '-' :: more
  · obtain ⟨more, rfl⟩ := hminus
    rw [valuePart, hword]
  · rw [valuePart, hword]
    · rintro _ rfl
      exact (hstart _ rfl).1 rfl
    · rintro _ rfl
      exact (hstart _ rfl).2.1 rfl
    · rintro _ rfl
      exact (hstart _ rfl).2.2 rfl
    · exact fun more hmore => hminus ⟨more, hmore⟩

/-- A number starts with no word. -/
theorem wordPart_of_numeral {c : Char} (hc : isNumeral c = true) :
    wordPart (c :: cs) words = none ∧ wordPart ('-' :: c :: cs) words = none := by
  constructor <;>
  · apply wordPart_eq_none
    intro word hword
    rw [toList_words] at hword
    simp only [List.mem_cons, List.not_mem_nil, or_false] at hword
    obtain rfl | rfl | rfl | rfl | rfl | rfl := hword <;> rintro ⟨_, ⟨⟩⟩ <;> cases hc

/-! ## Numbers -/

/-- A number is read from the text of its magnitude with its sign. -/
theorem gives_valuePart_withSign {ds : List Char} {v : Json} {negative : Bool}
    (hds : ∃ c ∈ ds.head?, isNumeral c = true) (h : (numberPart negative ds).Gives v rest) :
    (valuePart (withSign negative ds)).Gives v rest := by
  obtain ⟨c, hc, hnumeral⟩ := hds
  obtain ⟨more, rfl⟩ := List.head?_eq_some_iff.mp hc
  obtain ⟨hwords, hwords'⟩ := @wordPart_of_numeral more c hnumeral
  unfold withSign
  cases negative with
  | true =>
    rw [if_pos rfl, valuePart, hwords']
    exact h.change _ _
  | false =>
    rw [if_neg Bool.false_ne_true, valuePart, hwords]
    · exact h
    all_goals
      rintro _ ⟨⟩
      cases hnumeral

theorem withSign_append (negative : Bool) (ds rest : List Char) :
    withSign negative (ds ++ rest) = withSign negative ds ++ rest := by
  unfold withSign
  split <;> rfl

theorem toList_int (n : Int) : (toString n).toList = withSign (n < 0) (digitsOf n.natAbs) := by
  rw [Int.toString_eq_repr, Int.repr_eq_if, withSign, digitsOf]
  obtain h | h := le_or_gt 0 n
  · have habs : n.toNat = n.natAbs := by omega
    rw [if_pos h, if_neg (by simpa using h), Nat.toList_repr, habs]
  · have habs : (-n).toNat = n.natAbs := by omega
    rw [if_neg (Int.not_le.mpr h), if_pos (by simpa using h), String.toList_append,
      Nat.toList_repr, habs]
    rfl

theorem isWhole_digitsOf (n : Nat) : IsWhole (digitsOf n) := by
  obtain rfl | hpos := Nat.eq_zero_or_pos n
  · exact isWhole_single rfl
  · exact (isDigits_digitsOf n).isWhole (head?_digitsOf hpos)

theorem IsDigits.head? {ds : List Char} (h : IsDigits ds) (rest : List Char) :
    ∃ c ∈ (ds ++ rest).head?, isNumeral c = true := by
  obtain ⟨c, ds, rfl⟩ := List.exists_cons_of_ne_nil h.1
  exact ⟨c, rfl, h.2 c List.mem_cons_self⟩

/-- An integer is read back from its text. -/
theorem gives_valuePart_int (n : Int) (hrest : EndsNumber rest) :
    (valuePart ((toString n).toList ++ rest)).Gives (int n) rest := by
  have hvalue : (if n < 0 then -(valueOfDigits (digitsOf n.natAbs) : Int)
      else valueOfDigits (digitsOf n.natAbs)) = n := by
    rw [valueOfDigits_digitsOf]
    split <;> omega
  have hnumber := gives_numberPart_int (isWhole_digitsOf n.natAbs) (n < 0) hrest
  simp only [decide_eq_true_eq, hvalue] at hnumber
  rw [toList_int, ← withSign_append]
  exact gives_valuePart_withSign ((isDigits_digitsOf _).head? rest) hnumber

/-- The compact text of a finite double is that of a number, which is read
as that double. -/
theorem compactText_numeral {x : Float} (h : isFinite x = true) :
    ∃ n : Numeral, (compactText x).toList = withSign (isNegative x) n.chars ∧
      ofDecimal (isNegative x) n.decimal = x := by
  unfold compactText
  dsimp only
  rw [String.toList_ofList]
  have hx := ofMagnitude_magnitude x
  have hfinite : magnitude x < infiniteMagnitude := of_decide_eq_true h
  generalize magnitude x = bits at *
  generalize isNegative x = negative at *
  split
  · rename_i hzero
    refine ⟨⟨['0'], some ['0'], none, isWhole_single rfl, ?_, notInteger_of_fraction⟩, rfl, ?_⟩
    · rintro _ ⟨⟩
      exact (isWhole_single rfl).1
    · have hzeros : valueOfDigits (['0'] ++ (some ['0']).getD []) = 0 := rfl
      rw [← hx, hzero, Numeral.decimal, ofDecimal, hzeros, Nat.zero_mul, nearestMagnitude,
        if_pos rfl]
  · rename_i hzero
    have hround := shortest_roundsTo (Nat.pos_of_ne_zero hzero)
    obtain ⟨n, hchars, hvalue⟩ := compact_numeral (shortest_digits_pos (Nat.pos_of_ne_zero hzero))
    refine ⟨n, by rw [hchars], ?_⟩
    rw [ofDecimal_eq negative hfinite (hvalue ▸ hround), hx]

/-- Every double is read back from its text. -/
theorem gives_valuePart_number (x : Float) (hrest : EndsNumber rest) :
    (valuePart ((numberText x).toList ++ rest)).Gives (number x) rest := by
  unfold numberText
  cases hfinite : isFinite x with
  | true =>
    obtain ⟨n, hchars, hvalue⟩ := compactText_numeral hfinite
    have hnumber := gives_numberPart n (isNegative x) hrest
    rw [hvalue] at hnumber
    rw [if_pos rfl, hchars, ← withSign_append]
    refine gives_valuePart_withSign ?_ hnumber
    rw [Numeral.chars, List.append_assoc]
    exact n.isWhole.1.head? _
  | false =>
    rw [if_neg Bool.false_ne_true, SpecialWords.of]
    cases hnan : isNaN x with
    | true =>
      rw [if_pos rfl, eq_nan hnan]
      exact gives_valuePart_word (by simp [words, numberWords]) rest
    | false =>
      have hx := eq_infinity hfinite hnan
      rw [if_neg Bool.false_ne_true]
      cases hnegative : isNegative x with
      | true =>
        rw [hnegative, if_pos rfl] at hx
        rw [if_pos rfl, hx]
        exact gives_valuePart_word (by simp [words, numberWords]) rest
      | false =>
        rw [hnegative, if_neg Bool.false_ne_true] at hx
        rw [if_neg Bool.false_ne_true, hx]
        exact gives_valuePart_word (by simp [words, numberWords]) rest

end ShapeScript.Json
