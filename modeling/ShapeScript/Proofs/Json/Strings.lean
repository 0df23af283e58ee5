/-
ShapeScript.Proofs.Json.Strings — string literals read back.

A part that was read is a value and what is left of the text
(`Part.Gives`); that something is left over from a shorter text is what
the reader recurs on, and of no interest here.

Every character has one escape, and the reader takes it apart again
whatever follows. The one escape that needs a look at what follows is
that of a unit: two of them may be a pair. A character below U+10000 is
no half of a pair, since no character is a surrogate, so there the second
unit, if there is one, is left alone.
-/
import ShapeScript.Json.Printer
import ShapeScript.Json.Reader

namespace ShapeScript.Json

variable {α β : Type} {m n : Nat} {cs rest : List Char}

/-- A value was read, and this is what is left. -/
def Part.Gives (p : Part α n) (a : α) (rest : List Char) : Prop := ∃ h, p = some (a, ⟨rest, h⟩)

theorem Part.Gives.change {p : Part α m} {a : α} (h : p.Gives a rest) (hmn : m ≤ n) (f : α → β) :
    (p.change hmn f).Gives (f a) rest := by
  obtain ⟨hrest, rfl⟩ := h
  exact ⟨Nat.lt_of_lt_of_le hrest hmn, rfl⟩

/-! ## Units -/

/-- Hexadecimal digits, the last of them split off. -/
theorem hexDigits_succ {width : Nat} (hwidth : 0 < width) (n : Nat) :
    Text.hexDigits (width + 1) n =
      Text.hexDigits width (n / 16) ++ [Nat.digitChar (n % 16)] := by
  unfold Text.hexDigits
  dsimp only
  rw [Nat.toDigits_eq_if (by decide)]
  split
  · rename_i hn
    rw [Nat.div_eq_of_lt hn, Nat.mod_eq_of_lt hn, Nat.toDigits_zero]
    obtain ⟨width, rfl⟩ := Nat.exists_eq_succ_of_ne_zero (Nat.ne_of_gt hwidth)
    simp [List.replicate_succ']
  · simp

/-- A unit is written with four digits. -/
theorem hexDigits_unit {u : Nat} (h : u < 0x10000) :
    Text.hexDigits 4 u = [Nat.digitChar (u / 16 / 16 / 16), Nat.digitChar (u / 16 / 16 % 16),
      Nat.digitChar (u / 16 % 16), Nat.digitChar (u % 16)] := by
  have hfirst : u / 16 / 16 / 16 < 16 := by omega
  rw [hexDigits_succ (by decide), hexDigits_succ (by decide), hexDigits_succ (by decide),
    Text.hexDigits, Nat.toDigits_of_lt_base hfirst]
  rfl

theorem hexValue?_digitChar : ∀ d < 16, hexValue? d.digitChar = some d := by
  decide

theorem gives_unitPart {u : Nat} (h : u < 0x10000) (rest : List Char) :
    (unitPart (Text.hexDigits 4 u ++ rest)).Gives u rest := by
  have hunit : unit? (Nat.digitChar (u / 16 / 16 / 16)) (Nat.digitChar (u / 16 / 16 % 16))
      (Nat.digitChar (u / 16 % 16)) (Nat.digitChar (u % 16)) = some u := by
    rw [unit?, hexValue?_digitChar _ (by omega), hexValue?_digitChar _ (by omega),
      hexValue?_digitChar _ (by omega), hexValue?_digitChar _ (by omega)]
    exact congrArg some (by omega)
  rw [hexDigits_unit h]
  refine ⟨by simp only [List.length_append, List.length_cons]; omega, ?_⟩
  simp only [List.cons_append, List.nil_append, unitPart, hunit, Option.map_some]

/-- No character is a surrogate. -/
theorem toNat_valid (c : Char) : c.toNat < 0xD800 ∨ 0xE000 ≤ c.toNat ∧ c.toNat < 0x110000 := by
  obtain h | ⟨h, h'⟩ := c.valid
  · exact .inl h
  · exact .inr ⟨h, h'⟩

/-- A unit that is no half of a pair is a character, whatever follows. -/
theorem gives_codePart_unit {u : Nat} (hunit : (unitPart cs).Gives u rest)
    (hpair : ∀ low, isPair u low = false) : (codePart cs).Gives (Char.ofNat u) rest := by
  obtain ⟨hrest, hunit⟩ := hunit
  refine ⟨hrest, ?_⟩
  unfold codePart
  rw [hunit]
  dsimp only
  split
  · split
    · rw [hpair, if_neg Bool.false_ne_true]
    · rfl
  · rfl

/-- Two units that are a pair are the character that they stand for. -/
theorem gives_codePart_pair {more : List Char} {high low : Nat}
    (hhigh : (unitPart cs).Gives high ('\\' :: 'u' :: more)) (hlow : (unitPart more).Gives low rest)
    (hpair : isPair high low = true) :
    (codePart cs).Gives (Char.ofNat (pairValue high low)) rest := by
  obtain ⟨hmore, hhigh⟩ := hhigh
  obtain ⟨hrest, hlow⟩ := hlow
  refine ⟨by simp only [List.length_cons] at hmore; omega, ?_⟩
  unfold codePart
  rw [hhigh]
  dsimp only
  split
  · rename_i _ heq
    obtain rfl := (List.cons.inj (List.cons.inj heq).2).2
    rw [hlow]
    dsimp only
    rw [if_pos hpair]
  · rename_i hother
    exact absurd rfl (hother more)

theorem gives_escapePart_code {c : Char} (h : (codePart cs).Gives c rest) :
    (escapePart ('u' :: cs)).Gives c rest :=
  h.change (Nat.le_succ _) id

/-! ## Characters -/

theorem gives_stringPart_escape {c : Char} {s after : List Char}
    (hc : (escapePart cs).Gives c rest) (hs : (stringPart rest).Gives s after) :
    (stringPart ('\\' :: cs)).Gives (c :: s) after := by
  obtain ⟨hrest, hc⟩ := hc
  rw [stringPart, hc]
  exact hs.change _ _

theorem gives_stringPart_plain {c : Char} {s : List Char} (hquote : c ≠ '"') (hslash : c ≠ '\\')
    (hcontrol : ¬ c.toNat < 0x20) (hs : (stringPart cs).Gives s rest) :
    (stringPart (c :: cs)).Gives (c :: s) rest := by
  rw [stringPart]
  · rw [if_neg hcontrol]
    exact hs.change _ _
  · exact hquote
  · exact hslash

/-- The units of a code point beyond U+FFFF are a pair that stands for it.
-/
theorem unitsOf_pair {n : Nat} (h : ¬ n < 0x10000) (hn : n < 0x110000) :
    ∃ high low, unitsOf n = [high, low] ∧ high < 0x10000 ∧ low < 0x10000 ∧
      isPair high low = true ∧ pairValue high low = n := by
  refine ⟨_, _, if_neg h, by omega, by omega, ?_, ?_⟩
  · simp only [isPair, Bool.and_eq_true, decide_eq_true_eq]
    omega
  · unfold pairValue
    omega

theorem gives_stringPart_units {c : Char} {s : List Char} (hs : (stringPart cs).Gives s rest) :
    (stringPart ((unitsOf c.toNat).flatMap escapeUnit ++ cs)).Gives (c :: s) rest := by
  have hvalid := toNat_valid c
  by_cases h : c.toNat < 0x10000
  · have hpair : ∀ low, isPair c.toNat low = false := by
      intro low
      simp only [isPair, Bool.and_eq_false_iff, decide_eq_false_iff_not]
      omega
    have hc := gives_codePart_unit (gives_unitPart h cs) hpair
    rw [Char.ofNat_toNat] at hc
    rw [unitsOf, if_pos h, List.flatMap_singleton]
    exact gives_stringPart_escape (gives_escapePart_code hc) hs
  · obtain ⟨high, low, hunits, hhigh, hlow, hpair, hvalue⟩ := unitsOf_pair h (by omega)
    have hc := gives_codePart_pair (gives_unitPart hhigh _) (gives_unitPart hlow cs) hpair
    rw [hvalue, Char.ofNat_toNat] at hc
    rw [hunits, List.flatMap_cons, List.flatMap_singleton, List.append_assoc]
    exact gives_stringPart_escape (gives_escapePart_code hc) hs

theorem gives_stringPart_short {c e : Char} {s : List Char} (he : shortEscape? e = some c)
    (hs : (stringPart cs).Gives s rest) : (stringPart ('\\' :: e :: cs)).Gives (c :: s) rest := by
  have hu : e ≠ 'u' := by
    rintro rfl
    cases he
  refine gives_stringPart_escape ⟨Nat.lt_succ_self _, ?_⟩ hs
  rw [escapePart.eq_3 _ _ hu, he]
  rfl

/-- A character has a short escape, or stands for itself, or is written by
its units. -/
theorem escapeChar_cases (c : Char) :
    (∃ e, shortEscape? e = some c ∧ escapeChar c = ['\\', e]) ∨
      (c ≠ '"' ∧ c ≠ '\\' ∧ ¬ c.toNat < 0x20 ∧ escapeChar c = [c]) ∨
        escapeChar c = (unitsOf c.toNat).flatMap escapeUnit := by
  unfold escapeChar
  split
  · exact .inl ⟨'"', by simp [*, shortEscape?], rfl⟩
  split
  · exact .inl ⟨'\\', by simp [*, shortEscape?], rfl⟩
  split
  · exact .inl ⟨'n', by simp [*, shortEscape?], rfl⟩
  split
  · exact .inl ⟨'r', by simp [*, shortEscape?], rfl⟩
  split
  · exact .inl ⟨'t', by simp [*, shortEscape?], rfl⟩
  split
  · exact .inl ⟨'f', by simp [*, shortEscape?], rfl⟩
  split
  · exact .inl ⟨'b', by simp [*, shortEscape?], rfl⟩
  split
  · rename_i hquote hslash _ _ _ _ _ hplain
    exact .inr (.inl ⟨hquote, hslash, by omega, rfl⟩)
  · exact .inr (.inr rfl)

/-- A character is read back from its escape. -/
theorem gives_stringPart_escapeChar {s : List Char} (c : Char) (hs : (stringPart cs).Gives s rest) :
    (stringPart (escapeChar c ++ cs)).Gives (c :: s) rest := by
  obtain ⟨e, he, hescape⟩ | ⟨hquote, hslash, hcontrol, hescape⟩ | hescape := escapeChar_cases c
  · rw [hescape]
    exact gives_stringPart_short he hs
  · rw [hescape]
    exact gives_stringPart_plain hquote hslash hcontrol hs
  · rw [hescape]
    exact gives_stringPart_units hs

/-- A string is read back from its literal. -/
theorem gives_stringPart (s rest : List Char) :
    (stringPart (s.flatMap escapeChar ++ '"' :: rest)).Gives s rest := by
  induction s with
  | nil =>
    rw [List.flatMap_nil, List.nil_append, stringPart]
    exact ⟨Nat.lt_succ_self _, rfl⟩
  | cons c s ih =>
    rw [List.flatMap_cons, List.append_assoc]
    exact gives_stringPart_escapeChar c ih

end ShapeScript.Json
