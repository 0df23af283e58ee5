/-
ShapeScript.Proofs.Json.Numbers — numbers read back.

A number is a whole part, a fraction and an exponent (`Numeral`). The
reader takes each as far as it goes, so that it reads such a text back
whenever what follows is no digit, point or exponent (`EndsNumber`), and
what it makes of it is the decimal of all its digits. The compact text of
a decimal has that form, in four ways, and in all of them the decimal
that is read has the same value, if not the same digits
(`compact_numeral`). So it rounds to the same double.
-/
import ShapeScript.Proofs.Json.Strings
import ShapeScript.Proofs.Number.Shortest

namespace ShapeScript.Json

open Number

variable {cs rest : List Char}

/-! ## Digits -/

/-- Digits, and at least one. -/
def IsDigits (ds : List Char) : Prop := ds ≠ [] ∧ ∀ c ∈ ds, isNumeral c = true

/-- Digits that do not start with a needless zero. -/
def IsWhole (ds : List Char) : Prop := IsDigits ds ∧ ∀ c more, ds ≠ '0' :: c :: more

/-- What no number goes on with. -/
def EndsNumber (rest : List Char) : Prop :=
  ∀ c ∈ rest.head?, isNumeral c = false ∧ c ≠ '.' ∧ c ≠ 'e' ∧ c ≠ 'E'

theorem isDigits_digitsOf (n : Nat) : IsDigits (digitsOf n) := by
  refine ⟨Nat.toDigits_ne_nil, fun c hc => ?_⟩
  exact Nat.isDigit_of_mem_toDigits (by decide) (by decide) hc

theorem head?_digitsOf {n : Nat} (h : 0 < n) : (digitsOf n).head? ≠ some '0' := by
  unfold digitsOf
  induction n using Nat.strongRecOn with
  | _ n ih =>
    rw [Nat.toDigits_eq_if (by decide)]
    split
    · simp [h.ne']
    · rw [List.head?_append_of_ne_nil _ Nat.toDigits_ne_nil]
      exact ih (n / 10) (by omega) (by omega)

@[simp] theorem valueOfDigits_digitsOf (n : Nat) : valueOfDigits (digitsOf n) = n :=
  Nat.ofDigitChars_ten_toDigits

theorem valueOfDigits_zeros_append (k : Nat) (ds : List Char) :
    valueOfDigits (List.replicate k '0' ++ ds) = valueOfDigits ds := by
  have hzeros : Nat.ofDigitChars 10 (List.replicate k '0') 0 = 0 := by simp
  exact (Nat.ofDigitChars_append 0).trans (congrArg (Nat.ofDigitChars 10 ds) hzeros)

theorem valueOfDigits_append_zeros (ds : List Char) (k : Nat) :
    valueOfDigits (ds ++ List.replicate k '0') = 10 ^ k * valueOfDigits ds :=
  (Nat.ofDigitChars_append 0).trans Nat.ofDigitChars_replicate_zero

theorem gives_digitsPart {ds : List Char} (hds : IsDigits ds)
    (hrest : ∀ c ∈ rest.head?, isNumeral c = false) : (digitsPart (ds ++ rest)).Gives ds rest := by
  obtain ⟨c, ds, rfl⟩ := List.exists_cons_of_ne_nil hds.1
  have hmore : ∀ c ∈ ds, isNumeral c = true := fun c hc => hds.2 c (List.mem_cons_of_mem _ hc)
  have hstop : rest.takeWhile isNumeral = [] ∧ rest.dropWhile isNumeral = rest := by
    cases rest with
    | nil => exact ⟨rfl, rfl⟩
    | cons c rest => simp [hrest c rfl]
  refine ⟨by simp only [List.cons_append, List.length_cons, List.length_append]; omega, ?_⟩
  simp only [List.cons_append, digitsPart, hds.2 c List.mem_cons_self, if_true,
    List.takeWhile_append_of_pos hmore, List.dropWhile_append_of_pos hmore, hstop, List.append_nil]

/-! ## The parts of a number -/

/-- A fraction, if there is one. -/
def fractionChars : Option (List Char) → List Char
  | none => []
  | some ds => '.' :: ds

/-- An exponent, if there is one. -/
def exponentChars : Option Int → List Char
  | none => []
  | some e => 'e' :: exponentText e

theorem gives_wholePart {ds : List Char} (hds : IsWhole ds)
    (hrest : ∀ c ∈ rest.head?, isNumeral c = false) : (wholePart (ds ++ rest)).Gives ds rest := by
  obtain ⟨hlt, hdigits⟩ := gives_digitsPart hds.1 hrest
  refine ⟨hlt, ?_⟩
  unfold wholePart
  rw [hdigits]
  split
  · rename_i h
    cases h
    exact absurd rfl (hds.2 _ _)
  · rfl

theorem fractionPart_eq {f : Option (List Char)} (hf : ∀ ds ∈ f, IsDigits ds)
    (hrest : ∀ c ∈ rest.head?, isNumeral c = false ∧ c ≠ '.') :
    fractionPart (fractionChars f ++ rest) = (f, rest) := by
  cases f with
  | none =>
    unfold fractionPart fractionChars
    rw [List.nil_append]
    split
    · exact absurd rfl (hrest '.' rfl).2
    · rfl
  | some ds =>
    obtain ⟨hlt, hdigits⟩ := gives_digitsPart (hf ds rfl) fun c hc => (hrest c hc).1
    rw [fractionChars, List.cons_append, fractionPart, hdigits]

/-- An exponent is a sign and digits of its magnitude. -/
theorem exponentText_eq (e : Int) : ∃ ds, IsDigits ds ∧ valueOfDigits ds = e.natAbs ∧
    exponentText e = (if e < 0 then '-' else '+') :: ds := by
  have hdigits := isDigits_digitsOf e.natAbs
  by_cases hshort : (digitsOf e.natAbs).length < 2
  · refine ⟨'0' :: digitsOf e.natAbs, ⟨List.cons_ne_nil _ _, ?_⟩, ?_, ?_⟩
    · exact List.forall_mem_cons.mpr ⟨rfl, hdigits.2⟩
    · exact (valueOfDigits_zeros_append 1 _).trans (valueOfDigits_digitsOf _)
    · rw [exponentText, if_pos hshort]
  · refine ⟨digitsOf e.natAbs, hdigits, valueOfDigits_digitsOf _, ?_⟩
    rw [exponentText, if_neg hshort]

theorem exponentPart_eq {e : Option Int} (hrest : EndsNumber rest) :
    exponentPart (exponentChars e ++ rest) = (e, rest) := by
  cases e with
  | none =>
    rw [exponentChars, List.nil_append]
    unfold exponentPart
    split
    · rename_i c more
      obtain ⟨_, _, hsmall, hlarge⟩ := hrest c rfl
      rw [if_neg (by simp [hsmall, hlarge])]
    · rfl
  | some e =>
    obtain ⟨ds, hds, hvalue, htext⟩ := exponentText_eq e
    obtain ⟨hlt, hdigits⟩ := gives_digitsPart hds fun c hc => (hrest c hc).1
    by_cases hsign : e < 0
    · rw [exponentChars, htext, if_pos hsign, List.cons_append, List.cons_append, exponentPart,
        if_pos (.inl rfl), hdigits]
      simp only [hvalue, Prod.mk.injEq, Option.some.injEq, and_true]
      omega
    · rw [exponentChars, htext, if_neg hsign, List.cons_append, List.cons_append, exponentPart,
        if_pos (.inl rfl), hdigits]
      simp only [hvalue, Prod.mk.injEq, Option.some.injEq, and_true]
      omega

/-- The text of a number that is no integer, without its sign. -/
structure Numeral where
  whole : List Char
  fraction : Option (List Char)
  exponent : Option Int
  isWhole : IsWhole whole
  isFraction : ∀ ds ∈ fraction, IsDigits ds
  notInteger : fraction = none → exponent = none → False

namespace Numeral

/-- Its characters. -/
def chars (n : Numeral) : List Char :=
  n.whole ++ (fractionChars n.fraction ++ exponentChars n.exponent)

/-- The decimal that it denotes. -/
def decimal (n : Numeral) : Decimal :=
  ⟨valueOfDigits (n.whole ++ n.fraction.getD []), n.exponent.getD 0 - (n.fraction.getD []).length⟩

end Numeral

/-- What the parts of a number denote. -/
def numberOf (negative : Bool) (whole : List Char) : Option (List Char) → Option Int → Json
  | none, none => int (if negative then -valueOfDigits whole else valueOfDigits whole)
  | f, e => number (ofDecimal negative
      ⟨valueOfDigits (whole ++ f.getD []), e.getD 0 - (f.getD []).length⟩)

/-- A number is read part by part. -/
theorem gives_numberPart_of {whole afterWhole afterFraction : List Char} {f : Option (List Char)}
    {e : Option Int} (negative : Bool) (hwhole : (wholePart cs).Gives whole afterWhole)
    (hfraction : fractionPart afterWhole = (f, afterFraction))
    (hexponent : exponentPart afterFraction = (e, rest)) :
    (numberPart negative cs).Gives (numberOf negative whole f e) rest := by
  obtain ⟨hlt, hwhole⟩ := hwhole
  have hrest : rest.length < cs.length := by
    have hle := length_exponentPart_le afterFraction
    have hle' := length_fractionPart_le afterWhole
    rw [hexponent] at hle
    rw [hfraction] at hle'
    exact Nat.lt_of_le_of_lt (hle.trans hle') hlt
  refine ⟨hrest, ?_⟩
  unfold numberPart
  rw [hwhole]
  simp only [hfraction, hexponent]
  cases f <;> cases e <;> rfl

/-- The text of a number is read as the double nearest to its decimal. -/
theorem gives_numberPart (n : Numeral) (negative : Bool) (hrest : EndsNumber rest) :
    (numberPart negative (n.chars ++ rest)).Gives (number (ofDecimal negative n.decimal)) rest := by
  have hafterFraction : ∀ c ∈ (exponentChars n.exponent ++ rest).head?,
      isNumeral c = false ∧ c ≠ '.' := by
    cases n.exponent with
    | none => exact fun c hc => ⟨(hrest c hc).1, (hrest c hc).2.1⟩
    | some e =>
      rintro _ ⟨⟩
      exact ⟨rfl, by decide⟩
  have hafterWhole : ∀ c ∈ (fractionChars n.fraction ++ (exponentChars n.exponent ++ rest)).head?,
      isNumeral c = false := by
    cases n.fraction with
    | none => exact fun c hc => (hafterFraction c hc).1
    | some ds =>
      rintro _ ⟨⟩
      rfl
  have hnumber := gives_numberPart_of negative (gives_wholePart n.isWhole hafterWhole)
    (fractionPart_eq n.isFraction hafterFraction) (exponentPart_eq hrest)
  have hnot := n.notInteger
  rw [Numeral.chars, Numeral.decimal, List.append_assoc, List.append_assoc]
  generalize n.fraction = f at *
  generalize n.exponent = e at *
  cases f with
  | none =>
    cases e with
    | none => exact (hnot rfl rfl).elim
    | some e => exact hnumber
  | some ds => exact hnumber

/-- The text of an integer is read as its value. -/
theorem gives_numberPart_int {ds : List Char} (hds : IsWhole ds) (negative : Bool)
    (hrest : EndsNumber rest) : (numberPart negative (ds ++ rest)).Gives
      (int (if negative then -valueOfDigits ds else valueOfDigits ds)) rest := by
  have hfraction : fractionPart (fractionChars none ++ rest) = (none, rest) :=
    fractionPart_eq (fun _ h => absurd h (Option.not_mem_none _)) fun c hc => ⟨(hrest c hc).1, (hrest c hc).2.1⟩
  have hexponent : exponentPart (exponentChars none ++ rest) = (none, rest) := exponentPart_eq hrest
  exact gives_numberPart_of negative (gives_wholePart hds fun c hc => (hrest c hc).1) hfraction
    hexponent

/-! ## Compact texts -/

theorem IsDigits.append {ds ds' : List Char} (h : IsDigits ds)
    (h' : ∀ c ∈ ds', isNumeral c = true) : IsDigits (ds ++ ds') := by
  refine ⟨List.append_ne_nil_of_left_ne_nil h.1 ds', fun c hc => ?_⟩
  exact (List.mem_append.mp hc).elim (h.2 c) (h' c)

theorem IsDigits.isWhole {ds : List Char} (h : IsDigits ds) (hzero : ds.head? ≠ some '0') :
    IsWhole ds :=
  ⟨h, fun c more hds => hzero (by rw [hds, List.head?_cons])⟩

theorem isWhole_single {c : Char} (h : isNumeral c = true) : IsWhole [c] :=
  ⟨⟨List.cons_ne_nil c [], by simpa using h⟩, by simp⟩

theorem isNumeral_of_mem_zeros {k : Nat} {c : Char} (h : c ∈ List.replicate k '0') :
    isNumeral c = true := by
  rw [List.eq_of_mem_replicate h]
  rfl

theorem notInteger_of_fraction {ds : List Char} {exponent : Option Int} :
    some ds = none → exponent = none → False :=
  fun h => absurd h (Option.some_ne_none ds)

section Compact

variable {ds : List Char}

/-- Digits on both sides of a point, and a zero behind it if nothing else
is. -/
def pointedChars : List Char × List Char → List Char
  | (whole, []) => whole ++ ['.', '0']
  | (whole, fraction) => whole ++ '.' :: fraction

/-- One digit before the point, and an exponent. -/
def exponentForm (e : Int) : List Char → List Char
  | first :: [] => first :: 'e' :: exponentText e
  | first :: more => first :: '.' :: more ++ 'e' :: exponentText e
  | [] => 'e' :: exponentText e

/-- A point before the last digit leaves digits on both sides, without a
needless zero in front and with the last digit at the end. -/
theorem placePoint_inside {k : Int} (hds : IsDigits ds) (hhead : ds.head? ≠ some '0')
    (hk : k < ds.length) : ∃ whole fraction, placePoint ds k = (whole, fraction) ∧
      IsWhole whole ∧ IsDigits fraction ∧ fraction.getLast? = ds.getLast? ∧
        valueOfDigits (whole ++ fraction) = valueOfDigits ds ∧
          (fraction.length : Int) = ds.length - k := by
  unfold placePoint
  split
  · refine ⟨_, _, rfl, isWhole_single rfl, ?_, ?_, ?_, ?_⟩
    · exact ⟨List.append_ne_nil_of_right_ne_nil _ hds.1, fun c hc =>
        (List.mem_append.mp hc).elim isNumeral_of_mem_zeros (hds.2 c)⟩
    · rw [List.getLast?_append_of_ne_nil _ hds.1]
    · exact valueOfDigits_zeros_append ((-k).toNat + 1) ds
    · rw [List.length_append, List.length_replicate]
      omega
  · rename_i hpos
    have hsome : k.toNat < ds.length := by omega
    have hrest : ds.drop k.toNat ≠ [] := by
      rw [ne_eq, List.drop_eq_nil_iff]
      omega
    rw [Nat.sub_eq_zero_of_le hsome.le, List.replicate_zero, List.append_nil]
    refine ⟨_, _, rfl, ?_, ⟨hrest, fun c hc => hds.2 c (List.mem_of_mem_drop hc)⟩, ?_, ?_, ?_⟩
    · refine IsDigits.isWhole ⟨?_, fun c hc => hds.2 c (List.mem_of_mem_take hc)⟩ ?_
      · rw [ne_eq, List.take_eq_nil_iff, not_or]
        exact ⟨by omega, hds.1⟩
      · rwa [List.head?_take, if_neg (by omega)]
    · rw [List.getLast?_drop, if_neg (by omega)]
    · rw [List.take_append_drop]
    · rw [List.length_drop]
      omega

/-- The point stands before the last digit. -/
theorem pointed_inside {k : Int} (hds : IsDigits ds) (hhead : ds.head? ≠ some '0')
    (hk : k < ds.length) :
    ∃ n : Numeral, n.chars = pointedChars (placePoint ds k) ∧
      n.decimal.value = valueOfDigits ds * 10 ^ (k - ds.length) := by
  obtain ⟨whole, fraction, hplace, hwhole, hfraction, -, hvalue, hlength⟩ :=
    placePoint_inside hds hhead hk
  obtain ⟨c, fraction, rfl⟩ := List.exists_cons_of_ne_nil hfraction.1
  rw [hplace]
  refine ⟨⟨whole, some (c :: fraction), none, hwhole, ?_, notInteger_of_fraction⟩, ?_, ?_⟩
  · rintro _ ⟨⟩
    exact hfraction
  · simp [Numeral.chars, fractionChars, exponentChars, pointedChars]
  · simp only [Numeral.decimal, Decimal.value, Option.getD_some, Option.getD_none, hvalue, hlength]
    congr 2
    omega

/-- The point stands behind the last digit. -/
theorem pointed_behind {k : Int} (hds : IsDigits ds) (hhead : ds.head? ≠ some '0') (hk : ¬ k ≤ 0)
    (hall : ds.length ≤ k.toNat) :
    ∃ n : Numeral, n.chars = pointedChars (placePoint ds k) ∧
      n.decimal.value = valueOfDigits ds * 10 ^ (k - ds.length) := by
  have hwhole : IsWhole (ds ++ List.replicate (k.toNat - ds.length) '0') := by
    refine (hds.append fun c => isNumeral_of_mem_zeros).isWhole ?_
    rwa [List.head?_append_of_ne_nil _ hds.1]
  rw [placePoint, if_neg hk, List.take_of_length_le hall, List.drop_of_length_le hall]
  refine ⟨⟨_, some ['0'], none, hwhole, ?_, notInteger_of_fraction⟩, ?_, ?_⟩
  · rintro _ ⟨⟩
    exact (isWhole_single rfl).1
  · simp [Numeral.chars, fractionChars, exponentChars, pointedChars]
  · have hvalue := valueOfDigits_append_zeros ds (k.toNat - ds.length + 1)
    rw [List.replicate_succ', ← List.append_assoc] at hvalue
    have hplaces : k - ds.length = (k.toNat - ds.length + 1 : Nat) - 1 := by omega
    simp only [Numeral.decimal, Decimal.value, Option.getD_some, Option.getD_none, hvalue,
      List.length_singleton, Nat.cast_one, zero_sub]
    rw [hplaces, zpow_sub_one₀ (by norm_num), zpow_neg_one, zpow_natCast, Nat.cast_mul,
      Nat.cast_pow, Nat.cast_ofNat]
    ring

theorem pointed_numeral (k : Int) (hds : IsDigits ds) (hhead : ds.head? ≠ some '0') :
    ∃ n : Numeral, n.chars = pointedChars (placePoint ds k) ∧
      n.decimal.value = valueOfDigits ds * 10 ^ (k - ds.length) := by
  obtain hk | hk := lt_or_ge k ds.length
  · exact pointed_inside hds hhead hk
  · have hpos : 0 < ds.length := List.length_pos_iff.mpr hds.1
    exact pointed_behind hds hhead (by omega) (by omega)

theorem exponent_numeral (e : Int) (hds : IsDigits ds) :
    ∃ n : Numeral, n.chars = exponentForm e ds ∧
      n.decimal.value = valueOfDigits ds * 10 ^ (e + 1 - ds.length) := by
  obtain ⟨first, more, rfl⟩ := List.exists_cons_of_ne_nil hds.1
  have hfirst : IsWhole [first] := isWhole_single (hds.2 first List.mem_cons_self)
  cases more with
  | nil =>
    refine ⟨⟨[first], none, some e, hfirst, ?_, fun _ => Option.some_ne_none e⟩, rfl, ?_⟩
    · exact fun ds hds => absurd hds (Option.not_mem_none ds)
    · simp [Numeral.decimal, Decimal.value]
  | cons second more =>
    have hmore : IsDigits (second :: more) :=
      ⟨List.cons_ne_nil _ _, fun c hc => hds.2 c (List.mem_cons_of_mem _ hc)⟩
    refine ⟨⟨[first], some (second :: more), some e, hfirst, ?_, notInteger_of_fraction⟩, ?_, ?_⟩
    · rintro _ ⟨⟩
      exact hmore
    · simp [Numeral.chars, fractionChars, exponentChars, exponentForm]
    · simp [Numeral.decimal, Decimal.value]

end Compact

/-- The compact text of a decimal is that of a number, with its value. -/
theorem compact_numeral {d : Decimal} (h : 0 < d.digits) :
    ∃ n : Numeral, n.chars = d.compact ∧ n.decimal.value = d.value := by
  have hvalue : d.value = valueOfDigits (digitsOf d.digits) * 10 ^ d.exponent := by
    rw [valueOfDigits_digitsOf, Decimal.value]
  unfold Decimal.compact
  dsimp only
  rw [hvalue]
  split
  · obtain ⟨n, hchars, hn⟩ := pointed_numeral ((digitsOf d.digits).length + d.exponent - 1 + 1)
      (isDigits_digitsOf d.digits) (head?_digitsOf h)
    refine ⟨n, hchars, hn.trans ?_⟩
    congr 2
    omega
  · obtain ⟨n, hchars, hn⟩ := exponent_numeral ((digitsOf d.digits).length + d.exponent - 1)
      (isDigits_digitsOf d.digits)
    refine ⟨n, hchars, hn.trans ?_⟩
    congr 2
    omega

end ShapeScript.Json
