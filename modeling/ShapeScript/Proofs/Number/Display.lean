/-
ShapeScript.Proofs.Number.Display — numbers read back from their display.

A concatenation shows a finite double in positional notation. Three
things are proved about that text. It has one form (`IsPositional`):
a minus sign or none, digits without a needless zero in front, and a point
with digits behind it, the last of which is no zero, exactly if the double
is no integer. Read as an expression it has that double as its value, with
the sign of a zero. And so no two finite doubles share a text.

The text without its sign is one number lexeme, and what the scanner makes
of its digits is a double that the digits round to: an integer's digits
denote the integer itself, and any other digits are the shortest ones
(`displayNumber_numeral`). The sign is a lexeme of its own. It is read as
a negation, which turns the sign of the double back (`neg_ofMagnitude`).
-/
import ShapeScript.Proofs.Expr.Precedence
import ShapeScript.Proofs.Json.Scalars
import ShapeScript.Proofs.Number.Arithmetic
import ShapeScript.Proofs.Number.Negation
import ShapeScript.Proofs.Session.Reference
import ShapeScript.Proofs.Token.Writing

namespace ShapeScript

open Number Json

/-! ## Digits and their double -/

namespace Number

variable {bits : Nat}

/-- The rational that a finite double denotes; both zeros denote zero. -/
def toRational (x : Float) : ℚ :=
  if isNegative x then -rational (magnitude x) else rational (magnitude x)

theorem exists_int_iff (x : Float) :
    (∃ n : ℤ, toRational x = n) ↔ ∃ n : ℕ, rational (magnitude x) = n := by
  have hnonneg : 0 ≤ rational (magnitude x) := by
    unfold rational
    positivity
  have hmagnitude : (∃ n : ℤ, rational (magnitude x) = n) ↔
      ∃ n : ℕ, rational (magnitude x) = n := by
    constructor
    · rintro ⟨n, hn⟩
      rw [hn] at hnonneg
      obtain ⟨k, rfl⟩ := Int.eq_ofNat_of_zero_le (by exact_mod_cast hnonneg)
      exact ⟨k, hn⟩
    · rintro ⟨n, hn⟩
      exact ⟨n, hn⟩
  rw [← hmagnitude]
  unfold toRational
  split
  · constructor
    · rintro ⟨n, hn⟩
      exact ⟨-n, by rw [Int.cast_neg, ← hn, neg_neg]⟩
    · rintro ⟨n, hn⟩
      exact ⟨-n, by rw [Int.cast_neg, ← hn]⟩
  · exact Iff.rfl

/-- Digits are read as the double that they round to. -/
theorem ofDigits_eq {whole fraction : List Char} (hbits : bits < infiniteMagnitude)
    (h : RoundsTo bits (valueOfDigits (whole ++ fraction) / 10 ^ fraction.length)) :
    ofDigits whole fraction = ofMagnitude false bits := by
  have htens : ((tenTo fraction.length : Nat) : ℚ) = 10 ^ fraction.length := by
    simp [tenTo]
  have hden : 0 < tenTo fraction.length := Nat.pow_pos (by decide)
  have hnearest : nearestMagnitude (valueOfDigits (whole ++ fraction)) (tenTo fraction.length) =
      bits := nearestMagnitude_eq hden hbits (by
    rw [htens]
    exact h)
  rw [ofDigits, hnearest]

theorem nearestMagnitude_le (num den : Nat) : nearestMagnitude num den ≤ infiniteMagnitude := by
  unfold nearestMagnitude
  split
  · exact Nat.zero_le _
  · exact Nat.min_le_right ..

/-- Digits have no sign, and so has the double that they are read as. -/
theorem isNegative_ofDigits {whole fraction : List Char}
    (h : isFinite (ofDigits whole fraction) = true) :
    isNegative (ofDigits whole fraction) = false := by
  unfold ofDigits at h ⊢
  obtain hlt | hmax := Nat.lt_or_eq_of_le
    (nearestMagnitude_le (valueOfDigits (whole ++ fraction)) (tenTo fraction.length))
  · exact isNegative_ofMagnitude hlt
  · have hinfinite : isFinite (ofMagnitude false infiniteMagnitude) = false := by decide +kernel
    rw [hmax, hinfinite] at h
    cases h

/-- The last digit of a number is that of its remainder by ten. -/
theorem getLast?_digitsOf {n : Nat} (h : n % 10 ≠ 0) : (digitsOf n).getLast? ≠ some '0' := by
  have hlast : (digitsOf n).getLast? = some (Nat.digitChar (n % 10)) := by
    rw [digitsOf, Nat.toDigits_eq_if (by decide)]
    split
    · rename_i hlt
      rw [Nat.mod_eq_of_lt hlt]
      rfl
    · rw [List.getLast?_concat]
  rw [hlast]
  simpa using h

/-- The positional text of a decimal that is no integer and does not end
in a zero. -/
theorem positional_eq {d : Decimal} (hdigits : d.digits % 10 ≠ 0) (hexponent : d.exponent < 0) :
    ∃ whole fraction, d.positional = whole ++ '.' :: fraction ∧ IsWhole whole ∧
      IsDigits fraction ∧ fraction.getLast? ≠ some '0' ∧
        (valueOfDigits (whole ++ fraction) : ℚ) / 10 ^ fraction.length = d.value := by
  have hpos : 0 < d.digits := Nat.pos_of_ne_zero fun hzero => hdigits (by rw [hzero])
  have hinside : ((digitsOf d.digits).length : Int) + d.exponent < (digitsOf d.digits).length := by
    omega
  obtain ⟨whole, fraction, hplace, hwhole, hfraction, hlast, hvalue, hlength⟩ :=
    placePoint_inside (isDigits_digitsOf d.digits) (head?_digitsOf hpos) hinside
  obtain ⟨c, fraction, rfl⟩ := List.exists_cons_of_ne_nil hfraction.1
  refine ⟨whole, c :: fraction, ?_, hwhole, hfraction, ?_, ?_⟩
  · simp only [Decimal.positional, hplace]
  · rw [hlast]
    exact getLast?_digitsOf hdigits
  · have hplaces : d.exponent = -((c :: fraction).length : Int) := by omega
    rw [hvalue, valueOfDigits_digitsOf, Decimal.value, hplaces, zpow_neg, zpow_natCast,
      div_eq_mul_inv]

end Number

/-! ## The text -/

/-- The text of a double: a sign, a whole part without a needless zero, and
a fraction that ends in no zero exactly if the double is no integer. The
digits of an integer are its own. -/
structure IsPositional (x : Float) (whole : List Char) (fraction : Option (List Char)) : Prop where
  text : (displayNumber x).toList = withSign (isNegative x) (whole ++ fractionChars fraction)
  isWhole : IsWhole whole
  isFraction : ∀ ds ∈ fraction, IsDigits ds ∧ ds.getLast? ≠ some '0'
  integral : fraction = none ↔ ∃ n : ℤ, toRational x = n
  exact : fraction = none → |toRational x| = valueOfDigits whole

theorem toList_displayNumber_of_some {x : Float} {n : Nat} (h : isFinite x = true)
    (hint : integral? (magnitude x) = some n) :
    (displayNumber x).toList = withSign (isNegative x) (digitsOf n) := by
  rw [displayNumber, resultOf_eq _ (displayText_of_integral h hint), String.toList_ofList]

theorem toList_displayNumber_of_none {x : Float} (h : isFinite x = true)
    (hint : integral? (magnitude x) = none) :
    (displayNumber x).toList = withSign (isNegative x) (shortest (magnitude x)).positional := by
  rw [displayNumber, resultOf_eq _ (displayText_of_fraction h hint), fractionText,
    String.toList_ofList]

theorem abs_toRational (x : Float) : |toRational x| = rational (magnitude x) := by
  have hnonneg : 0 ≤ rational (magnitude x) := by
    unfold rational
    positivity
  unfold toRational
  split
  · rw [abs_neg, abs_of_nonneg hnonneg]
  · exact abs_of_nonneg hnonneg

/-- The display text of a finite double, and what its digits are read as. -/
theorem displayNumber_numeral {x : Float} (h : isFinite x = true) :
    ∃ whole fraction, IsPositional x whole fraction ∧
      ofDigits whole (fraction.getD []) = ofMagnitude false (magnitude x) := by
  have hfinite : magnitude x < infiniteMagnitude := of_decide_eq_true h
  cases hint : integral? (magnitude x) with
  | some n =>
    have htext := toList_displayNumber_of_some h hint
    have hvalue := integral?_eq_some_iff.mp hint
    refine ⟨digitsOf n, none, ⟨?_, isWhole_digitsOf n, ?_, ?_, fun _ => ?_⟩, ?_⟩
    · rw [htext, fractionChars, List.append_nil]
    · exact fun ds hds => absurd hds (Option.not_mem_none ds)
    · rw [exists_int_iff]
      exact ⟨fun _ => ⟨n, hvalue⟩, fun _ => rfl⟩
    · rw [abs_toRational, hvalue, valueOfDigits_digitsOf]
    · refine ofDigits_eq hfinite ?_
      have hexact := roundsTo_rational (magnitude x)
      rw [hvalue] at hexact
      simpa using hexact
  | none =>
    have hpos : 0 < magnitude x := by
      refine Nat.pos_of_ne_zero fun hzero => ?_
      rw [hzero, integral?_zero] at hint
      cases hint
    have htext := toList_displayNumber_of_none h hint
    obtain ⟨whole, fraction, hplace, hwhole, hfraction, hlast, hvalue⟩ :=
      positional_eq (shortest_digits_mod_ten hpos) (shortest_exponent_neg hpos hint)
    refine ⟨whole, some fraction, ⟨?_, hwhole, ?_, ?_, fun hnone => ?_⟩, ?_⟩
    · rw [htext, hplace, fractionChars]
    · rintro _ ⟨⟩
      exact ⟨hfraction, hlast⟩
    · rw [exists_int_iff]
      refine ⟨fun hnone => absurd hnone (Option.some_ne_none fraction), ?_⟩
      rintro ⟨n, hn⟩
      rw [integral?_eq_some_iff.mpr hn] at hint
      cases hint
    · exact absurd hnone (Option.some_ne_none fraction)
    · refine ofDigits_eq hfinite ?_
      rw [Option.getD_some, hvalue]
      exact shortest_roundsTo hpos

/-! ## Reading a number with a sign -/

/-- The digits of a number are one lexeme. -/
theorem denotes_numeral {whole : List Char} {fraction : Option (List Char)}
    (hwhole : IsDigits whole) (hfraction : ∀ ds ∈ fraction, IsDigits ds) :
    Denotes (whole ++ fractionChars fraction)
      (.number (ofDigits whole (fraction.getD []))) := by
  obtain ⟨c, whole, rfl⟩ := List.exists_cons_of_ne_nil hwhole.1
  obtain ⟨hc, hmore⟩ := List.forall_mem_cons.mp hwhole.2
  cases fraction with
  | none =>
    rw [fractionChars, List.append_nil]
    exact .whole hc hmore
  | some ds => exact .pointed hc hmore (hfraction ds rfl).2

/-- What a finite number in a source displays as is that number again, without a sign. -/
theorem denotes_displayNumber {w : List Char} {x : Float} (hw : Denotes w (.number x))
    (h : isFinite x = true) : Denotes (displayNumber x).toList (.number x) := by
  have hsign : isNegative x = false := by
    cases hw with
    | mark hmark => exact absurd rfl (Lexeme.kind_of_ofChar? hmark).1
    | whole => exact isNegative_ofDigits h
    | pointed => exact isNegative_ofDigits h
  obtain ⟨whole, fraction, hform, hvalue⟩ := displayNumber_numeral h
  have hnumeral := denotes_numeral hform.isWhole.1 fun ds hds => (hform.isFraction ds hds).1
  rw [hvalue, ← hsign, ofMagnitude_magnitude] at hnumeral
  rw [hform.text, hsign]
  exact hnumeral

/-- The tree of a number with a sign. -/
def signedNumber (negative : Bool) (x : Float) : Expr :=
  if negative then .negation (.number x .origin) .origin .origin else .number x .origin

theorem strip_withSign {w : List Char} {l : Lexeme} (negative : Bool) (hw : Denotes w l) :
    Text.strip (withSign negative w) = withSign negative w := by
  obtain ⟨hfirst, hlast⟩ := hw.edges
  cases negative with
  | true =>
    obtain ⟨c, hc, hblank⟩ := hlast
    exact strip_eq_self ⟨'-', rfl, by decide⟩
      ⟨c, @List.mem_getLast?_append_of_mem_getLast? _ ['-'] _ _ hc, hblank⟩
  | false => exact strip_eq_self hfirst hlast

/-- A number's digits behind a sign or none are cut into their lexemes. -/
theorem scan_signedNumber {text : String} {w : List Char} {x : Float} {negative : Bool}
    (hw : Denotes w (.number x)) (htext : text.toList = withSign negative w) :
    ∃ ts, scan text = .ok ts ∧ ts.map Token.lexeme = (signedNumber negative x).lexemes := by
  have hnumber := Scans.nil.word hw separates_nil
  rw [List.append_nil] at hnumber
  have hscans : Scans text.toList (signedNumber negative x).lexemes := by
    rw [htext]
    cases negative with
    | true => exact hnumber.mark rfl
    | false => exact hnumber
  exact hscans.scan_eq (by rw [htext, strip_withSign negative hw])

/-- Its lexemes are read as its tree. -/
theorem parse_signedNumber {ts : List Token} {x : Float} {negative : Bool}
    (hts : ts.map Token.lexeme = (signedNumber negative x).lexemes) :
    ∃ e, parseExpression ts = .ok e ∧ e.SameOutline (signedNumber negative x) := by
  have hfit : (signedNumber negative x).Fits 0 [] := by
    cases negative <;> exact ⟨by simp [signedNumber, Expr.WellFormed, Expr.operator?], trivial,
      fun o ho => absurd ho (Option.not_mem_none o), fun _ _ => rfl⟩
  obtain ⟨e, hsame, he⟩ :=
    expression_complete (endOf ts) (Spells.iff_map_eq.mpr hts) hfit rfl rfl
  exact ⟨e, Reading.complete_eq_ok_iff.mpr he, hsame⟩

theorem evaluate_signedNumber {e : Expr} {x : Float} {negative : Bool} (scope : Scope)
    (h : e.SameOutline (signedNumber negative x)) :
    e.evaluate scope = .ok (.number (if negative then -x else x)) := by
  have hsame := Eq.symm h
  rw [evaluate_eq_value]
  cases negative with
  | true =>
    obtain ⟨e', p, s, rfl, he'⟩ := Expr.SameOutline.of_negation hsame
    obtain ⟨s', rfl⟩ := he'.of_number
    rfl
  | false =>
    obtain ⟨s, rfl⟩ := Expr.SameOutline.of_number hsame
    rfl

/-! ## Reading a display text -/

/-- The text read as an expression, without any name in scope, has the
value. -/
def ReadsAs (text : String) (v : Value) : Prop :=
  ∃ ts e, scan text = .ok ts ∧ parseExpression ts = .ok e ∧ e.evaluate [] = .ok v

theorem readsAs_displayNumber {x : Float} (h : isFinite x = true) :
    ReadsAs (displayNumber x) (.number x) := by
  obtain ⟨whole, fraction, hform, hvalue⟩ := displayNumber_numeral h
  have hword := denotes_numeral hform.isWhole.1 fun ds hds => (hform.isFraction ds hds).1
  obtain ⟨ts, hscan, hts⟩ := scan_signedNumber hword hform.text
  obtain ⟨e, hparse, he⟩ := parse_signedNumber hts
  refine ⟨ts, e, hscan, hparse, ?_⟩
  rw [evaluate_signedNumber [] he, hvalue]
  cases hsign : isNegative x with
  | true => rw [if_pos rfl, neg_ofMagnitude h hsign]
  | false => rw [if_neg Bool.false_ne_true, ← hsign, ofMagnitude_magnitude]

/-- A text has at most one value. -/
theorem ReadsAs.unique {text : String} {v w : Value} (h : ReadsAs text v) (h' : ReadsAs text w) :
    v = w := by
  obtain ⟨ts, e, hscan, hparse, hv⟩ := h
  obtain ⟨ts', e', hscan', hparse', hw⟩ := h'
  obtain rfl := Except.ok.inj (hscan.symm.trans hscan')
  obtain rfl := Except.ok.inj (hparse.symm.trans hparse')
  exact Except.ok.inj (hv.symm.trans hw)

/-- The display text of a finite double is positional, and reading it as an
expression gives the double itself, with the sign of a zero; so no other
finite double has that text. -/
theorem displayNumber_roundTrip {x : Float} (h : isFinite x = true) :
    (∃ whole fraction, IsPositional x whole fraction) ∧
      ReadsAs (displayNumber x) (.number x) ∧
      ∀ y, isFinite y = true → displayNumber y = displayNumber x → y = x := by
  obtain ⟨whole, fraction, hform, _⟩ := displayNumber_numeral h
  refine ⟨⟨whole, fraction, hform⟩, readsAs_displayNumber h, fun y hy hsame => ?_⟩
  have hread := readsAs_displayNumber hy
  rw [hsame] at hread
  exact Value.number.inj (hread.unique (readsAs_displayNumber h))

/-- The double nearest to `-1e-7`. -/
def smallNegative : Float := ofMagnitude true 0x3E7AD7F29ABCAF48

/-- Its display text has all the zeros, and is that of no other double. -/
theorem smallNegative_roundTrip : isFinite smallNegative = true ∧
    displayNumber smallNegative = "-0.0000001" ∧
    ReadsAs "-0.0000001" (.number smallNegative) ∧
    ∀ y, isFinite y = true → displayNumber y = "-0.0000001" → y = smallNegative := by
  have hfinite : isFinite smallNegative = true := by decide +kernel
  have htext : displayNumber smallNegative = "-0.0000001" := by decide +kernel
  obtain ⟨_, hread, hother⟩ := displayNumber_roundTrip hfinite
  rw [htext] at hread hother
  exact ⟨hfinite, htext, hread, hother⟩

end ShapeScript
