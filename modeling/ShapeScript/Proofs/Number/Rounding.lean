/-
ShapeScript.Proofs.Number.Rounding — the rationals that round to a double.

A finite magnitude is a significand times a power of two. The rationals
that round to it lie between the midpoints to its two neighbours, and the
midpoints belong to them if the significand is even (`RoundsTo`). What is
proved is that `nearestMagnitude` does that: it gives a magnitude for
every quotient that rounds to it.

The quotient decides the exponent on its own, as the only one that leaves
it 53 binary digits, or the least one (`lastPlace_spec`). For a quotient
near a magnitude that is the exponent of the magnitude, except just below
a power of two. There the last place is one finer, and the significand is
rounded up to twice the smallest one, which is the same double.
-/
import Mathlib.Algebra.Order.Field.Power
import Mathlib.Tactic.FieldSimp
import Mathlib.Tactic.Linarith
import Mathlib.Tactic.Positivity
import ShapeScript.Number.Decimal

namespace ShapeScript.Number

/-! ## Fields of a magnitude -/

section Fields

variable (bits : Nat)

theorem significand_lt : significand bits < 2 * hiddenBit := by
  have hpos : 0 < hiddenBit := by decide
  have := Nat.mod_lt bits hpos
  unfold significand
  split <;> omega

theorem exponent_ge : -1074 ≤ exponent bits := by
  unfold exponent
  split
  · exact le_refl _
  · rename_i h
    have : 1 ≤ bits / hiddenBit := (Nat.one_le_div_iff (by decide)).mpr (not_lt.mp h)
    omega

/-- The significand is full, unless the exponent is the least. -/
theorem exponent_eq_or_le_significand :
    exponent bits = -1074 ∨ hiddenBit ≤ significand bits := by
  unfold exponent significand
  split
  · exact .inl rfl
  · exact .inr (Nat.le_add_left _ _)

/-- A magnitude is its exponent field with the significand added. -/
theorem fields_eq : (exponent bits + 1074).toNat * hiddenBit + significand bits = bits := by
  unfold exponent significand
  split
  · simp
  · rename_i h
    have : 1 ≤ bits / hiddenBit := (Nat.one_le_div_iff (by decide)).mpr (not_lt.mp h)
    have hfield : ((bits / hiddenBit : Nat) - 1075 + 1074 : Int).toNat = bits / hiddenBit - 1 := by
      omega
    rw [hfield, Nat.sub_mul, Nat.one_mul, Nat.add_comm (bits % hiddenBit),
      ← Nat.add_assoc, Nat.sub_add_cancel (Nat.le_mul_of_pos_left _ this), Nat.div_add_mod']

end Fields

/-! ## Rounding to an integer -/

/-- The integer is nearest to a rational, or one of two nearest and even. -/
def RoundsToNat (r : Nat) (x : ℚ) : Prop :=
  r - 1 / 2 ≤ x ∧ x ≤ r + 1 / 2 ∧ (r % 2 = 1 → r - 1 / 2 < x ∧ x < r + 1 / 2)

/-- The same of a quotient, in natural numbers. -/
theorem RoundsToNat.bounds {num den r : Nat} (hden : 0 < den) (h : RoundsToNat r (num / den)) :
    2 * r * den ≤ 2 * num + den ∧ 2 * num ≤ 2 * r * den + den ∧
      (r % 2 = 1 → 2 * r * den < 2 * num + den ∧ 2 * num < 2 * r * den + den) := by
  have hpos : (0 : ℚ) < den := by exact_mod_cast hden
  obtain ⟨hlow, hhigh, hodd⟩ := h
  rw [le_div_iff₀ hpos] at hlow
  rw [div_le_iff₀ hpos] at hhigh
  rw [lt_div_iff₀ hpos, div_lt_iff₀ hpos] at hodd
  have hlow : (2 * r * den : ℚ) ≤ 2 * num + den := by linarith
  have hhigh : (2 * num : ℚ) ≤ 2 * r * den + den := by linarith
  refine ⟨by exact_mod_cast hlow, by exact_mod_cast hhigh, fun hr => ?_⟩
  obtain ⟨hl, hh⟩ := hodd hr
  have hl : (2 * r * den : ℚ) < 2 * num + den := by linarith
  have hh : (2 * num : ℚ) < 2 * r * den + den := by linarith
  exact ⟨by exact_mod_cast hl, by exact_mod_cast hh⟩

theorem roundHalfEven_eq {num den r : Nat} (hden : 0 < den) (h : RoundsToNat r (num / den)) :
    roundHalfEven num den = r := by
  obtain ⟨hlow, hhigh, hodd⟩ := h.bounds hden
  -- so it is the quotient rounded down, or the one above it
  have hnum := Nat.div_add_mod num den
  have hrest := Nat.mod_lt num hden
  unfold roundHalfEven
  dsimp only
  generalize num / den = q at hnum ⊢
  generalize num % den = rest at hnum hrest ⊢
  subst hnum
  have hbelow : 2 * r < 2 * q + 3 := by
    refine Nat.lt_of_mul_lt_mul_right (a := den) ?_
    nlinarith
  have habove : 2 * q ≤ 2 * r + 1 := by
    refine Nat.le_of_mul_le_mul_right (c := den) ?_ hden
    nlinarith
  obtain rfl | rfl : r = q ∨ r = q + 1 := by omega
  · have hdown : 2 * rest ≤ den := by linarith
    have hstrict : r % 2 = 1 → 2 * rest < den := fun hr => by linarith [(hodd hr).2]
    split
    · rfl
    · rw [if_neg (by omega)]
      have := Nat.mod_two_eq_zero_or_one r
      omega
  · have hup : den ≤ 2 * rest := by linarith
    have hstrict : (q + 1) % 2 = 1 → den < 2 * rest := fun hr => by linarith [(hodd hr).1]
    rw [if_neg (by omega)]
    split
    · rfl
    · have := Nat.mod_two_eq_zero_or_one q
      omega

/-! ## The exponent -/

theorem pow_toNat_div (b : ℚ) (e : Int) : b ^ e.toNat / b ^ (-e).toNat = b ^ e := by
  obtain ⟨n, rfl | rfl⟩ := e.eq_nat_or_neg <;> simp

/-- A quotient in units of a power of two. -/
theorem cast_ratio (num den : Nat) (e : Int) :
    ((num * twoTo (-e).toNat : Nat) : ℚ) / (den * twoTo e.toNat : Nat) = num / den / 2 ^ e := by
  rw [← pow_toNat_div 2 e]
  simp only [twoTo, Nat.pow_eq, Nat.cast_mul, Nat.cast_pow, Nat.cast_ofNat]
  field_simp

theorem cast_hiddenBit : (hiddenBit : ℚ) = 2 ^ (52 : Int) := by
  norm_num [hiddenBit, twoTo]

/-- A quotient lies between two powers of two. -/
theorem ratio_bounds {num den : Nat} (hnum : 0 < num) (hden : 0 < den) :
    (2 : ℚ) ^ ((num.log2 : Int) - den.log2 - 1) ≤ num / den ∧
      (num / den : ℚ) < 2 ^ ((num.log2 : Int) - den.log2 + 1) := by
  have hbounds : ∀ {n : Nat}, 0 < n →
      (2 : ℚ) ^ (n.log2 : Int) ≤ n ∧ (n : ℚ) < 2 ^ ((n.log2 : Int) + 1) := by
    intro n hn
    constructor
    · rw [zpow_natCast]
      exact_mod_cast Nat.log2_self_le hn.ne'
    · exact_mod_cast Nat.lt_log2_self
  have hpos : (0 : ℚ) < den := by exact_mod_cast hden
  obtain ⟨hnum, hnum'⟩ := hbounds hnum
  obtain ⟨hden, hden'⟩ := hbounds hden
  constructor
  · rw [le_div_iff₀ hpos]
    calc (2 : ℚ) ^ ((num.log2 : Int) - den.log2 - 1) * den
        ≤ 2 ^ ((num.log2 : Int) - den.log2 - 1) * 2 ^ ((den.log2 : Int) + 1) := by gcongr
      _ = 2 ^ (num.log2 : Int) := by
          rw [← zpow_add₀ two_ne_zero]
          congr 1
          omega
      _ ≤ num := hnum
  · rw [div_lt_iff₀ hpos]
    calc (num : ℚ) < 2 ^ ((num.log2 : Int) + 1) := hnum'
      _ = 2 ^ ((num.log2 : Int) - den.log2 + 1) * 2 ^ (den.log2 : Int) := by
          rw [← zpow_add₀ two_ne_zero]
          congr 1
          omega
      _ ≤ 2 ^ ((num.log2 : Int) - den.log2 + 1) * den := by gcongr

/-- The last place of a quotient leaves it 53 binary digits, or less if it
is the least. -/
theorem lastPlace_spec {num den : Nat} (hnum : 0 < num) (hden : 0 < den) {e : Int}
    (he : e = lastPlace num den) :
    -1074 ≤ e ∧ (num / den : ℚ) / 2 ^ e < 2 * hiddenBit ∧
      (e = -1074 ∨ hiddenBit ≤ (num / den : ℚ) / 2 ^ e) := by
  obtain ⟨hlow, hhigh⟩ := ratio_bounds hnum hden
  unfold lastPlace at he
  generalize hk : (num.log2 : Int) - den.log2 = k at he hlow hhigh
  dsimp only at he
  generalize hl : max (k - 53) (-1074) = low at he
  have hpos : (0 : ℚ) < ((den * twoTo low.toNat : Nat) : ℚ) := by
    exact_mod_cast Nat.mul_pos hden (Nat.pow_pos two_pos)
  have hstep : den * twoTo low.toNat * (2 * hiddenBit) ≤ num * twoTo (-low).toNat ↔
      2 * hiddenBit ≤ (num / den : ℚ) / 2 ^ low := by
    rw [← cast_ratio, le_div_iff₀ hpos, mul_comm]
    exact_mod_cast Iff.rfl
  have hdouble : (2 * hiddenBit : ℚ) = 2 ^ (53 : Int) := by
    rw [cast_hiddenBit, ← zpow_one_add₀ two_ne_zero]
    rfl
  have hne : (2 : ℚ) ≠ 0 := two_ne_zero
  have hunit : ∀ e : Int, (0 : ℚ) < 2 ^ e := fun e => by positivity
  have hmono : ∀ {e e' : Int}, e ≤ e' → (2 : ℚ) ^ e ≤ 2 ^ e' := fun h =>
    zpow_le_zpow_right₀ one_le_two h
  rw [hdouble] at hstep ⊢
  rw [cast_hiddenBit]
  simp only [le_div_iff₀ (hunit _), div_lt_iff₀ (hunit _), ← zpow_add₀ hne] at hstep ⊢
  split at he
  · rename_i h
    rw [hstep] at h
    subst he
    refine ⟨by omega, hhigh.trans_le (hmono (by omega)), .inr ?_⟩
    rw [show (52 : Int) + (low + 1) = 53 + low by omega]
    exact h
  · rename_i h
    rw [hstep, not_le] at h
    subst he
    refine ⟨by omega, h, ?_⟩
    obtain hleast | hlast : e = -1074 ∨ e = k - 53 := by omega
    · exact .inl hleast
    · exact .inr ((hmono (by omega)).trans hlow)

/-! ## Rounding to a double -/

/-- How far what rounds to a magnitude reaches below it, in units of its
last place: half as far above a power of two, where the doubles below are
twice as dense. -/
def below (bits : Nat) : ℚ :=
  if significand bits = hiddenBit ∧ hiddenBit < bits then 1 / 4 else 1 / 2

theorem below_le (bits : Nat) : below bits ≤ 1 / 2 := by
  unfold below
  split <;> norm_num

/-- The rational rounds to the magnitude. -/
def RoundsTo (bits : Nat) (q : ℚ) : Prop :=
  significand bits - below bits ≤ q / 2 ^ exponent bits ∧
    q / 2 ^ exponent bits ≤ significand bits + 1 / 2 ∧
      (significand bits % 2 = 1 → significand bits - below bits < q / 2 ^ exponent bits ∧
        q / 2 ^ exponent bits < significand bits + 1 / 2)

theorem RoundsTo.roundsToNat {bits : Nat} {q : ℚ} (h : RoundsTo bits q) :
    RoundsToNat (significand bits) (q / 2 ^ exponent bits) := by
  have hbelow := below_le bits
  obtain ⟨hlow, hhigh, hodd⟩ := h
  exact ⟨by linarith, hhigh, fun hm => ⟨by linarith [(hodd hm).1], (hodd hm).2⟩⟩

/-- The last place of a quotient is that of the magnitude it rounds to, or
the quotient lies just below a power of two and it is the next finer one.
-/
theorem lastPlace_of_roundsTo {num den bits : Nat} (hnum : 0 < num) (hden : 0 < den)
    (h : RoundsTo bits (num / den)) :
    lastPlace num den = exponent bits ∨
      lastPlace num den = exponent bits - 1 ∧ significand bits = hiddenBit ∧ hiddenBit < bits := by
  obtain ⟨hleast, hlt, hge⟩ := lastPlace_spec hnum hden rfl
  generalize lastPlace num den = e at hleast hlt hge
  have hscale : (num / den : ℚ) / 2 ^ e =
      num / den / 2 ^ exponent bits * 2 ^ (exponent bits - e) := by
    rw [zpow_sub₀ two_ne_zero]
    field_simp
  rw [hscale] at hlt hge
  have hx : (0 : ℚ) < num / den / 2 ^ exponent bits := by positivity
  obtain ⟨hlow, hhigh, _⟩ := h
  generalize (num / den : ℚ) / 2 ^ exponent bits = x at hx hlow hhigh hlt hge
  have hbelow := below_le bits
  have hm : (significand bits + 1 : ℚ) ≤ 2 * hiddenBit := by exact_mod_cast significand_lt bits
  have hpos : (1 : ℚ) ≤ hiddenBit := by exact_mod_cast (by decide : 1 ≤ hiddenBit)
  have hnormal : exponent bits = -1074 ∨ (hiddenBit : ℚ) ≤ significand bits := by
    exact_mod_cast exponent_eq_or_le_significand bits
  obtain hcoarser | rfl | hfiner : exponent bits < e ∨ e = exponent bits ∨ e < exponent bits := by
    omega
  · -- a coarser place would leave the quotient too small
    have hle := exponent_ge bits
    have hhalf : (2 : ℚ) ^ (exponent bits - e) ≤ 2 ^ (-1 : Int) :=
      zpow_le_zpow_right₀ one_le_two (by omega)
    rw [zpow_neg_one] at hhalf
    have hge := hge.resolve_left (by omega)
    nlinarith
  · exact .inl rfl
  · have hm := hnormal.resolve_left (by omega)
    obtain hnext | hfar : e = exponent bits - 1 ∨ e ≤ exponent bits - 2 := by omega
    · rw [hnext, sub_sub_cancel, zpow_one] at hlt
      have hfull : significand bits = hiddenBit := by
        have hle : (hiddenBit : ℚ) ≤ significand bits := hm
        have hlt : (significand bits : ℚ) < hiddenBit + 1 := by linarith
        have hle : hiddenBit ≤ significand bits := by exact_mod_cast hle
        have hlt : significand bits < hiddenBit + 1 := by exact_mod_cast hlt
        omega
      have hfields := fields_eq bits
      have hbits : 1 * hiddenBit ≤ (exponent bits + 1074).toNat * hiddenBit :=
        Nat.mul_le_mul_right _ (by omega)
      have hhidden : 0 < hiddenBit := by decide
      exact .inr ⟨hnext, hfull, by omega⟩
    · -- and one finer by two would leave it too large
      have hfour : (2 : ℚ) ^ (2 : Int) ≤ 2 ^ (exponent bits - e) :=
        zpow_le_zpow_right₀ one_le_two (by omega)
      nlinarith

/-- A quotient is rounded to the magnitude that it rounds to. -/
theorem nearestMagnitude_eq {num den bits : Nat} (hden : 0 < den)
    (hbits : bits < infiniteMagnitude) (h : RoundsTo bits (num / den)) :
    nearestMagnitude num den = bits := by
  have hfields := fields_eq bits
  unfold nearestMagnitude
  split
  · rename_i hnum
    have hzero : significand bits = 0 := by
      have hlow := h.1
      rw [hnum, Nat.cast_zero, zero_div, zero_div] at hlow
      have hlt : (significand bits : ℚ) < 1 := by linarith [below_le bits]
      exact Nat.lt_one_iff.mp (by exact_mod_cast hlt)
    have hhidden : 0 < hiddenBit := by decide
    obtain hleast | hfull := exponent_eq_or_le_significand bits
    · rw [hleast, hzero] at hfields
      simpa using hfields
    · omega
  · rename_i hnum
    have hden' : ∀ e : Int, 0 < den * twoTo e.toNat := fun e =>
      Nat.mul_pos hden (Nat.pow_pos two_pos)
    obtain he | ⟨he, hm, hbelow⟩ := lastPlace_of_roundsTo (Nat.pos_of_ne_zero hnum) hden h
    · have hround : unitsOf num den (exponent bits) = significand bits :=
        roundHalfEven_eq (hden' _) (by rw [cast_ratio]; exact h.roundsToNat)
      rw [he]
      dsimp only
      rw [hround, hfields]
      exact min_eq_left hbits.le
    · obtain ⟨hleast, hlt, _⟩ := lastPlace_spec (Nat.pos_of_ne_zero hnum) hden he.symm
      have hround : unitsOf num den (exponent bits - 1) = 2 * hiddenBit := by
        refine roundHalfEven_eq (hden' _) ?_
        obtain ⟨hlow, _, _⟩ := h
        rw [below, if_pos ⟨hm, hbelow⟩, hm] at hlow
        rw [zpow_sub_one₀ two_ne_zero, div_mul_eq_div_div, div_inv_eq_mul] at hlt
        rw [cast_ratio, zpow_sub_one₀ two_ne_zero, div_mul_eq_div_div, div_inv_eq_mul]
        refine ⟨?_, ?_, fun hodd => by omega⟩ <;> push_cast <;> linarith
      have hfield : (exponent bits + 1074).toNat = (exponent bits - 1 + 1074).toNat + 1 := by
        omega
      rw [hm, hfield, Nat.add_one_mul, Nat.add_assoc, ← Nat.two_mul] at hfields
      rw [he]
      dsimp only
      rw [hround, hfields]
      exact min_eq_left hbits.le

end ShapeScript.Number
