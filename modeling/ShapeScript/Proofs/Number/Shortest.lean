/-
ShapeScript.Proofs.Number.Shortest — the decimals of doubles read back.

`shortest` looks for a decimal on one grid of powers of ten after the
other, in natural numbers. A grid point that it accepts is a rational
that rounds to the magnitude (`Interval.holds_iff`), so what it finds
reads back. It does find one: on a grid no wider than a quarter of the
last place, the grid point below the value is so near to it that it
rounds to the magnitude (`nearest?_of_fine`), and since a significand is
less than `10 ^ 16`, the search goes as far down as such a grid
(`ten_zpow_coarsestGrid_le`).
-/
import Mathlib.Tactic.Ring
import ShapeScript.Proofs.Number.Rounding

namespace ShapeScript.Number

/-- The rational that a decimal denotes. -/
def Decimal.value (d : Decimal) : ℚ := d.digits * 10 ^ d.exponent

/-- A decimal is read as the double that it rounds to. -/
theorem ofDecimal_eq {bits : Nat} {d : Decimal} (negative : Bool) (hbits : bits < infiniteMagnitude)
    (h : RoundsTo bits d.value) : ofDecimal negative d = ofMagnitude negative bits := by
  have hratio : ((d.digits * tenTo d.exponent.toNat : Nat) : ℚ) / tenTo (-d.exponent).toNat =
      d.value := by
    rw [Decimal.value, ← pow_toNat_div 10 d.exponent]
    simp only [tenTo, Nat.pow_eq, Nat.cast_mul, Nat.cast_pow, Nat.cast_ofNat, mul_div_assoc]
  have hden : 0 < tenTo (-d.exponent).toNat := Nat.pow_pos (by decide)
  rw [ofDecimal, nearestMagnitude_eq hden hbits (hratio.symm ▸ h)]

/-! ## Grid points -/

section Grid

variable {bits : Nat} {grid : Int}

theorem significand_pos (h : 0 < bits) : 0 < significand bits := by
  have hhidden : 0 < hiddenBit := by decide
  unfold significand
  split
  · exact h
  · exact Nat.add_pos_right _ hhidden

/-- Grid points and quarters of the last place, over one denominator. -/
theorem cast_den (e grid : Int) :
    ((twoTo (-(e - 2)).toNat * tenTo grid.toNat : Nat) : ℚ) =
      10 ^ grid / 2 ^ e * (4 * (twoTo (e - 2).toNat * tenTo (-grid).toNat : Nat)) := by
  have hunit : (2 : ℚ) ^ e = 4 * 2 ^ (e - 2) := by
    rw [zpow_sub₀ two_ne_zero]
    norm_num
    ring
  rw [hunit, ← pow_toNat_div 10 grid, ← pow_toNat_div 2 (e - 2)]
  simp only [tenTo, twoTo, Nat.pow_eq, Nat.cast_mul, Nat.cast_pow, Nat.cast_ofNat]
  field_simp

/-- The interval of a magnitude, over one denominator: its ends, the value
and the width of the grid, in units of the last place. -/
theorem interval_spec (grid : Int) (hbits : 0 < bits) : ∃ c : ℚ, 0 < c ∧
    (interval bits grid).low = (significand bits - below bits) * c ∧
      (interval bits grid).value = significand bits * c ∧
        (interval bits grid).high = (significand bits + 1 / 2) * c ∧
          (interval bits grid).den = 10 ^ grid / 2 ^ exponent bits * c := by
  have hscale : 0 < twoTo (exponent bits - 2).toNat * tenTo (-grid).toNat :=
    Nat.mul_pos (Nat.pow_pos two_pos) (Nat.pow_pos (by decide))
  have hm := significand_pos hbits
  refine ⟨4 * (twoTo (exponent bits - 2).toNat * tenTo (-grid).toNat : Nat), by positivity,
    ?_, ?_, ?_, cast_den _ _⟩
  · unfold interval below
    dsimp only
    split <;> rw [Nat.cast_mul, Nat.cast_sub (by omega)] <;> push_cast <;> ring
  · unfold interval
    push_cast
    ring
  · unfold interval
    push_cast
    ring

/-- A grid point lies in the interval exactly if it rounds to the
magnitude. -/
theorem Interval.holds_iff (hbits : 0 < bits) {n : Nat} :
    (interval bits grid).holds n = true ↔ RoundsTo bits (n * 10 ^ grid) := by
  have hclosed : (interval bits grid).closed = (significand bits % 2 == 0) := rfl
  obtain ⟨c, hc, hlow, -, hhigh, hden⟩ := interval_spec grid hbits
  have hpoint : ((n * (interval bits grid).den : Nat) : ℚ) =
      n * 10 ^ grid / 2 ^ exponent bits * c := by
    rw [Nat.cast_mul, hden]
    ring
  have hcompare : ∀ {a b : Nat} {x y : ℚ}, (a : ℚ) = x * c → (b : ℚ) = y * c →
      (a ≤ b ↔ x ≤ y) ∧ (a < b ↔ x < y) := by
    intro a b x y ha hb
    rw [← Nat.cast_le (α := ℚ), ← Nat.cast_lt (α := ℚ), ha, hb, mul_le_mul_iff_left₀ hc,
      mul_lt_mul_iff_left₀ hc]
    exact ⟨Iff.rfl, Iff.rfl⟩
  obtain ⟨hle, hlt⟩ := hcompare hlow hpoint
  obtain ⟨hge, hgt⟩ := hcompare hpoint hhigh
  unfold Interval.holds RoundsTo
  obtain heven | hodd := Nat.mod_two_eq_zero_or_one (significand bits)
  · simp [hclosed, heven, hle, hge]
  · simp only [hclosed, hodd, Nat.reduceBEq, Bool.false_eq_true, if_false, Bool.and_eq_true,
      decide_eq_true_eq, hlt, hgt, true_implies]
    exact ⟨fun h => ⟨h.1.le, h.2.le, h⟩, fun h => h.2.2⟩

/-- A point that is accepted lies in the interval. -/
theorem Interval.holds_of_nearest? {i : Interval} {n : Nat} (h : i.nearest? = some n) :
    i.holds n = true := by
  have hround : roundHalfEven i.value i.den = i.value / i.den ∨
      roundHalfEven i.value i.den = i.value / i.den + 1 := by
    have := Nat.mod_two_eq_zero_or_one (i.value / i.den)
    unfold roundHalfEven
    dsimp only
    split
    · exact .inl rfl
    · split
      · exact .inr rfl
      · omega
  unfold nearest? at h
  dsimp only at h
  split at h <;> cases h
  · obtain hround | hround := hround <;> rwa [hround]
  · assumption
  · assumption

/-- The rational that a finite magnitude denotes. -/
def rational (bits : Nat) : ℚ := significand bits * 2 ^ exponent bits

/-- The value lies between two points of a grid that are next to each
other. -/
theorem rational_bounds (hbits : 0 < bits) (grid : Int) :
    ((interval bits grid).value / (interval bits grid).den : Nat) * (10 : ℚ) ^ grid ≤
        rational bits ∧
      rational bits <
        ((interval bits grid).value / (interval bits grid).den + 1 : Nat) * (10 : ℚ) ^ grid := by
  obtain ⟨c, hc, -, hvalue, -, hden⟩ := interval_spec grid hbits
  have hunit : (0 : ℚ) < 2 ^ exponent bits := by positivity
  have hgrid : (0 : ℚ) < 10 ^ grid / 2 ^ exponent bits := by positivity
  have hpos : 0 < (interval bits grid).den := by
    have : (0 : ℚ) < (interval bits grid).den := hden ▸ mul_pos hgrid hc
    exact_mod_cast this
  generalize (interval bits grid).value = value at *
  generalize (interval bits grid).den = den at *
  have hle : ((value / den : Nat) : ℚ) * den ≤ value := by
    exact_mod_cast Nat.div_mul_le_self value den
  have hlt : (value : ℚ) < (value / den : Nat) * den + den := by
    exact_mod_cast Nat.lt_div_mul_add hpos
  rw [hvalue, hden] at hle hlt
  generalize hdown : ((value / den : Nat) : ℚ) = down at *
  have hle : down * (10 ^ grid / 2 ^ exponent bits) ≤ significand bits :=
    le_of_mul_le_mul_right (by linarith) hc
  have hlt : (significand bits : ℚ) < (down + 1) * (10 ^ grid / 2 ^ exponent bits) :=
    lt_of_mul_lt_mul_right (by linarith) hc.le
  rw [← mul_div_assoc] at hle hlt
  rw [div_le_iff₀ hunit] at hle
  rw [lt_div_iff₀ hunit] at hlt
  rw [Nat.cast_add_one, hdown, rational]
  exact ⟨hle, hlt⟩

theorem Interval.nearest?_of_neighbour {i : Interval}
    (h : i.holds (i.value / i.den) = true ∨ i.holds (i.value / i.den + 1) = true) :
    ∃ n, i.nearest? = some n := by
  unfold nearest?
  dsimp only
  obtain h | h := h
  · rw [h]
    cases i.holds (i.value / i.den + 1) <;> exact ⟨_, rfl⟩
  · rw [h]
    cases i.holds (i.value / i.den) <;> exact ⟨_, rfl⟩

/-- On a grid that is no wider than a quarter of the last place, the point
below the value is accepted, or another one. -/
theorem nearest?_of_fine (hbits : 0 < bits) (hgrid : (10 : ℚ) ^ grid ≤ 2 ^ (exponent bits - 2)) :
    ∃ n, (interval bits grid).nearest? = some n := by
  refine Interval.nearest?_of_neighbour (.inl ?_)
  rw [Interval.holds_iff hbits]
  obtain ⟨hle, hlt⟩ := rational_bounds hbits grid
  have hunit : (0 : ℚ) < 2 ^ exponent bits := by positivity
  have hbelow : 1 / 4 ≤ below bits := by
    unfold below
    split <;> norm_num
  rw [zpow_sub₀ two_ne_zero] at hgrid
  rw [Nat.cast_add_one, add_one_mul, rational] at hlt
  generalize ((interval bits grid).value / (interval bits grid).den : Nat) * (10 : ℚ) ^ grid =
    down at *
  have hhigh : down / 2 ^ exponent bits ≤ significand bits := (div_le_iff₀ hunit).mpr hle
  have hlow : significand bits - 1 / 4 < down / 2 ^ exponent bits := by
    rw [lt_div_iff₀ hunit]
    linarith
  exact ⟨by linarith, by linarith, fun _ => ⟨by linarith, by linarith⟩⟩

end Grid

/-! ## The search -/

/-- A search that goes down as far as a grid that is fine enough finds a
decimal that rounds to the magnitude. -/
theorem searchGrids_spec {bits tries : Nat} {grid : Int} (hbits : 0 < bits)
    (hgrid : (10 : ℚ) ^ (grid - tries) ≤ 2 ^ (exponent bits - 2)) :
    RoundsTo bits (searchGrids bits (tries + 1) grid).value := by
  have hfound : ∀ {n grid}, (interval bits grid).nearest? = some n →
      RoundsTo bits (Decimal.value ⟨n, grid⟩) := fun h =>
    (Interval.holds_iff hbits).mp (Interval.holds_of_nearest? h)
  induction tries generalizing grid with
  | zero =>
    obtain ⟨n, hn⟩ := nearest?_of_fine hbits (by simpa using hgrid)
    rw [searchGrids, hn]
    exact hfound hn
  | succ tries ih =>
    rw [searchGrids]
    cases hn : (interval bits grid).nearest? with
    | some n => exact hfound hn
    | none =>
      refine ih ?_
      rwa [Nat.cast_succ, sub_add_eq_sub_sub_swap] at hgrid

theorem lt_ten_pow_digitCount (n : Nat) : n < 10 ^ digitCount n := by
  unfold digitCount
  split
  · omega
  · exact (Nat.length_toDigits_le_iff (by decide) Nat.length_toDigits_pos).mp le_rfl

theorem ten_zpow_digitCount_le {n : Nat} (h : 0 < n) :
    (10 : ℚ) ^ ((digitCount n : Int) - 1) ≤ n := by
  unfold digitCount
  rw [if_neg h.ne']
  have hlength : 0 < (Nat.toDigits 10 n).length := Nat.length_toDigits_pos
  generalize hk : (Nat.toDigits 10 n).length = k at *
  obtain ⟨k, rfl⟩ := Nat.exists_eq_succ_of_ne_zero hlength.ne'
  rw [Nat.cast_succ, add_sub_cancel_right, zpow_natCast]
  obtain rfl | hpos := Nat.eq_zero_or_pos k
  · exact_mod_cast h
  · have : ¬ n < 10 ^ k := by
      rw [← Nat.length_toDigits_le_iff (by decide) hpos, hk]
      omega
    exact_mod_cast not_lt.mp this

/-- A fraction below one has as many zeros behind the point as its inverse
has digits, or one less. -/
theorem ten_zpow_le_div {m den : Nat} (hm : 0 < m) (hden : 0 < den) :
    (10 : ℚ) ^ (-(digitCount ((den - 1) / m) : Int)) ≤ m / den := by
  have hinverse : den ≤ m * 10 ^ digitCount ((den - 1) / m) := by
    have hlt := Nat.lt_mul_div_succ (den - 1) hm
    have hle := Nat.mul_le_mul_left m (lt_ten_pow_digitCount ((den - 1) / m))
    rw [Nat.succ_eq_add_one] at hle
    omega
  have hpos : (0 : ℚ) < den := by exact_mod_cast hden
  have htens : (0 : ℚ) < 10 ^ digitCount ((den - 1) / m) := by positivity
  rw [zpow_neg, zpow_natCast, inv_eq_one_div, div_le_div_iff₀ htens hpos, one_mul]
  exact_mod_cast hinverse

theorem rational_of_nonneg {bits : Nat} (h : 0 ≤ exponent bits) :
    rational bits = (significand bits * twoTo (exponent bits).toNat : Nat) := by
  have hnonpos : (-exponent bits).toNat = 0 := Int.toNat_of_nonpos (by omega)
  rw [rational, ← pow_toNat_div 2 (exponent bits), hnonpos]
  simp [twoTo]

theorem rational_of_neg {bits : Nat} (h : ¬ 0 ≤ exponent bits) :
    rational bits = significand bits / (twoTo (-exponent bits).toNat : Nat) := by
  have hnonpos : (exponent bits).toNat = 0 := Int.toNat_of_nonpos (by omega)
  rw [rational, ← pow_toNat_div 2 (exponent bits), hnonpos]
  simp [twoTo, div_eq_mul_inv]

/-- The coarsest grid is at most a hundred times as wide as the value. -/
theorem ten_zpow_coarsestGrid_le_rational {bits : Nat} (hbits : 0 < bits) :
    (10 : ℚ) ^ (coarsestGrid bits - 2) ≤ rational bits := by
  have hm := significand_pos hbits
  unfold coarsestGrid
  dsimp only
  split
  · rename_i he
    rw [rational_of_nonneg he, add_sub_assoc]
    exact ten_zpow_digitCount_le (Nat.mul_pos hm (Nat.pow_pos two_pos))
  · rename_i he
    have hden : 0 < twoTo (-exponent bits).toNat := Nat.pow_pos two_pos
    rw [rational_of_neg he]
    generalize significand bits = m at *
    generalize twoTo (-exponent bits).toNat = den at *
    have hpos : (0 : ℚ) < den := by exact_mod_cast hden
    split
    · rename_i hwhole
      have hgrid : ((digitCount 0 : Nat) : Int) + 1 - digitCount ((den - 1) / m) - 2 ≤
          -(digitCount ((den - 1) / m) : Int) := by
        have : digitCount 0 ≤ 1 := by simp [digitCount]
        omega
      rw [hwhole]
      exact (zpow_le_zpow_right₀ (by norm_num) hgrid).trans (ten_zpow_le_div hm hden)
    · rename_i hwhole
      have hfloor : ((m / den : Nat) : ℚ) ≤ m / den := by
        rw [le_div_iff₀ hpos]
        exact_mod_cast Nat.div_mul_le_self m den
      rw [Nat.cast_zero, sub_zero, add_sub_assoc]
      exact (ten_zpow_digitCount_le (Nat.pos_of_ne_zero hwhole)).trans hfloor

theorem ten_zpow_coarsestGrid_le {bits : Nat} (hbits : 0 < bits) :
    (10 : ℚ) ^ (coarsestGrid bits - 19) ≤ 2 ^ (exponent bits - 2) := by
  have hvalue := ten_zpow_coarsestGrid_le_rational hbits
  rw [rational] at hvalue
  have hm : (significand bits : ℚ) ≤ 2 * hiddenBit := by exact_mod_cast (significand_lt bits).le
  have hunit : (0 : ℚ) < 2 ^ exponent bits := by positivity
  rw [cast_hiddenBit] at hm
  calc (10 : ℚ) ^ (coarsestGrid bits - 19)
      = 10 ^ (coarsestGrid bits - 2) * 10 ^ (-17 : Int) := by
        rw [← zpow_add₀ (by norm_num)]
        congr 1
        omega
    _ ≤ 2 * 2 ^ (52 : Int) * 2 ^ exponent bits * 10 ^ (-17 : Int) := by
        gcongr
        exact hvalue.trans (by gcongr)
    _ ≤ 2 ^ exponent bits * 2 ^ (-2 : Int) := by
        norm_num
        linarith
    _ = 2 ^ (exponent bits - 2) := by
        rw [← zpow_add₀ two_ne_zero]
        rfl

/-- The shortest decimal of a magnitude rounds to it. -/
theorem shortest_roundsTo {bits : Nat} (hbits : 0 < bits) : RoundsTo bits (shortest bits).value :=
  searchGrids_spec hbits (ten_zpow_coarsestGrid_le hbits)

theorem shortest_digits_pos {bits : Nat} (hbits : 0 < bits) : 0 < (shortest bits).digits := by
  refine Nat.pos_of_ne_zero fun hzero => ?_
  obtain ⟨hlow, _⟩ := shortest_roundsTo hbits
  have hm : (1 : ℚ) ≤ significand bits := by exact_mod_cast significand_pos hbits
  rw [Decimal.value, hzero, Nat.cast_zero, zero_mul, zero_div] at hlow
  linarith [below_le bits]

end ShapeScript.Number
