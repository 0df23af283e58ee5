/-
ShapeScript.Proofs.Number.Canonical — the shortest decimal has no needless
digit.

The rationals that round to a magnitude form an interval around its value
(`RoundsTo.between`). So if any point of a grid lies in it, one of the two
next to the value does, and the search, which looks only at these two,
finds a point on the grid (`nearest?_of_holds`). A decimal that ends in a
zero is a point of the next coarser grid, and the search, which tries the
coarser grid first, would have stopped there; on the coarsest grid a
decimal of two digits is larger than anything that rounds to the value
(`shortest_digits_mod_ten`).

A magnitude that denotes no integer is the only one whose unit is smaller
than one. An integer lies half a unit or more away from it, and exactly
half a unit is not possible, so its shortest decimal has digits behind the
point (`shortest_exponent_neg`).
-/
import ShapeScript.Proofs.Number.Shortest

namespace ShapeScript.Number

variable {bits : Nat}

/-! ## The interval around a value -/

theorem roundsTo_rational (bits : Nat) : RoundsTo bits (rational bits) := by
  have hunit : rational bits / 2 ^ exponent bits = significand bits := by
    rw [rational, mul_div_cancel_right₀ _ (by positivity)]
  have hbelow : 0 < below bits := by
    unfold below
    split <;> norm_num
  unfold RoundsTo
  rw [hunit]
  exact ⟨by linarith, by linarith, fun _ => ⟨by linarith, by linarith⟩⟩

theorem RoundsTo.between {a b q : ℚ} (ha : RoundsTo bits a) (hb : RoundsTo bits b) (haq : a ≤ q)
    (hqb : q ≤ b) : RoundsTo bits q := by
  have hmono : ∀ {x y : ℚ}, x ≤ y → x / 2 ^ exponent bits ≤ y / 2 ^ exponent bits :=
    fun h => div_le_div_of_nonneg_right h (by positivity)
  obtain ⟨hlow, _, hlow'⟩ := ha
  obtain ⟨_, hhigh, hhigh'⟩ := hb
  exact ⟨hlow.trans (hmono haq), (hmono hqb).trans hhigh,
    fun hodd => ⟨(hlow' hodd).1.trans_le (hmono haq), (hmono hqb).trans_lt (hhigh' hodd).2⟩⟩

/-! ## Neighbours on a grid -/

/-- If a point of the grid rounds to the magnitude, one is found. -/
theorem nearest?_of_holds {grid : Int} {n : Nat} (hbits : 0 < bits)
    (h : RoundsTo bits (n * 10 ^ grid)) : ∃ n, (interval bits grid).nearest? = some n := by
  obtain ⟨hle, hlt⟩ := rational_bounds hbits grid
  have hvalue := roundsTo_rational bits
  have hmono : ∀ {k l : Nat}, k ≤ l → (k : ℚ) * 10 ^ grid ≤ l * 10 ^ grid := by
    intro k l hkl
    have : (k : ℚ) ≤ l := by exact_mod_cast hkl
    gcongr
  apply Interval.nearest?_of_neighbour
  simp only [Interval.holds_iff hbits]
  obtain hn | hn := le_or_gt n ((interval bits grid).value / (interval bits grid).den)
  · exact .inl (h.between hvalue (hmono hn) hle)
  · exact .inr (hvalue.between h hlt.le (hmono hn))

/-! ## The last digit -/

/-- The search stops on the grid it starts from, or found nothing on the
next coarser one. -/
theorem searchGrids_exponent (bits tries : Nat) (grid : Int) :
    (searchGrids bits tries grid).exponent = grid ∨
      (interval bits ((searchGrids bits tries grid).exponent + 1)).nearest? = none := by
  induction tries generalizing grid with
  | zero => exact .inl rfl
  | succ tries ih =>
    rw [searchGrids]
    cases hn : (interval bits grid).nearest? with
    | some n => exact .inl rfl
    | none =>
      obtain hstop | hcoarser := ih (grid - 1)
      · right
        dsimp only
        rw [hstop, sub_add_cancel]
        exact hn
      · exact .inr hcoarser

/-- A fraction below one has no more zeros behind the point than its
inverse has digits. -/
theorem div_lt_ten_zpow {m den : Nat} (hm : 0 < m) (hlt : m < den) :
    (m / den : ℚ) < 10 ^ (1 - (digitCount ((den - 1) / m) : Int)) := by
  have hpos : (0 : ℚ) < den := by exact_mod_cast Nat.zero_lt_of_lt hlt
  obtain hzero | hquotient := Nat.eq_zero_or_pos ((den - 1) / m)
  · have hdigits : digitCount 0 = 0 := rfl
    have hone : (m / den : ℚ) < 1 := (div_lt_one hpos).mpr (by exact_mod_cast hlt)
    rw [hzero, hdigits, Nat.cast_zero, sub_zero, zpow_one]
    linarith
  · have hdigits := ten_zpow_digitCount_le hquotient
    have hproduct : ((den - 1) / m) * m < den := by
      have := Nat.div_mul_le_self (den - 1) m
      omega
    have hproduct : (((den - 1) / m : Nat) : ℚ) * m < den := by exact_mod_cast hproduct
    have hm : (0 : ℚ) < m := by exact_mod_cast hm
    have hinverse : (10 : ℚ) ^ (1 - (digitCount ((den - 1) / m) : Int)) *
        10 ^ ((digitCount ((den - 1) / m) : Int) - 1) = 1 := by
      rw [← zpow_add₀ (by norm_num), sub_add_sub_cancel, sub_self, zpow_zero]
    have hunit : (0 : ℚ) < 10 ^ (1 - (digitCount ((den - 1) / m) : Int)) := by positivity
    rw [div_lt_iff₀ hpos]
    generalize (10 : ℚ) ^ (1 - (digitCount ((den - 1) / m) : Int)) = unit at *
    generalize (10 : ℚ) ^ ((digitCount ((den - 1) / m) : Int) - 1) = inverse at *
    calc (m : ℚ) = unit * (inverse * m) := by rw [← mul_assoc, hinverse, one_mul]
      _ ≤ unit * (((den - 1) / m : Nat) * m) := by gcongr
      _ < unit * den := by gcongr

/-- A value is smaller than the unit of the coarsest grid. -/
theorem rational_lt_coarsestGrid (hbits : 0 < bits) :
    rational bits < 10 ^ coarsestGrid bits := by
  have hm := significand_pos hbits
  have hdigits : ∀ n : Nat, (n + 1 : ℚ) ≤ 10 ^ ((digitCount n : Int) + 1) := by
    intro n
    have hle : (n + 1 : ℚ) ≤ 10 ^ (digitCount n : Int) := by
      rw [zpow_natCast]
      exact_mod_cast lt_ten_pow_digitCount n
    exact hle.trans (zpow_le_zpow_right₀ (by norm_num) (by omega))
  unfold coarsestGrid
  dsimp only
  split
  · rename_i he
    rw [rational_of_nonneg he]
    exact (lt_add_one _).trans_le (hdigits _)
  · rename_i he
    have hden : 0 < twoTo (-exponent bits).toNat := Nat.pow_pos two_pos
    rw [rational_of_neg he]
    generalize significand bits = m at *
    generalize twoTo (-exponent bits).toNat = den at *
    split
    · rename_i hwhole
      have hzero : digitCount 0 = 0 := rfl
      rw [hwhole, hzero, Nat.cast_zero, zero_add]
      exact div_lt_ten_zpow hm ((Nat.div_eq_zero_iff_lt hden).mp hwhole)
    · have hfloor : (m / den : ℚ) < (m / den : Nat) + 1 := by
        rw [div_lt_iff₀ (by exact_mod_cast hden), mul_comm]
        exact_mod_cast Nat.lt_mul_div_succ m hden
      rw [Nat.cast_zero, sub_zero]
      exact hfloor.trans_le (hdigits _)

/-- What rounds to a magnitude is less than twice its value. -/
theorem RoundsTo.lt_two_mul {q : ℚ} (hbits : 0 < bits) (h : RoundsTo bits q) :
    q < 2 * rational bits := by
  have hm : (1 : ℚ) ≤ significand bits := by exact_mod_cast significand_pos hbits
  have hunit : (0 : ℚ) < 2 ^ exponent bits := by positivity
  have hhigh := (div_le_iff₀ hunit).mp h.2.1
  rw [rational]
  nlinarith

/-- The shortest decimal does not end in a zero. -/
theorem shortest_digits_mod_ten (hbits : 0 < bits) : (shortest bits).digits % 10 ≠ 0 := by
  intro hzero
  obtain ⟨k, hk⟩ := Nat.dvd_of_mod_eq_zero hzero
  have hpos := shortest_digits_pos hbits
  have hround := shortest_roundsTo hbits
  have hvalue : (shortest bits).value = k * 10 ^ ((shortest bits).exponent + 1) := by
    rw [Decimal.value, hk, zpow_add_one₀ (by norm_num)]
    push_cast
    ring
  rw [hvalue] at hround
  obtain hcoarsest | hnone := searchGrids_exponent bits 20 (coarsestGrid bits)
  · rw [← shortest] at hcoarsest
    have hle := hround.lt_two_mul hbits
    have hlt := rational_lt_coarsestGrid hbits
    have hk : (1 : ℚ) ≤ k := by exact_mod_cast (by omega : 1 ≤ k)
    have hunit : (0 : ℚ) < 10 ^ coarsestGrid bits := by positivity
    rw [hcoarsest, zpow_add_one₀ (by norm_num)] at hle
    nlinarith
  · obtain ⟨n, hn⟩ := nearest?_of_holds hbits hround
    rw [← shortest, hn] at hnone
    cases hnone

/-! ## Integers -/

/-- A magnitude denotes the integer that is found in it, or none. -/
theorem integral?_eq_some_iff {n : Nat} : integral? bits = some n ↔ rational bits = n := by
  unfold integral?
  dsimp only
  split
  · rename_i he
    rw [rational_of_nonneg he, Option.some.injEq]
    exact_mod_cast Iff.rfl
  · rename_i he
    have hden : 0 < twoTo (-exponent bits).toNat := Nat.pow_pos two_pos
    rw [rational_of_neg he]
    generalize significand bits = m
    generalize twoTo (-exponent bits).toNat = den at *
    have hpos : (0 : ℚ) < den := by exact_mod_cast hden
    have hquotient : (m / den : ℚ) = n ↔ m = n * den := by
      rw [div_eq_iff hpos.ne']
      exact_mod_cast Iff.rfl
    rw [hquotient]
    split
    · rename_i hdvd
      rw [Option.some.injEq]
      constructor
      · rintro rfl
        exact (Nat.div_mul_cancel (Nat.dvd_of_mod_eq_zero hdvd)).symm
      · rintro rfl
        exact Nat.mul_div_cancel n hden
    · rename_i hrest
      constructor
      · intro h
        cases h
      · rintro rfl
        exact absurd (Nat.mul_mod_left n den) hrest

theorem integral?_zero : integral? 0 = some 0 := by
  rw [integral?_eq_some_iff, rational, significand, if_pos (by decide), Nat.cast_zero, zero_mul]

/-- The shortest decimal of a magnitude that denotes no integer has digits
behind the point. -/
theorem shortest_exponent_neg (hbits : 0 < bits) (h : integral? bits = none) :
    (shortest bits).exponent < 0 := by
  by_contra hexponent
  have he : exponent bits < 0 := by
    by_contra he
    have := integral?_eq_some_iff.mpr (rational_of_nonneg (not_lt.mp he))
    rw [h] at this
    cases this
  -- then it is an integer, and so is its distance from the value in units of the last place
  obtain ⟨N, hN⟩ : ∃ N : Nat, (shortest bits).value = N := by
    refine ⟨(shortest bits).digits * 10 ^ (shortest bits).exponent.toNat, ?_⟩
    rw [Decimal.value, ← pow_toNat_div 10 (shortest bits).exponent,
      Int.toNat_of_nonpos (by omega : -(shortest bits).exponent ≤ 0)]
    simp
  have hround := shortest_roundsTo hbits
  obtain ⟨hlow, hhigh, _⟩ := hround.roundsToNat
  have hunits : (shortest bits).value / 2 ^ exponent bits =
      (N * 2 ^ (-exponent bits).toNat : Nat) := by
    rw [hN, ← pow_toNat_div 2 (exponent bits), Int.toNat_of_nonpos he.le]
    simp
  rw [hunits] at hlow hhigh
  have hsame : N * 2 ^ (-exponent bits).toNat = significand bits := by
    generalize N * 2 ^ (-exponent bits).toNat = units at *
    have hlow : (significand bits : ℚ) < units + 1 := by linarith
    have hhigh : (units : ℚ) < significand bits + 1 := by linarith
    have hlow : significand bits < units + 1 := by exact_mod_cast hlow
    have hhigh : units < significand bits + 1 := by exact_mod_cast hhigh
    omega
  have hint : integral? bits = some N := by
    rw [integral?_eq_some_iff, rational, ← hsame, ← hunits, hN]
    exact div_mul_cancel₀ _ (by positivity)
  rw [h] at hint
  cases hint

end ShapeScript.Number
