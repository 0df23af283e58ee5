/-
ShapeScript.Proofs.Number.Equality — which doubles are equal.

Doubles are compared by what they unpack to. Two of them are equal if they
unpack alike or to zeros, and a NaN equals nothing (`compare_eq_iff`). What
is not a NaN can be told from what it unpacks to (`eq_of_unpacked`), so
equality can be told from the bits: `beq_iff`. It is symmetric and
transitive, and a double equals itself unless it is a NaN.
-/
import ShapeScript.Proofs.Number.Negation

namespace ShapeScript.Number

open Float.Model (Format UnpackedFloat)
open Float.Model.UnpackedFloat (unpackMantissa unpackExponent unpackSign Sign packComponents)

variable {b : BitVec 64} {x y z : Float}

/-! ## What bits unpack to -/

/-- Two of what doubles unpack to are equal, other than NaN, if they are the
same or zeros. -/
theorem compare_eq_iff {a b : UnpackedFloat} :
    a.compare b = some .eq ↔
      a ≠ .notANumber ∧ (a = b ∨ ∃ s t, a = .zero s ∧ b = .zero t) := by
  cases a with
  | notANumber => simp [UnpackedFloat.compare]
  | infinity s =>
    cases b with
    | infinity t => cases s <;> cases t <;> simp [UnpackedFloat.compare] <;> decide
    | _ => cases s <;> simp [UnpackedFloat.compare]
  | zero s =>
    cases b with
    | notANumber => simp [UnpackedFloat.compare]
    | zero t => simp [UnpackedFloat.compare]
    | infinity t => cases t <;> simp [UnpackedFloat.compare]
    | finite t => cases t <;> simp [UnpackedFloat.compare]
  | finite s m e hm =>
    cases b with
    | notANumber => simp [UnpackedFloat.compare]
    | zero t => cases s <;> simp [UnpackedFloat.compare]
    | infinity t => cases t <;> simp [UnpackedFloat.compare]
    | finite t n e' hn =>
      cases s <;> cases t <;>
        simp [UnpackedFloat.compare, Ordering.then_eq_eq, Ordering.swap_eq_eq, and_comm]

/-- Bits are the fields that they are unpacked to. -/
theorem packComponents_fields (b : BitVec 64) :
    packComponents .binary64 (Sign.ofBitVec (@unpackSign .binary64 b))
      (@unpackExponent .binary64 b) (@unpackMantissa .binary64 b) = b := by
  refine BitVec.eq_of_toNat_eq ?_
  rw [toNat_packComponents, toNat_toBitVec, toNat_sign, toNat_exponent, toNat_fraction]
  have := b.isLt
  omega

theorem exponent_eq_ones :
    @unpackExponent .binary64 b = -1#11 ↔ b.toNat / 2 ^ 52 % 2 ^ 11 = 2047 := by
  rw [← BitVec.toNat_inj, toNat_exponent]
  rfl

theorem exponent_eq_zero :
    @unpackExponent .binary64 b = 0#11 ↔ b.toNat / 2 ^ 52 % 2 ^ 11 = 0 := by
  rw [← BitVec.toNat_inj, toNat_exponent]
  rfl

theorem fraction_eq_zero : @unpackMantissa .binary64 b = 0#52 ↔ b.toNat % 2 ^ 52 = 0 := by
  rw [← BitVec.toNat_inj, toNat_fraction]
  rfl

theorem unpack_eq_notANumber_iff :
    UnpackedFloat.unpack .binary64 b = .notANumber ↔
      @unpackExponent .binary64 b = -1#11 ∧ @unpackMantissa .binary64 b ≠ 0#52 := by
  unfold UnpackedFloat.unpack
  dsimp only
  split
  · rename_i h
    split <;> simp_all
  · rename_i h
    split
    · split <;> simp_all
    · simp_all

theorem unpack_eq_zero_iff :
    (∃ s, UnpackedFloat.unpack .binary64 b = .zero s) ↔
      @unpackExponent .binary64 b = 0#11 ∧ @unpackMantissa .binary64 b = 0#52 := by
  unfold UnpackedFloat.unpack
  dsimp only
  split
  · rename_i h
    rw [h]
    split <;> simp
  · rename_i h
    split
    · split <;> simp_all
    · simp_all

/-- Bits that are not a NaN are packed again as they were. -/
theorem pack_unpack_self (h : UnpackedFloat.unpack .binary64 b ≠ .notANumber) :
    UnpackedFloat.pack .binary64 (UnpackedFloat.unpack .binary64 b) = b := by
  by_cases he : @unpackExponent .binary64 b = -1#11
  · have hm : @unpackMantissa .binary64 b = 0#52 := by
      by_contra hm
      exact h (unpack_eq_notANumber_iff.mpr ⟨he, hm⟩)
    have hunpack : UnpackedFloat.unpack .binary64 b =
        .infinity (Sign.ofBitVec (@unpackSign .binary64 b)) := by
      unfold UnpackedFloat.unpack
      dsimp only
      rw [if_pos he, if_pos hm]
    have hfields := packComponents_fields b
    rw [he, hm] at hfields
    rw [hunpack]
    exact hfields
  · rw [(pack_unpack he).1, packComponents_fields]

/-! ## Doubles -/

/-- What a double unpacks to. -/
def unpacked (x : Float) : UnpackedFloat := UnpackedFloat.unpack .binary64 x.toBits.toBitVec

theorem unpacked_eq_notANumber_iff :
    unpacked x = .notANumber ↔ isNaN x = true := by
  have hsign : signBit = 2 ^ 63 := rfl
  have hinfinite : infiniteMagnitude = 2047 * 2 ^ 52 := rfl
  have hbits : x.toBits.toBitVec.toNat = x.toBits.toNat := rfl
  rw [unpacked, unpack_eq_notANumber_iff, exponent_eq_ones, Ne, fraction_eq_zero, hbits, isNaN,
    magnitude, decide_eq_true_iff, hsign, hinfinite]
  omega

theorem unpacked_eq_zero_iff : (∃ s, unpacked x = .zero s) ↔ magnitude x = 0 := by
  have hsign : signBit = 2 ^ 63 := rfl
  have hbits : x.toBits.toBitVec.toNat = x.toBits.toNat := rfl
  simp only [unpacked]
  rw [unpack_eq_zero_iff, exponent_eq_zero, fraction_eq_zero, hbits, magnitude, hsign]
  omega

/-- A double that is not a NaN can be told from what it unpacks to. -/
theorem eq_of_unpacked (h : unpacked x = unpacked y) (hx : isNaN x = false) :
    x = y := by
  have hnumber : unpacked x ≠ .notANumber := by
    rw [Ne, unpacked_eq_notANumber_iff, hx]
    exact Bool.false_ne_true
  have hnumber' : unpacked y ≠ .notANumber := h ▸ hnumber
  have hpack := congrArg (UnpackedFloat.pack .binary64) h
  rw [unpacked, pack_unpack_self hnumber, unpacked, pack_unpack_self hnumber'] at hpack
  rwa [← Float.toBits_inj, ← UInt64.toBitVec_inj]

/-- Two doubles are equal if neither is a NaN and they are the same or both
zeros, whatever the signs of these are. -/
theorem beq_iff :
    (x == y) = true ↔
      isNaN x = false ∧ isNaN y = false ∧ (x = y ∨ magnitude x = 0 ∧ magnitude y = 0) := by
  have hcompare : (x == y) = ((unpacked x).compare (unpacked y) == some .eq) := rfl
  rw [hcompare, beq_iff_eq, compare_eq_iff, Ne, unpacked_eq_notANumber_iff, Bool.not_eq_true]
  constructor
  · rintro ⟨hx, hsame | ⟨s, t, hzero, hzero'⟩⟩
    · obtain rfl := eq_of_unpacked hsame hx
      exact ⟨hx, hx, .inl rfl⟩
    · refine ⟨hx, ?_, .inr ⟨unpacked_eq_zero_iff.mp ⟨s, hzero⟩, ?_⟩⟩
      · rw [← Bool.not_eq_true, ← unpacked_eq_notANumber_iff, hzero']
        exact UnpackedFloat.noConfusion
      · exact unpacked_eq_zero_iff.mp ⟨t, hzero'⟩
  · rintro ⟨hx, _, rfl | ⟨hzero, hzero'⟩⟩
    · exact ⟨hx, .inl rfl⟩
    · obtain ⟨s, hs⟩ := unpacked_eq_zero_iff.mpr hzero
      obtain ⟨t, ht⟩ := unpacked_eq_zero_iff.mpr hzero'
      exact ⟨hx, .inr ⟨s, t, hs, ht⟩⟩

theorem beq_self_iff : (x == x) = true ↔ isNaN x = false := by
  rw [beq_iff]
  exact ⟨fun h => h.1, fun h => ⟨h, h, .inl rfl⟩⟩

theorem beq_symm (h : (x == y) = true) : (y == x) = true := by
  obtain ⟨hx, hy, hsame⟩ := beq_iff.mp h
  exact beq_iff.mpr ⟨hy, hx, hsame.imp Eq.symm And.symm⟩

theorem beq_trans (h : (x == y) = true) (h' : (y == z) = true) : (x == z) = true := by
  obtain ⟨hx, _, hsame⟩ := beq_iff.mp h
  obtain ⟨_, hz, hsame'⟩ := beq_iff.mp h'
  refine beq_iff.mpr ⟨hx, hz, ?_⟩
  obtain rfl | ⟨hzero, hzero'⟩ := hsame
  · exact hsame'
  · obtain rfl | ⟨_, hzero''⟩ := hsame'
    · exact .inr ⟨hzero, hzero'⟩
    · exact .inr ⟨hzero, hzero''⟩

end ShapeScript.Number
