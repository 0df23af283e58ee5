/-
ShapeScript.Proofs.Number.Negation — negating a finite double.

A minus sign changes the sign bit and nothing else. For the doubles that
are no NaN this is how negation is specified, but it is not how it is
defined: a double is unpacked into sign, significand and exponent, the
sign is turned, and the three are packed again. So it is proved here that
packing puts back what unpacking took apart, once for each kind of finite
double (`pack_unpack`), and that turning the sign among these fields
leaves the magnitude (`neg_eq`). Making a double from bits unpacks and
packs it too, so a finite one has the bits that it is made of.
-/
import ShapeScript.Proofs.Number.Binary64

namespace ShapeScript.Number

open Float.Model (Format UnpackedFloat)
open Float.Model.UnpackedFloat
  (Sign packComponents unpackMantissa unpackExponent unpackSign unpackMantissa_def
    unpackExponent_def)

variable {b : BitVec 64}

/-! ## Fields -/

theorem toNat_fraction (b : BitVec 64) :
    (@unpackMantissa .binary64 b).toNat = b.toNat % 2 ^ 52 := by
  rw [unpackMantissa_def, BitVec.extractLsb'_toNat, Nat.shiftRight_zero]

theorem toNat_exponent (b : BitVec 64) :
    (@unpackExponent .binary64 b).toNat = b.toNat / 2 ^ 52 % 2 ^ 11 := by
  rw [unpackExponent_def, BitVec.extractLsb'_toNat, Nat.shiftRight_eq_div_pow]

theorem toNat_sign (b : BitVec 64) :
    (@unpackSign .binary64 b).toNat = b.toNat / 2 ^ 63 % 2 := by
  rw [unpackSign, BitVec.toNat_cast, BitVec.extractLsb_toNat, Nat.shiftRight_eq_div_pow]
  rfl

/-- Packed fields, as a number. -/
theorem toNat_packComponents (s : Sign) (e : BitVec 11) (m : BitVec 52) :
    (packComponents .binary64 s e m).toNat =
      s.toBitVec.toNat * 2 ^ 63 + e.toNat * 2 ^ 52 + m.toNat := by
  have hinner : (s.toBitVec ++ e).toNat = s.toBitVec.toNat * 2 ^ 11 + e.toNat := by
    rw [BitVec.toNat_append, ← Nat.shiftLeft_add_eq_or_of_lt e.isLt, Nat.shiftLeft_eq]
  have houter : (s.toBitVec ++ e ++ m).toNat = (s.toBitVec ++ e).toNat * 2 ^ 52 + m.toNat := by
    rw [BitVec.toNat_append, ← Nat.shiftLeft_add_eq_or_of_lt m.isLt, Nat.shiftLeft_eq]
  rw [hinner] at houter
  rw [packComponents, houter]
  omega

/-! ## Packing what was unpacked -/

/-- A significand below the hidden bit is packed with the least
exponent. -/
theorem pack_subnormal (s : Sign) (m : BitVec 52) (hm : 0 < m.toNat) :
    UnpackedFloat.pack .binary64 (.finite s m.toNat (-1074) hm) = packComponents .binary64 s 0#11 m := by
  have hlog : ¬ m.toNat.log2 + 1 = Format.binary64.mantissaBits := by
    have hlt := (Nat.log2_lt hm.ne').mpr m.isLt
    show ¬ m.toNat.log2 + 1 = 1 + 52
    omega
  have hfits : ¬ 2 ^ Format.binary64.exponentBits ≤
      (-1074 + (Format.binary64.exponentBias : Int) +
        Format.binary64.mantissaBitsWithoutImplicit).toNat + 1 := by
    decide
  rw [UnpackedFloat.pack]
  dsimp only
  rw [if_neg hfits, if_neg hlog, BitVec.ofNat_toNat, BitVec.setWidth_eq]

/-- A significand with the hidden bit is packed without it. -/
theorem pack_normal (s : Sign) (e : BitVec 11) (m : BitVec 52) (he : e ≠ -1#11)
    (hm : 0 < (1#1 ++ m).toNat) :
    UnpackedFloat.pack .binary64 (.finite s (1#1 ++ m).toNat (e.toNat - 1075) hm) =
      packComponents .binary64 s e m := by
  have happend : (1#1 ++ m).toNat = 2 ^ 52 + m.toNat := by
    rw [BitVec.toNat_append, ← Nat.shiftLeft_add_eq_or_of_lt m.isLt]
    rfl
  have hlog : (1#1 ++ m).toNat.log2 + 1 = Format.binary64.mantissaBits := by
    have hlow := (Nat.le_log2 hm.ne').mpr (show 2 ^ 52 ≤ (1#1 ++ m).toNat by omega)
    have hhigh := (Nat.log2_lt hm.ne').mpr
      (show (1#1 ++ m).toNat < 2 ^ 53 by have := m.isLt; omega)
    show (1#1 ++ m).toNat.log2 + 1 = 1 + 52
    omega
  have hbias : ((e.toNat : Int) - 1075 + (Format.binary64.exponentBias : Int) +
      (Format.binary64.mantissaBitsWithoutImplicit : Int)).toNat = e.toNat := by
    show ((e.toNat : Int) - 1075 + (1023 : Nat) + (52 : Nat)).toNat = e.toNat
    omega
  have hfits : ¬ 2 ^ Format.binary64.exponentBits ≤ e.toNat + 1 := by
    have hlt := e.isLt
    have hne : e.toNat ≠ 2047 := fun h => he (BitVec.eq_of_toNat_eq h)
    show ¬ 2 ^ 11 ≤ e.toNat + 1
    omega
  rw [UnpackedFloat.pack]
  dsimp only
  rw [hbias, if_neg hfits, if_pos hlog]
  congr 1
  · exact BitVec.eq_of_toNat_eq (by simp)
  · refine BitVec.eq_of_toNat_eq ?_
    have := m.isLt
    rw [BitVec.toNat_ofNat, happend]
    show (2 ^ 52 + m.toNat) % 2 ^ 52 = m.toNat
    omega

/-- A finite double is packed with its own fields, whether its sign is kept
or turned. -/
theorem pack_unpack (h : @unpackExponent .binary64 b ≠ -1#11) :
    UnpackedFloat.pack .binary64 (UnpackedFloat.unpack .binary64 b) =
      packComponents .binary64 (Sign.ofBitVec (@unpackSign .binary64 b))
        (@unpackExponent .binary64 b) (@unpackMantissa .binary64 b) ∧
    UnpackedFloat.pack .binary64 (UnpackedFloat.unpack .binary64 b).neg =
      packComponents .binary64 (-Sign.ofBitVec (@unpackSign .binary64 b))
        (@unpackExponent .binary64 b) (@unpackMantissa .binary64 b) := by
  unfold UnpackedFloat.unpack
  dsimp only
  rw [if_neg h]
  split
  · rename_i hexponent
    rw [hexponent]
    split
    · rename_i hfraction
      rw [hfraction]
      exact ⟨rfl, rfl⟩
    · exact ⟨pack_subnormal .., pack_subnormal ..⟩
  · exact ⟨pack_normal _ _ _ h _, pack_normal _ _ _ h _⟩

/-! ## Bits -/

theorem toNat_toBitVec (s : BitVec 1) : (Sign.ofBitVec s).toBitVec.toNat = s.toNat := by
  revert s
  decide

/-- A finite double has the bits that it is made of. -/
theorem toNat_toBits_ofMagnitude {negative : Bool} {bits : Nat} (h : bits < infiniteMagnitude) :
    (ofMagnitude negative bits).toBits.toNat = if negative then bits + signBit else bits := by
  have hsign : signBit = 2 ^ 63 := rfl
  have hfinite : bits < 0x7FF0000000000000 := h
  generalize hn : (if negative then bits + signBit else bits) = n
  have hlt : n < 2 ^ 64 := by
    rw [← hn]
    split <;> omega
  have hexponent : @unpackExponent .binary64 (BitVec.ofNat 64 n) ≠ -1#11 := by
    intro hones
    have hones := congrArg BitVec.toNat hones
    rw [toNat_exponent, BitVec.toNat_ofNat, Nat.mod_eq_of_lt hlt] at hones
    have hones : n / 2 ^ 52 % 2 ^ 11 = 2 ^ 11 - 1 := hones
    rw [← hn] at hones
    split at hones <;> omega
  have hbits : (ofMagnitude negative bits).toBits.toNat =
      (UnpackedFloat.pack .binary64 (UnpackedFloat.unpack .binary64 (BitVec.ofNat 64 n))).toNat := by
    rw [ofMagnitude, hn]
    rfl
  rw [hbits, (pack_unpack hexponent).1, toNat_packComponents, toNat_toBitVec, toNat_sign,
    toNat_exponent, toNat_fraction, BitVec.toNat_ofNat, Nat.mod_eq_of_lt hlt]
  omega

theorem isNegative_ofMagnitude {negative : Bool} {bits : Nat} (h : bits < infiniteMagnitude) :
    isNegative (ofMagnitude negative bits) = negative := by
  have hlt : bits < signBit := Nat.lt_trans h (by decide)
  rw [isNegative, toNat_toBits_ofMagnitude h]
  cases negative with
  | true => simp
  | false => simpa using hlt

/-! ## Negation -/

theorem toNat_toBitVec_neg (s : BitVec 1) :
    (-Sign.ofBitVec s).toBitVec.toNat = 1 - s.toNat := by
  revert s
  decide

/-- Negating a finite double turns its sign and keeps its magnitude. -/
theorem toNat_toBits_neg {x : Float} (h : isFinite x = true) :
    (-x).toBits.toNat = if isNegative x then magnitude x else magnitude x + signBit := by
  have hsign : signBit = 2 ^ 63 := rfl
  have hfinite : x.toBits.toNat % 2 ^ 63 < 0x7FF0000000000000 := by
    simpa [isFinite, magnitude, infiniteMagnitude, hsign] using h
  have hlt : x.toBits.toNat < 2 ^ 64 := x.toBits.toNat_lt
  have hexponent : @unpackExponent .binary64 x.toBits.toBitVec ≠ -1#11 := by
    intro hones
    have hones := congrArg BitVec.toNat hones
    rw [toNat_exponent] at hones
    have hones : x.toBits.toNat / 2 ^ 52 % 2 ^ 11 = 2 ^ 11 - 1 := hones
    omega
  have hbits : (-x).toBits.toNat =
      (UnpackedFloat.pack .binary64
        (UnpackedFloat.unpack .binary64 x.toBits.toBitVec).neg).toNat := rfl
  rw [hbits, (pack_unpack hexponent).2, toNat_packComponents, toNat_toBitVec_neg, toNat_sign,
    toNat_exponent, toNat_fraction]
  simp only [isNegative, magnitude, hsign, decide_eq_true_eq]
  have hnat : x.toBits.toBitVec.toNat = x.toBits.toNat := rfl
  rw [hnat]
  split <;> omega

theorem magnitude_neg {x : Float} (h : isFinite x = true) : magnitude (-x) = magnitude x := by
  have hbits := toNat_toBits_neg h
  have hlt : magnitude x < signBit := Nat.mod_lt _ (by decide)
  rw [magnitude, hbits]
  split
  · exact Nat.mod_eq_of_lt hlt
  · rw [Nat.add_mod_right, Nat.mod_eq_of_lt hlt]

theorem isNegative_neg {x : Float} (h : isFinite x = true) : isNegative (-x) = !isNegative x := by
  have hbits := toNat_toBits_neg h
  have hlt : magnitude x < signBit := Nat.mod_lt _ (by decide)
  rw [isNegative, hbits]
  cases isNegative x with
  | true => simpa using hlt
  | false => simp

/-- A finite double is negated by turning its sign. -/
theorem neg_eq {x : Float} (h : isFinite x = true) :
    -x = ofMagnitude (!isNegative x) (magnitude x) := by
  rw [← isNegative_neg h, ← magnitude_neg h, ofMagnitude_magnitude]

/-- A double with a minus sign is the negation of the one without. -/
theorem neg_ofMagnitude {x : Float} (h : isFinite x = true) (hx : isNegative x = true) :
    -(ofMagnitude false (magnitude x)) = x := by
  have hneg : -x = ofMagnitude false (magnitude x) := by
    rw [neg_eq h, hx, Bool.not_true]
  have hfinite : isFinite (-x) = true := by
    rw [isFinite, magnitude_neg h]
    exact h
  rw [← hneg, neg_eq hfinite, isNegative_neg h, magnitude_neg h, Bool.not_not,
    ofMagnitude_magnitude]

end ShapeScript.Number
