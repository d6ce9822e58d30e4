import EntitySql.Decimal.Binary

/-!
# Whole numbers as floats

A document may hold whole numbers that a signed word does not. Such a number is
read as the float next to it. Rounding raises the exponent of a number by a few
places at most, so that the float of a word is never an infinity.

- `finiteFloat_iff`: floats are finite unless all bits of the exponent are set.
- `roundWithAccuracy_cases`: how far rounding raises an exponent.
- `ofInt_eq_pack`, `finiteFloat_ofInt`: how a word that is not signed is made a float, and that
  this float is finite.
-/

namespace EntitySql

open Float.Model (Format totalExponent UnpackedFloat)
open Float.Model.UnpackedFloat

/-! ## Bits -/

theorem toNat_unpackExponent (x : Float) :
    (@unpackExponent Format.binary64 x.toBits.toBitVec).toNat =
      x.toBits.toNat / twoTo 52 % twoTo 11 := by
  show (x.toBits.toBitVec.extractLsb 62 52).toNat = _
  rw [BitVec.extractLsb_toNat, Nat.shiftRight_eq_div_pow]
  rfl

/-- A float is finite exactly if some bit of its exponent is not set. -/
theorem finiteFloat_iff (x : Float) :
    finiteFloat x = true ↔ @unpackExponent Format.binary64 x.toBits.toBitVec ≠ -1#11 := by
  have hones : @unpackExponent Format.binary64 x.toBits.toBitVec = -1#11 ↔
      x.toBits.toNat / twoTo 52 % twoTo 11 = 2047 := by
    rw [← toNat_unpackExponent, ← BitVec.toNat_inj]
    rfl
  rw [Ne, hones, finiteFloat, Binary.ofFloat, Binary.ofFields]
  by_cases h : x.toBits.toNat / twoTo 52 % twoTo 11 = 2047
  · rw [if_pos h]
    split <;> simp [Binary.isFinite, h]
  · rw [if_neg h]
    split <;> simp [Binary.isFinite, h]

/-! ## Rounding -/

/-- A mantissa that loses places gets no larger. -/
theorem mantissa_shiftRight_le (m : ExtendedMantissa) (places : Nat) :
    (m >>> places).mantissa ≤ m.mantissa := by
  show (Nat.repeat ExtendedMantissa.shiftRightOne places m).mantissa ≤ m.mantissa
  induction places with
  | zero => exact Nat.le_refl _
  | succ places ih =>
    have hhalf : (Nat.repeat ExtendedMantissa.shiftRightOne places m).mantissa / 2 ≤
        (Nat.repeat ExtendedMantissa.shiftRightOne places m).mantissa := Nat.div_le_self _ _
    exact Nat.le_trans hhalf ih

/-- Rounding adds one to a mantissa at most. -/
theorem roundedMantissa_le (m : ExtendedMantissa) : m.roundedMantissa ≤ m.mantissa + 1 := by
  obtain ⟨mantissa, round, sticky⟩ := m
  have hparity : mantissa % 2 < 2 := Nat.mod_lt _ (by decide)
  cases round <;> cases sticky <;>
    simp only [ExtendedMantissa.roundedMantissa, ExtendedMantissa.accuracy,
      Accuracy.roundToNearestEven] <;> omega

/-- The exponent after a shift to its target. -/
theorem shiftToTargetExponent_snd (mantissa : Nat) (exponent : Int) (accuracy : Accuracy) :
    (shiftToTargetExponent Format.binary64 mantissa exponent accuracy).2 =
      max exponent (max (mantissa.log2 - 52 + exponent) (-1074)) := by
  show exponent + ((max (mantissa.log2 + 1 + exponent - (1 + 52)) (3 - 2 ^ 10 - (1 + 52)) -
    exponent).toNat : Int) = _
  omega

theorem shiftToTargetExponent_fst_le (mantissa : Nat) (exponent : Int) (accuracy : Accuracy) :
    (shiftToTargetExponent Format.binary64 mantissa exponent accuracy).1.mantissa ≤ mantissa := by
  refine Nat.le_trans (mantissa_shiftRight_le _ _) ?_
  cases accuracy with
  | exact => exact Nat.le_refl _
  | inexact o => cases o <;> exact Nat.le_refl _

/-- What is rounded is zero, or has an exponent that was raised by the length of the mantissa at
most, once for each of two shifts. -/
theorem roundWithAccuracy_cases (sign : Sign) (mantissa : Nat) (exponent : Int)
    (accuracy : Accuracy) :
    roundWithAccuracy Format.binary64 sign mantissa exponent accuracy = .zero sign ∨
      ∃ mantissa' exponent' hpos,
        roundWithAccuracy Format.binary64 sign mantissa exponent accuracy =
          .finite sign mantissa' exponent' hpos ∧
        exponent' ≤ max exponent (-1074) + 2 * mantissa.log2 := by
  have hexponent := shiftToTargetExponent_snd mantissa exponent accuracy
  have hmantissa := shiftToTargetExponent_fst_le mantissa exponent accuracy
  rw [roundWithAccuracy]
  generalize shiftToTargetExponent Format.binary64 mantissa exponent accuracy = shifted at *
  have hlog : shifted.1.roundedMantissa.log2 ≤ mantissa.log2 + 1 := by
    have hrounded : shifted.1.roundedMantissa ≤ mantissa + 1 :=
      Nat.le_trans (roundedMantissa_le _) (Nat.succ_le_succ hmantissa)
    have hbound : mantissa + 1 < 2 ^ (mantissa.log2 + 1 + 1) := by
      have hlt : mantissa < 2 ^ (mantissa.log2 + 1) := Nat.lt_log2_self
      rw [Nat.pow_succ]
      omega
    by_cases hzero : shifted.1.roundedMantissa = 0
    · rw [hzero]
      exact Nat.zero_le _
    · exact Nat.le_of_lt_succ ((Nat.log2_lt hzero).2 (Nat.lt_of_le_of_lt hrounded hbound))
  have hsecond := shiftToTargetExponent_snd shifted.1.roundedMantissa shifted.2 .exact
  dsimp only
  by_cases hzero : (shiftToTargetExponent Format.binary64 shifted.1.roundedMantissa shifted.2
      .exact).1.mantissa = 0
  · exact .inl (dif_pos hzero)
  · exact .inr ⟨_, _, Nat.pos_of_ne_zero hzero, dif_neg hzero, by omega⟩

/-! ## Finite floats -/

/-- How a number is packed, unless its exponent is too large: with its exponent if its mantissa has
all its bits, and as a subnormal number if not. -/
theorem pack_finite {sign : Sign} {mantissa : Nat} {exponent : Int} {hpos : 0 < mantissa}
    (h : exponent ≤ 971) :
    pack Format.binary64 (.finite sign mantissa exponent hpos) =
      if mantissa.log2 + 1 = 53 then
        packComponents Format.binary64 sign (BitVec.ofNat 11 (exponent + 1075).toNat)
          (BitVec.ofNat 52 mantissa)
      else packComponents Format.binary64 sign 0#11 (BitVec.ofNat 52 mantissa) := by
  have hbiased : (exponent + (1023 : Nat) + (52 : Nat)).toNat = (exponent + 1075).toNat := by omega
  show (if 2 ^ 11 ≤ (exponent + (1023 : Nat) + (52 : Nat)).toNat + 1 then
      packedInfinity Format.binary64 sign
    else if mantissa.log2 + 1 = 53 then
      packComponents Format.binary64 sign
        (BitVec.ofNat 11 (exponent + (1023 : Nat) + (52 : Nat)).toNat) (BitVec.ofNat 52 mantissa)
    else packComponents Format.binary64 sign 0#11 (BitVec.ofNat 52 mantissa)) = _
  rw [hbiased, if_neg (by omega)]

/-- A number is not packed as an infinity unless its exponent is too large. -/
theorem finiteFloat_pack {sign : Sign} {mantissa : Nat} {exponent : Int} {hpos : 0 < mantissa}
    (h : exponent ≤ 971) :
    finiteFloat (.ofModel (.pack (.finite sign mantissa exponent hpos))) = true := by
  rw [finiteFloat_iff]
  show unpackExponent (pack Format.binary64 (.finite sign mantissa exponent hpos)) ≠ -1#11
  rw [pack_finite h]
  split
  · rw [unpackExponent_packComponents, Ne, ← BitVec.toNat_inj, BitVec.toNat_ofNat]
    show ¬ (exponent + 1075).toNat % 2 ^ 11 = 2047
    omega
  · rw [unpackExponent_packComponents]
    decide

theorem finiteFloat_pack_zero (sign : Sign) :
    finiteFloat (.ofModel (.pack (.zero sign))) = true := by
  rw [finiteFloat_iff]
  show unpackExponent (packComponents Format.binary64 sign 0 0) ≠ -1#11
  rw [unpackExponent_packComponents]
  decide

/-- A word that is not signed is too large for the short way to a float. -/
theorem ofInt_eq_pack {m : Nat} (h : 9223372036854775808 ≤ m) :
    Float.ofInt m = .ofModel (.pack (roundWithAccuracy Format.binary64 .positive
      (m * twoTo 53) (-53) .exact)) := by
  have hmantissa : m <<< 53 * 10 ^ 0 = m * twoTo 53 := by
    rw [Nat.shiftLeft_eq, Nat.pow_zero, Nat.mul_one]
    rfl
  rw [← hmantissa]
  show Float.ofScientific m false 0 = _
  rw [Float.ofScientific, dif_neg (by omega)]
  show Float.ofModel (.pack (ofScientific Format.binary64 m 0)) = _
  rw [ofScientific, dif_neg (show m ≠ 0 by omega), if_neg (by decide),
    if_neg (show ¬ (0 : Int) < -((2 ^ 11 : Int) + m.log2) by omega), if_pos (by decide)]
  rfl

/-- The float of a word that is not signed is finite. -/
theorem finiteFloat_ofInt {n : Int} (hfits : FitsWord n) (hsigned : ¬ FitsSigned n) :
    finiteFloat (Float.ofInt n) = true := by
  obtain ⟨m, rfl⟩ : ∃ m : Nat, n = m := ⟨n.toNat, by omega⟩
  have hlarge : 9223372036854775808 ≤ m := by omega
  have h53 : twoTo 53 = 2 ^ 53 := rfl
  have hlog : (m * twoTo 53).log2 ≤ 116 := by
    rw [h53]
    exact Nat.le_of_lt_succ ((Nat.log2_lt (by omega)).2 (by omega))
  rw [ofInt_eq_pack hlarge]
  rcases roundWithAccuracy_cases .positive (m * twoTo 53) (-53) .exact with
    hzero | ⟨mantissa, exponent, hpos, hfinite, hexponent⟩
  · rw [hzero]
    exact finiteFloat_pack_zero _
  · rw [hfinite]
    exact finiteFloat_pack (by omega)

end EntitySql
