import EntitySql.Decimal.Layout
import EntitySql.Proofs.WholeFloats
import EntitySql.Value.Basic
import Mathlib.Tactic.SplitIfs

/-!
# Words at the end of the signed range

A whole number of a document that fits an unsigned word only becomes a float,
which has 53 bits for it. So the number is rounded to a multiple of 2048, a half
to the even one. Here the float is followed bit by bit: through the shift that
drops the low bits, through rounding and packing, and back to the word that is
made of it. `2 ^ 63` is no signed word but is taken for the greatest one, and
with it all numbers that are rounded to it.

- `Approximates`, `approximates_shiftRight`: what a mantissa that was shifted
  tells about the number, and that shifting keeps this.
- `roundedMantissa_eq`: it is rounded to the nearest whole number.
- `Binary.ofFloat_pack`: a float denotes what was packed.
- `Binary.toInt?_ofInt`: the whole number that is the float of a word.
- `Value.int64OfFloat?_ofInt`: the signed word that is made of it.
-/

namespace EntitySql

open Float.Model (Format totalExponent UnpackedFloat)
open Float.Model.UnpackedFloat

/-! ## Rounding to the nearest -/

/-- The mantissa is the number in terms of a unit, rounded down, and its bits tell on which side of
half a unit the rest is. -/
def Approximates (m : ExtendedMantissa) (number unit : Nat) : Prop :=
  ∃ rest < unit, number = m.mantissa * unit + rest ∧
    match m.roundBit, m.stickyBit with
    | false, false => rest = 0
    | false, true => 0 < rest ∧ 2 * rest < unit
    | true, false => 2 * rest = unit
    | true, true => unit < 2 * rest

/-- A shift by one place doubles the unit. -/
theorem approximates_shiftRightOne {m : ExtendedMantissa} {number unit : Nat}
    (h : Approximates m number unit) : Approximates m.shiftRightOne number (2 * unit) := by
  obtain ⟨mantissa, round, sticky⟩ := m
  obtain ⟨rest, hrest, hnumber, hbits⟩ := h
  dsimp only at hnumber hbits
  have hsplit : mantissa * unit = mantissa / 2 * (2 * unit) + mantissa % 2 * unit := by
    rw [← Nat.mul_assoc, ← Nat.add_mul, Nat.mul_comm (mantissa / 2), Nat.div_add_mod]
  have hnext : number = mantissa / 2 * (2 * unit) + (mantissa % 2 * unit + rest) := by omega
  -- the last bit of the mantissa is the first one of the rest
  rcases Nat.mod_two_eq_zero_or_one mantissa with hlast | hlast
  · refine ⟨rest, by omega, ?_, ?_⟩
    · rw [hnext, hlast]
      simp [ExtendedMantissa.shiftRightOne]
    · cases round <;> cases sticky <;> simp_all [ExtendedMantissa.shiftRightOne] <;> omega
  · refine ⟨unit + rest, by omega, ?_, ?_⟩
    · rw [hnext, hlast]
      simp [ExtendedMantissa.shiftRightOne]
    · cases round <;> cases sticky <;> simp_all [ExtendedMantissa.shiftRightOne] <;> omega

/-- A number that is shifted is known up to the rest. -/
theorem approximates_shiftRight (number places : Nat) :
    Approximates (ExtendedMantissa.ofMantissaAndAccuracy number .exact >>> places) number
      (twoTo places) := by
  show Approximates (Nat.repeat ExtendedMantissa.shiftRightOne places _) number (twoTo places)
  induction places with
  | zero => exact ⟨0, by decide, (Nat.mul_one _).symm, rfl⟩
  | succ places ih =>
    rw [twoTo_succ, Nat.mul_comm]
    exact approximates_shiftRightOne ih

/-- A mantissa is rounded to the whole number that is nearest. -/
theorem roundedMantissa_eq {m : ExtendedMantissa} {number unit : Nat}
    (h : Approximates m number unit) : m.roundedMantissa = roundDiv number unit := by
  obtain ⟨mantissa, round, sticky⟩ := m
  obtain ⟨rest, hrest, hnumber, hbits⟩ := h
  dsimp only at hnumber hbits
  have hunit : 0 < unit := by omega
  have hdiv : number / unit = mantissa := by
    rw [hnumber, Nat.add_comm, Nat.add_mul_div_right _ _ hunit, Nat.div_eq_of_lt hrest,
      Nat.zero_add]
  have hmod : number % unit = rest := by
    rw [hnumber, Nat.add_comm, Nat.add_mul_mod_self_right, Nat.mod_eq_of_lt hrest]
  rw [roundDiv, hdiv, hmod]
  cases round <;> cases sticky <;>
    simp only [ExtendedMantissa.roundedMantissa, ExtendedMantissa.accuracy,
      Accuracy.roundToNearestEven] at hbits ⊢ <;>
    split_ifs <;> omega

/-! ## Packing -/

/-- The bits of a float that was packed of a mantissa with all its bits. -/
theorem toNat_pack {sign : Sign} {mantissa : Nat} {exponent : Int} {hpos : 0 < mantissa}
    (hlow : twoTo 52 ≤ mantissa) (hhigh : mantissa < twoTo 53) (hexponent : exponent ≤ 971) :
    (pack Format.binary64 (.finite sign mantissa exponent hpos)).toNat =
      sign.toBitVec.toNat * twoTo 63 + (exponent + 1075).toNat * twoTo 52 +
        (mantissa - twoTo 52) := by
  have h52 : twoTo 52 = 2 ^ 52 := rfl
  have h53 : twoTo 53 = 2 ^ 53 := rfl
  have h63 : twoTo 63 = 2 ^ 63 := rfl
  rw [h52] at hlow ⊢
  rw [h53] at hhigh
  rw [h63]
  have hlog : mantissa.log2 = 52 := (Nat.log2_eq_iff (by omega)).2 ⟨hlow, hhigh⟩
  rw [pack_finite hexponent, if_pos (by rw [hlog])]
  show (sign.toBitVec ++ BitVec.ofNat 11 (exponent + 1075).toNat ++ BitVec.ofNat 52 mantissa).toNat
    = _
  rw [BitVec.toNat_append, BitVec.toNat_append, BitVec.toNat_ofNat, BitVec.toNat_ofNat,
    ← Nat.shiftLeft_add_eq_or_of_lt (Nat.mod_lt _ (Nat.two_pow_pos 11)),
    ← Nat.shiftLeft_add_eq_or_of_lt (Nat.mod_lt _ (Nat.two_pow_pos 52)), Nat.shiftLeft_eq,
    Nat.shiftLeft_eq]
  omega

/-- A float denotes what was packed. -/
theorem Binary.ofFloat_pack {sign : Sign} {mantissa : Nat} {exponent : Int} {hpos : 0 < mantissa}
    (hlow : twoTo 52 ≤ mantissa) (hhigh : mantissa < twoTo 53) (hexponent : -1074 ≤ exponent)
    (hexponent' : exponent ≤ 971) :
    Binary.ofFloat (.ofModel (.pack (.finite sign mantissa exponent hpos))) =
      .finite (sign.toBitVec.toNat == 1) mantissa exponent := by
  have hsign : sign.toBitVec.toNat < 2 := sign.toBitVec.isLt
  have hbits := @toNat_pack sign mantissa exponent hpos hlow hhigh hexponent'
  show Binary.ofFields
    ((pack Format.binary64 (.finite sign mantissa exponent hpos)).toNat / twoTo 63 == 1)
    ((pack Format.binary64 (.finite sign mantissa exponent hpos)).toNat / twoTo 52 % twoTo 11)
    ((pack Format.binary64 (.finite sign mantissa exponent hpos)).toNat % twoTo 52) = _
  generalize (pack Format.binary64 (.finite sign mantissa exponent hpos)).toNat = bits at hbits ⊢
  generalize sign.toBitVec.toNat = s at hsign hbits ⊢
  have h11 : twoTo 11 = 2 ^ 11 := rfl
  have h52 : twoTo 52 = 2 ^ 52 := rfl
  have h53 : twoTo 53 = 2 ^ 53 := rfl
  have h63 : twoTo 63 = 2 ^ 63 := rfl
  rw [h52] at hlow hbits
  rw [h53] at hhigh
  rw [h63] at hbits
  rw [h11, h52, h63]
  have hfirst : bits / 2 ^ 63 = s := by omega
  have hbiased : bits / 2 ^ 52 % 2 ^ 11 = (exponent + 1075).toNat := by omega
  have hfraction : bits % 2 ^ 52 = mantissa - 2 ^ 52 := by omega
  have hmantissa : twoTo 52 + (mantissa - 2 ^ 52) = mantissa := Nat.add_sub_cancel' hlow
  have hunbiased : ((exponent + 1075).toNat : Int) - 1075 = exponent := by omega
  rw [hfirst, hbiased, hfraction, Binary.ofFields, if_neg (by omega), if_neg (by omega), hmantissa,
    hunbiased]

/-! ## The float of a word -/

/-- The places that a mantissa is shifted by are those that it has more than 53. -/
theorem shiftToTargetExponent_eq (mantissa : Nat) (exponent : Int) (places : Nat)
    (h : (max ((mantissa.log2 : Int) - 52 + exponent) (-1074) - exponent).toNat = places) :
    shiftToTargetExponent Format.binary64 mantissa exponent .exact =
      (ExtendedMantissa.ofMantissaAndAccuracy mantissa .exact >>> places, exponent + places) := by
  have htarget : (max (mantissa.log2 + 1 + exponent - (1 + 52)) (3 - 2 ^ 10 - (1 + 52)) -
      exponent).toNat = places := by omega
  rw [← htarget]
  rfl

/-- A number over a denominator is rounded like both with a common factor. -/
theorem roundDiv_mul_right (number denominator : Nat) {factor : Nat} (h : 0 < factor) :
    roundDiv (number * factor) (denominator * factor) = roundDiv number denominator := by
  have hrest : number * factor % (denominator * factor) = number % denominator * factor :=
    Nat.mul_mod_mul_right ..
  have hless : ∀ a b : Nat, 2 * (a * factor) < b * factor ↔ 2 * a < b := by
    intro a b
    rw [← Nat.mul_assoc]
    exact Nat.mul_lt_mul_right h
  have hmore : ∀ a b : Nat, b * factor < 2 * (a * factor) ↔ b < 2 * a := by
    intro a b
    rw [← Nat.mul_assoc]
    exact Nat.mul_lt_mul_right h
  simp only [roundDiv, hrest, Nat.mul_div_mul_right _ _ h, hless, hmore]

/-- A word of 64 bits is rounded to 53 of them; one more is dropped if rounding has added one. -/
theorem roundWithAccuracy_word {m : Nat} (hlow : twoTo 63 ≤ m) (hhigh : m < twoTo 64) :
    ∃ mantissa exponent hpos, roundWithAccuracy Format.binary64 .positive (m * twoTo 53) (-53)
        .exact = .finite .positive mantissa exponent hpos ∧
      twoTo 52 ≤ mantissa ∧ mantissa < twoTo 53 ∧ 0 ≤ exponent ∧ exponent ≤ 971 ∧
      mantissa * twoTo exponent.toNat = roundDiv m 2048 * 2048 := by
  have h52 : twoTo 52 = 2 ^ 52 := rfl
  have h53 : twoTo 53 = 2 ^ 53 := rfl
  have h63 : twoTo 63 = 2 ^ 63 := rfl
  have h64 : twoTo 64 = 2 ^ 64 := rfl
  have hlog : (m * twoTo 53).log2 = 116 := by
    rw [h53]
    exact (Nat.log2_eq_iff (by omega)).2 ⟨by omega, by omega⟩
  -- the low 64 bits are dropped
  have hfirst := shiftToTargetExponent_eq (m * twoTo 53) (-53) 64 (by rw [hlog]; decide)
  have hrounded : ExtendedMantissa.roundedMantissa
      (ExtendedMantissa.ofMantissaAndAccuracy (m * twoTo 53) .exact >>> 64) = roundDiv m 2048 :=
    (roundedMantissa_eq (approximates_shiftRight (m * twoTo 53) 64)).trans
      (roundDiv_mul_right m 2048 (twoTo_pos 53))
  have hbounds : twoTo 52 ≤ roundDiv m 2048 ∧ roundDiv m 2048 ≤ twoTo 53 := by
    unfold roundDiv
    dsimp only
    split_ifs <;> omega
  generalize roundDiv m 2048 = rounded at hrounded hbounds ⊢
  rw [roundWithAccuracy, hfirst]
  dsimp only
  rw [hrounded]
  rcases Nat.lt_or_eq_of_le hbounds.2 with hfits | rfl
  · have hlast : rounded.log2 = 52 := (Nat.log2_eq_iff (by omega)).2 ⟨hbounds.1, hfits⟩
    rw [shiftToTargetExponent_eq _ _ 0 (by rw [hlast]; decide)]
    exact ⟨rounded, 11, by omega, dif_neg (show rounded ≠ 0 by omega), hbounds.1, hfits,
      by decide, by decide, rfl⟩
  · have hlast : (twoTo 53).log2 = 53 := Nat.log2_two_pow
    rw [shiftToTargetExponent_eq _ _ 1 (by rw [hlast]; decide)]
    exact ⟨twoTo 52, 12, by decide, rfl, by decide, by decide, by decide, by decide, by decide⟩

/-- The float of a word that is not signed is the multiple of 2048 that is nearest. -/
theorem Binary.toInt?_ofInt {m : Nat} (hlow : twoTo 63 ≤ m) (hhigh : m < twoTo 64) :
    (Binary.ofFloat (Float.ofInt m)).toInt? = some ((roundDiv m 2048 * 2048 : Nat) : Int) := by
  obtain ⟨mantissa, exponent, hpos, hround, hmantissa, hmantissa', hexponent, hexponent', hvalue⟩ :=
    roundWithAccuracy_word hlow hhigh
  rw [ofInt_eq_pack hlow, hround,
    Binary.ofFloat_pack hmantissa hmantissa' (by omega) hexponent', Binary.toInt?, if_pos hexponent,
    ← hvalue]
  rfl

/-- The signed word that is made of the float of an unsigned one. Numbers up to `2 ^ 63 + 1024` are
rounded down to `2 ^ 63`, which is taken for the greatest word; there is no word for others. -/
theorem Value.int64OfFloat?_ofInt {n : Int} (hlow : 9223372036854775808 ≤ n)
    (hhigh : n < 18446744073709551616) :
    Value.int64OfFloat? (Float.ofInt n) =
      if n ≤ 9223372036854776832 then some Int64.maxValue else none := by
  obtain ⟨m, rfl⟩ : ∃ m : Nat, n = m := ⟨n.toNat, by omega⟩
  have h63 : twoTo 63 = 9223372036854775808 := rfl
  have h64 : twoTo 64 = 18446744073709551616 := rfl
  rw [Value.int64OfFloat?, Binary.toInt?_ofInt (by omega) (by omega)]
  have hnearest : 9223372036854775808 ≤ roundDiv m 2048 * 2048 ∧
      (roundDiv m 2048 * 2048 = 9223372036854775808 ↔ m ≤ 9223372036854776832) := by
    unfold roundDiv
    dsimp only
    split_ifs <;> omega
  generalize roundDiv m 2048 * 2048 = nearest at *
  show (if FitsSigned (nearest : Int) then some (Int64.ofInt nearest)
    else if (nearest : Int) = 9223372036854775808 then some Int64.maxValue else none) = _
  split_ifs <;> first | rfl | omega

end EntitySql
