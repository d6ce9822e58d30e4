import EntitySql.Proofs.WordFloats
import Mathlib.Tactic.SplitIfs

/-!
# Floats, unpacked

The arithmetic of floats takes them apart into sign, mantissa and exponent, and
puts the results together again. Nothing is lost on the way, since mantissas
have all their bits unless the exponent is the least one.

- `IsNormalized`: the parts that floats have.
- `unpack_pack_finite`: what is put together is taken apart the same way.
- `isNormalized_unpack`: every float has such parts.
- `Binary.ofFloat_eq`: the parts denote what the bits denote.
- `beq_float_iff`: when finite floats are equal.
-/

namespace EntitySql

open Float.Model (Format totalExponent UnpackedFloat)
open Float.Model.UnpackedFloat

/-- A mantissa of 53 bits, or of less at the least exponent. There is no bound on the exponent. -/
def IsNormalized : UnpackedFloat → Prop
  | .finite _ mantissa exponent _ =>
    mantissa < twoTo 53 ∧ -1074 ≤ exponent ∧ (twoTo 52 ≤ mantissa ∨ exponent = -1074)
  | _ => True

theorem isNormalized_finite {sign : Sign} {mantissa : Nat} {exponent : Int} {hpos : 0 < mantissa} :
    IsNormalized (.finite sign mantissa exponent hpos) ↔
      mantissa < twoTo 53 ∧ -1074 ≤ exponent ∧ (twoTo 52 ≤ mantissa ∨ exponent = -1074) := Iff.rfl

/-! ## Bits and parts -/

/-- The first bit of a mantissa is not kept. -/
theorem toNat_one_append (bits : BitVec 52) : (1#1 ++ bits).toNat = twoTo 52 + bits.toNat := by
  rw [BitVec.toNat_append, ← Nat.shiftLeft_add_eq_or_of_lt bits.isLt]
  rfl

/-- The parts that fields of bits stand for. -/
def unpackFields (sign : Sign) (exponent : BitVec 11) (mantissa : BitVec 52) : UnpackedFloat :=
  if exponent = -1#11 then
    if mantissa = 0#52 then .infinity sign else .notANumber
  else if exponent = 0#11 then
    if h : mantissa = 0#52 then .zero sign
    else .finite sign mantissa.toNat (exponent.toNat - 1075 + 1)
      (Nat.pos_of_ne_zero fun hzero => h (BitVec.eq_of_toNat_eq hzero))
  else .finite sign (1#1 ++ mantissa).toNat (exponent.toNat - 1075)
    (by rw [toNat_one_append]; exact Nat.lt_of_lt_of_le (twoTo_pos 52) (Nat.le_add_right _ _))

/-- How bits are taken apart. -/
theorem unpack_eq (bits : BitVec 64) :
    unpack Format.binary64 bits =
      unpackFields (Sign.ofBitVec (@unpackSign Format.binary64 bits))
        (@unpackExponent Format.binary64 bits) (@unpackMantissa Format.binary64 bits) := rfl

/-- The bit in front is the sign. -/
theorem unpackSign_fields (sign : Sign) (exponent : BitVec 11) (mantissa : BitVec 52) :
    unpackSign (packComponents Format.binary64 sign exponent mantissa) = sign.toBitVec := by
  show (sign.toBitVec ++ exponent ++ mantissa : BitVec (1 + 11 + 52)).extractLsb' 63 1 =
    sign.toBitVec
  ext i hi
  obtain rfl : i = 0 := by omega
  rw [BitVec.getElem_extractLsb', BitVec.getLsbD_append, BitVec.getLsbD_append]
  rfl

theorem unpack_packComponents (sign : Sign) (exponent : BitVec 11) (mantissa : BitVec 52) :
    unpack Format.binary64 (packComponents Format.binary64 sign exponent mantissa) =
      unpackFields sign exponent mantissa := by
  rw [unpack_eq, unpackSign_fields, unpackExponent_packComponents, unpackMantissa_packComponents]
  cases sign <;> rfl

/-- What is put together is taken apart the same way, unless its exponent is too large. -/
theorem unpack_pack_finite {sign : Sign} {mantissa : Nat} {exponent : Int} {hpos : 0 < mantissa}
    (h : IsNormalized (.finite sign mantissa exponent hpos)) (hexponent : exponent ≤ 971) :
    unpack Format.binary64 (pack Format.binary64 (.finite sign mantissa exponent hpos)) =
      .finite sign mantissa exponent hpos := by
  obtain ⟨hhigh, hleast, hlow⟩ := h
  have h52 : twoTo 52 = 2 ^ 52 := rfl
  have h53 : twoTo 53 = 2 ^ 53 := rfl
  rw [h53] at hhigh
  rw [h52] at hlow
  rw [pack_finite hexponent]
  by_cases hnormal : 2 ^ 52 ≤ mantissa
  · have hlog : mantissa.log2 = 52 := (Nat.log2_eq_iff (by omega)).2 ⟨hnormal, hhigh⟩
    have hbiased : (BitVec.ofNat 11 (exponent + 1075).toNat).toNat = (exponent + 1075).toNat := by
      rw [BitVec.toNat_ofNat]
      omega
    have hones : BitVec.ofNat 11 (exponent + 1075).toNat ≠ -1#11 := by
      rw [Ne, ← BitVec.toNat_inj, hbiased]
      show ¬ (exponent + 1075).toNat = 2047
      omega
    have hzeros : BitVec.ofNat 11 (exponent + 1075).toNat ≠ 0#11 := by
      rw [Ne, ← BitVec.toNat_inj, hbiased]
      show ¬ (exponent + 1075).toNat = 0
      omega
    have hmantissa : (1#1 ++ BitVec.ofNat 52 mantissa).toNat = mantissa := by
      rw [toNat_one_append, BitVec.toNat_ofNat, h52]
      omega
    rw [if_pos (by rw [hlog]), unpack_packComponents, unpackFields, if_neg hones, if_neg hzeros,
      finite.injEq, hbiased]
    exact ⟨rfl, hmantissa, by omega⟩
  · have hlog : mantissa.log2 < 52 := (Nat.log2_lt (by omega)).2 (by omega)
    have hmantissa : (BitVec.ofNat 52 mantissa).toNat = mantissa := by
      rw [BitVec.toNat_ofNat]
      omega
    have hne : BitVec.ofNat 52 mantissa ≠ 0#52 := by
      rw [Ne, ← BitVec.toNat_inj, hmantissa]
      show ¬ mantissa = 0
      omega
    rw [if_neg (by omega), unpack_packComponents, unpackFields, if_neg (by decide), if_pos rfl,
      dif_neg hne, finite.injEq]
    refine ⟨rfl, hmantissa, ?_⟩
    show (0 : Int) - 1075 + 1 = exponent
    omega

/-- A number is put together as an infinity if its exponent is too large. -/
theorem pack_finite_of_large {sign : Sign} {mantissa : Nat} {exponent : Int} {hpos : 0 < mantissa}
    (h : 971 < exponent) :
    pack Format.binary64 (.finite sign mantissa exponent hpos) =
      packedInfinity Format.binary64 sign := by
  show (if 2 ^ 11 ≤ (exponent + (1023 : Nat) + (52 : Nat)).toNat + 1 then
    packedInfinity Format.binary64 sign else _) = _
  exact if_pos (by omega)

/-- Fields of bits stand for mantissas with all their bits, unless the exponent is the least. -/
theorem isNormalized_unpackFields (sign : Sign) (exponent : BitVec 11) (mantissa : BitVec 52) :
    IsNormalized (unpackFields sign exponent mantissa) := by
  have h52 : twoTo 52 = 2 ^ 52 := rfl
  have h53 : twoTo 53 = 2 ^ 53 := rfl
  have hmantissa : mantissa.toNat < 2 ^ 52 := mantissa.isLt
  rw [unpackFields]
  by_cases hones : exponent = -1#11
  · rw [if_pos hones]
    by_cases hzero : mantissa = 0#52
    · rw [if_pos hzero]
      trivial
    · rw [if_neg hzero]
      trivial
  rw [if_neg hones]
  by_cases hzeros : exponent = 0#11
  · rw [if_pos hzeros]
    by_cases hzero : mantissa = 0#52
    · rw [dif_pos hzero]
      trivial
    · have hexponent : exponent.toNat = 0 := congrArg BitVec.toNat hzeros
      rw [dif_neg hzero, isNormalized_finite, hexponent]
      omega
  · have hexponent : exponent.toNat ≠ 0 := fun h => hzeros (BitVec.eq_of_toNat_eq h)
    rw [if_neg hzeros, isNormalized_finite, toNat_one_append]
    omega

/-- Every float has such parts. -/
theorem isNormalized_unpack (f : Float.Model) : IsNormalized f.unpack :=
  isNormalized_unpackFields _ _ _

/-! ## What the parts denote -/

/-- The number that parts denote. -/
def Binary.ofUnpacked : UnpackedFloat → Binary
  | .notANumber => .nan
  | .infinity sign => .infinite (sign == .negative)
  | .zero sign => .finite (sign == .negative) 0 (-1074)
  | .finite sign mantissa exponent _ => .finite (sign == .negative) mantissa exponent

theorem Binary.ofUnpacked_finite {sign : Sign} {mantissa : Nat} {exponent : Int}
    {hpos : 0 < mantissa} :
    ofUnpacked (.finite sign mantissa exponent hpos) =
      .finite (sign == .negative) mantissa exponent := rfl

/-- The parts of fields denote what the fields denote. -/
theorem Binary.ofFields_eq (sign : Sign) (exponent : BitVec 11) (mantissa : BitVec 52) :
    ofFields (sign == .negative) exponent.toNat mantissa.toNat =
      ofUnpacked (unpackFields sign exponent mantissa) := by
  have hones : exponent = -1#11 ↔ exponent.toNat = 2047 := BitVec.toNat_inj.symm
  have hzeros : exponent = 0#11 ↔ exponent.toNat = 0 := BitVec.toNat_inj.symm
  have hzero : mantissa = 0#52 ↔ mantissa.toNat = 0 := BitVec.toNat_inj.symm
  rw [ofFields, unpackFields]
  by_cases h : exponent = -1#11
  · rw [if_pos h, if_pos (hones.1 h)]
    by_cases hm : mantissa = 0#52
    · rw [if_pos hm, if_pos (hzero.1 hm)]
      rfl
    · rw [if_neg hm, if_neg (mt hzero.2 hm)]
      rfl
  rw [if_neg h, if_neg (mt hones.2 h)]
  by_cases h : exponent = 0#11
  · rw [if_pos h, if_pos (hzeros.1 h)]
    by_cases hm : mantissa = 0#52
    · rw [dif_pos hm, hzero.1 hm]
      rfl
    · rw [dif_neg hm, ofUnpacked_finite, hzeros.1 h]
      rfl
  · rw [if_neg h, if_neg (mt hzeros.2 h), ofUnpacked_finite, toNat_one_append]

/-- The first bit is the sign. -/
theorem toNat_unpackSign (x : Float) :
    (@unpackSign Format.binary64 x.toBits.toBitVec).toNat = x.toBits.toNat / twoTo 63 := by
  show (x.toBits.toBitVec.extractLsb 63 63).toNat = _
  rw [BitVec.extractLsb_toNat, Nat.shiftRight_eq_div_pow]
  exact Nat.mod_eq_of_lt (Nat.div_lt_of_lt_mul x.toBits.toBitVec.isLt)

theorem toNat_unpackMantissa (x : Float) :
    (@unpackMantissa Format.binary64 x.toBits.toBitVec).toNat = x.toBits.toNat % twoTo 52 := by
  show (x.toBits.toBitVec.extractLsb 51 0).toNat = _
  rw [BitVec.extractLsb_toNat]
  rfl

/-- A float denotes what its parts denote. -/
theorem Binary.ofFloat_eq (x : Float) : ofFloat x = ofUnpacked x.toModel.unpack := by
  have hsign : (Sign.ofBitVec (@unpackSign Format.binary64 x.toBits.toBitVec) == .negative) =
      (x.toBits.toNat / twoTo 63 == 1) := by
    rw [← toNat_unpackSign, Sign.ofBitVec]
    generalize @unpackSign Format.binary64 x.toBits.toBitVec = bit
    rcases BitVec.eq_zero_or_eq_one bit with rfl | rfl <;> rfl
  show ofFields (x.toBits.toNat / twoTo 63 == 1) (x.toBits.toNat / twoTo 52 % twoTo 11)
    (x.toBits.toNat % twoTo 52) = _
  rw [← hsign, ← toNat_unpackExponent, ← toNat_unpackMantissa, ofFields_eq]
  rfl

theorem finiteFloat_eq (x : Float) : finiteFloat x = x.toModel.unpack.isFinite := by
  rw [finiteFloat, Binary.ofFloat_eq]
  cases x.toModel.unpack <;> rfl

/-! ## Floats that are equal -/

/-- A zero of either sign. -/
def IsZero : UnpackedFloat → Prop
  | .zero _ => True
  | _ => False

/-- Finite parts are equal to the same parts only, but for the sign of zero. -/
theorem beq_parts_iff {a b : UnpackedFloat} (ha : a.isFinite = true) :
    a.beq b = true ↔ a = b ∨ IsZero a ∧ IsZero b := by
  show (a.compare b == some .eq) = true ↔ _
  rw [beq_iff_eq]
  cases a with
  | notANumber => cases ha
  | infinity sign => cases ha
  | zero sign =>
    cases b with
    | zero sign' => exact iff_of_true rfl (.inr ⟨trivial, trivial⟩)
    | notANumber => exact iff_of_false (by rintro ⟨⟩) (by rintro (h | ⟨-, h⟩) <;> cases h)
    | infinity sign' | finite sign' _ _ _ =>
      exact iff_of_false (by cases sign' <;> rintro ⟨⟩) (by rintro (h | ⟨-, h⟩) <;> cases h)
  | finite sign mantissa exponent hpos =>
    cases b with
    | finite sign' mantissa' exponent' hpos' =>
      have hequal : (compare exponent exponent').then (compare mantissa mantissa') = .eq ↔
          mantissa = mantissa' ∧ exponent = exponent' := by
        simp [Ordering.then_eq_eq, and_comm]
      rw [or_iff_left fun h => h.1, finite.injEq, ← hequal]
      cases sign with
      | positive =>
        cases sign' with
        | positive =>
          show some ((compare exponent exponent').then (compare mantissa mantissa')) = _ ↔ _
          simp
        | negative => exact iff_of_false (by rintro ⟨⟩) (by rintro ⟨⟨⟩, -⟩)
      | negative =>
        cases sign' with
        | positive => exact iff_of_false (by rintro ⟨⟩) (by rintro ⟨⟨⟩, -⟩)
        | negative =>
          show some ((compare exponent exponent').then (compare mantissa mantissa')).swap = _ ↔ _
          simp
    | notANumber =>
      exact iff_of_false (by cases sign <;> rintro ⟨⟩) (by rintro (h | ⟨h, -⟩) <;> cases h)
    | infinity sign' | zero sign' =>
      exact iff_of_false (by cases sign <;> cases sign' <;> rintro ⟨⟩)
        (by rintro (h | ⟨h, -⟩) <;> cases h)

/-- Finite floats are equal if their parts are. -/
theorem beq_float_iff {x : Float} (hfinite : finiteFloat x = true) (y : Float) :
    (x == y) = true ↔ x.toModel.unpack = y.toModel.unpack ∨
      IsZero x.toModel.unpack ∧ IsZero y.toModel.unpack :=
  beq_parts_iff ((finiteFloat_eq x).symm.trans hfinite)

end EntitySql
