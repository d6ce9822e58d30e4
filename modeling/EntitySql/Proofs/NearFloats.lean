import EntitySql.Proofs.RoundedFloats
import Mathlib.Algebra.Order.Field.Power
import Mathlib.Algebra.Order.Field.Rat
import Mathlib.Tactic.Linarith
import Mathlib.Tactic.NormNum
import Mathlib.Tactic.Positivity

/-!
# Floats that are near

Floats count as equal if their difference is less than `2 ^ -52`. Differences are
rounded before they are compared, and an exact one that is less than `2 ^ -52` by
no more than half a unit is rounded up to it. So the bound for exact differences
is a little smaller.

- `Binary.toRat`: the exact number that a float denotes.
- `reach`: the bound for exact differences.
- `IsSmall`: what is less than the tolerance, told by the exponent.
- `isSmall_round`, `isSmall_sub`: which numbers, and which differences, are less
  than the tolerance once they are rounded.
- `near_iff`: floats are near exactly if both are finite and their exact
  difference is less than the bound.
-/

namespace EntitySql

open Float.Model (Format totalExponent UnpackedFloat)
open Float.Model.UnpackedFloat

/-- The exact number that is denoted, zero if there is none. -/
def Binary.toRat : Binary → ℚ
  | .finite negative mantissa exponent =>
    (if negative then -1 else 1) * (mantissa * 2 ^ exponent)
  | _ => 0

/-- The exact number that a finite float denotes. -/
def exactNumber (x : Float) : ℚ := (Binary.ofFloat x).toRat

/-- Exact differences of less than this are rounded to less than the tolerance. -/
def reach : ℚ := 2 ^ (-52 : Int) - 2 ^ (-106 : Int)

/-! ## Numbers below the tolerance -/

/-- A number whose exponent is too small for the tolerance, which is `2 ^ 52 * 2 ^ -104`. -/
def IsSmall : UnpackedFloat → Prop
  | .zero _ => True
  | .finite _ _ exponent _ => exponent ≤ -105
  | _ => False

theorem isSmall_finite_iff {sign : Sign} {mantissa : Nat} {exponent : Int} {hpos : 0 < mantissa} :
    IsSmall (.finite sign mantissa exponent hpos) ↔ exponent ≤ -105 := Iff.rfl

/-- A number is between two powers of two. -/
theorem number_bounds {mantissa : Nat} (hpos : 0 < mantissa) (exponent : Int) :
    (2 : ℚ) ^ (mantissa.log2 + exponent) ≤ mantissa * 2 ^ exponent ∧
      mantissa * 2 ^ exponent < (2 : ℚ) ^ (mantissa.log2 + exponent + 1) := by
  have hlow : ((2 ^ mantissa.log2 : Nat) : ℚ) ≤ mantissa :=
    Nat.cast_le.2 (Nat.log2_self_le (by omega))
  have hhigh : (mantissa : ℚ) < ((2 ^ (mantissa.log2 + 1) : Nat) : ℚ) :=
    Nat.cast_lt.2 Nat.lt_log2_self
  have hpower : (0 : ℚ) < 2 ^ exponent := by positivity
  constructor
  · rw [zpow_add₀ (by norm_num), zpow_natCast]
    push_cast at hlow
    exact mul_le_mul_of_nonneg_right hlow hpower.le
  · rw [add_right_comm, zpow_add₀ (by norm_num), ← Nat.cast_succ, zpow_natCast]
    push_cast at hhigh
    exact mul_lt_mul_of_pos_right hhigh hpower

theorem reach_eq : reach = (2 ^ 54 - 1) * 2 ^ (-106 : Int) := by
  norm_num [reach]

/-- Powers of two on either side of the bound. -/
theorem reach_bounds : (2 : ℚ) ^ (-53 : Int) < reach ∧ reach < 2 ^ (-52 : Int) := by
  norm_num [reach]

theorem reach_pos : 0 < reach := lt_trans (by positivity) reach_bounds.1

section

variable {mantissa : Nat} (hpos : 0 < mantissa) {exponent : Int}

include hpos

theorem lt_reach_of_le (h : mantissa.log2 + exponent ≤ -54) :
    (mantissa : ℚ) * 2 ^ exponent < reach := by
  have hpower : (2 : ℚ) ^ (mantissa.log2 + exponent + 1) ≤ 2 ^ (-53 : Int) :=
    zpow_le_zpow_right₀ (by norm_num) (by omega)
  exact (number_bounds hpos exponent).2.trans_le (hpower.trans reach_bounds.1.le)

theorem reach_lt_of_le (h : -52 ≤ mantissa.log2 + exponent) :
    reach < (mantissa : ℚ) * 2 ^ exponent := by
  have hpower : (2 : ℚ) ^ (-52 : Int) ≤ 2 ^ (mantissa.log2 + exponent) :=
    zpow_le_zpow_right₀ (by norm_num) h
  exact (reach_bounds.2.trans_le hpower).trans_le (number_bounds hpos exponent).1

end

theorem mul_bitUnit_eq (mantissa : Nat) (exponent : Int) :
    (mantissa : ℚ) * 2 ^ exponent * bitUnit mantissa exponent =
      wholeBits mantissa exponent * 2 ^ roundedExponent mantissa exponent := by
  have htwoTo : ∀ k, ((twoTo k : Nat) : ℚ) = 2 ^ (k : Int) := fun k => by
    rw [zpow_natCast]
    exact Nat.cast_pow 2 k
  have htwo : (2 : ℚ) ≠ 0 := by norm_num
  rw [bitUnit, wholeBits]
  push_cast
  rw [htwoTo, htwoTo, mul_assoc, ← zpow_add₀ htwo, mul_assoc, ← zpow_add₀ htwo]
  congr 2
  omega

/-- Next to the bound it is settled by the bits that are dropped. -/
theorem lt_reach_iff {mantissa : Nat} (hpos : 0 < mantissa) {exponent : Int}
    (hleast : -1074 ≤ exponent) (h : mantissa.log2 + exponent = -53) :
    (mantissa : ℚ) * 2 ^ exponent < reach ↔ roundedBits mantissa exponent < twoTo 53 := by
  have htarget : roundedExponent mantissa exponent = -105 := by
    rw [roundedExponent]
    omega
  have hunit : 0 < bitUnit mantissa exponent := twoTo_pos _
  have hscale := mul_bitUnit_eq mantissa exponent
  rw [htarget] at hscale
  have hpower : (2 : ℚ) ^ (-105 : Int) = 2 * 2 ^ (-106 : Int) := by norm_num
  calc (mantissa : ℚ) * 2 ^ exponent < reach
      ↔ (mantissa : ℚ) * 2 ^ exponent * bitUnit mantissa exponent <
          reach * bitUnit mantissa exponent :=
        (mul_lt_mul_iff_left₀ (Nat.cast_pos.2 hunit)).symm
    _ ↔ (2 * wholeBits mantissa exponent : ℚ) * 2 ^ (-106 : Int) <
          (2 ^ 54 - 1) * bitUnit mantissa exponent * 2 ^ (-106 : Int) := by
        rw [hscale, hpower, reach_eq, mul_left_comm, mul_assoc 2, mul_right_comm (2 ^ 54 - 1 : ℚ)]
    _ ↔ (2 * wholeBits mantissa exponent : ℚ) < (2 ^ 54 - 1) * bitUnit mantissa exponent :=
        mul_lt_mul_iff_left₀ (by positivity)
    _ ↔ 2 * wholeBits mantissa exponent < (4 * twoTo 52 - 1) * bitUnit mantissa exponent := by
        have hcast : ((4 * twoTo 52 - 1 : Nat) : ℚ) = 2 ^ 54 - 1 := by norm_num [twoTo]
        rw [← hcast]
        exact_mod_cast Iff.rfl
    _ ↔ roundedBits mantissa exponent < twoTo 53 :=
        (roundDiv_lt_iff hunit (wholeBits_bounds hpos hleast).1).symm

/-- A number is less than the tolerance once it is rounded, exactly if it is less than the bound. -/
theorem isSmall_round (sign : Sign) {mantissa : Nat} (hpos : 0 < mantissa) {exponent : Int}
    (hleast : -1074 ≤ exponent) :
    IsSmall (UnpackedFloat.round Format.binary64 sign mantissa exponent) ↔
      (mantissa : ℚ) * 2 ^ exponent < reach := by
  obtain ⟨mantissa', exponent', hpos', hround, -, hexponent⟩ := round_eq hpos hleast sign
  rw [hround, isSmall_finite_iff, hexponent]
  have htarget : roundedExponent mantissa exponent = max (mantissa.log2 - 52 + exponent) (-1074) :=
    rfl
  rcases lt_trichotomy (mantissa.log2 + exponent) (-53) with hlow | hlast | hhigh
  · refine iff_of_true ?_ (lt_reach_of_le hpos (by omega))
    split <;> omega
  · rw [lt_reach_iff hpos hleast hlast]
    split <;> omega
  · refine iff_of_false ?_ (reach_lt_of_le hpos (by omega)).not_gt
    split <;> omega

theorem isSmall_finite {sign : Sign} {mantissa : Nat} {exponent : Int} {hpos : 0 < mantissa}
    (h : IsNormalized (.finite sign mantissa exponent hpos)) :
    IsSmall (.finite sign mantissa exponent hpos) ↔ (mantissa : ℚ) * 2 ^ exponent < reach := by
  obtain ⟨hhigh, hleast, hlow⟩ := h
  have hlog : mantissa.log2 < 53 := (Nat.log2_lt (by omega)).2 hhigh
  rw [isSmall_finite_iff]
  rcases lt_trichotomy exponent (-105) with hexponent | rfl | hexponent
  · exact iff_of_true (by omega) (lt_reach_of_le hpos (by omega))
  · refine iff_of_true le_rfl ?_
    have hmantissa : (mantissa : ℚ) ≤ 2 ^ 53 - 1 := by
      have hcast : ((twoTo 53 - 1 : Nat) : ℚ) = 2 ^ 53 - 1 := by norm_num [twoTo]
      rw [← hcast]
      exact Nat.cast_le.2 (by omega)
    calc (mantissa : ℚ) * 2 ^ (-105 : Int) ≤ (2 ^ 53 - 1) * 2 ^ (-105 : Int) :=
          mul_le_mul_of_nonneg_right hmantissa (by positivity)
      _ < reach := by norm_num [reach]
  · have hlog' : 52 ≤ mantissa.log2 := (Nat.le_log2 (by omega)).2 (by
      rcases hlow with hlow | hlow
      · exact hlow
      · omega)
    exact iff_of_false (by omega) (reach_lt_of_le hpos (by omega)).not_gt

/-! ## Differences -/

/-- The exact number that parts denote. -/
def unpackedNumber (u : UnpackedFloat) : ℚ := (Binary.ofUnpacked u).toRat

theorem exactNumber_eq (x : Float) : exactNumber x = unpackedNumber x.toModel.unpack := by
  rw [exactNumber, Binary.ofFloat_eq, unpackedNumber]

@[simp] theorem unpackedNumber_zero (sign : Sign) : unpackedNumber (.zero sign) = 0 := by
  show (if (sign == .negative) = true then (-1 : ℚ) else 1) * ((0 : Nat) * 2 ^ (-1074 : Int)) = 0
  rw [Nat.cast_zero, zero_mul, mul_zero]

theorem unpackedNumber_finite (sign : Sign) (mantissa : Nat) (exponent : Int)
    (hpos : 0 < mantissa) : unpackedNumber (.finite sign mantissa exponent hpos) =
      (sign.apply mantissa : Int) * 2 ^ exponent := by
  cases sign with
  | negative =>
    show (if true = true then (-1 : ℚ) else 1) * _ = ((-(mantissa : Int) : Int) : ℚ) * _
    rw [if_pos rfl, Int.cast_neg, Int.cast_natCast, neg_one_mul, neg_mul]
  | positive =>
    show (if false = true then (-1 : ℚ) else 1) * _ = (((mantissa : Int) : Int) : ℚ) * _
    rw [if_neg Bool.false_ne_true, Int.cast_natCast, one_mul]

theorem abs_unpackedNumber_finite (sign : Sign) (mantissa : Nat) (exponent : Int)
    (hpos : 0 < mantissa) :
    |unpackedNumber (.finite sign mantissa exponent hpos)| = mantissa * 2 ^ exponent := by
  have hpower : (0 : ℚ) < 2 ^ exponent := by positivity
  rw [unpackedNumber_finite, abs_mul, abs_of_pos hpower]
  cases sign <;> simp [Sign.apply]

/-- A difference of mantissas is rounded as a number of either sign. -/
theorem isSmall_normalize (difference : Int) {exponent : Int} (hleast : -1074 ≤ exponent)
    (zeroSign : Sign) :
    IsNormalized (UnpackedFloat.normalize Format.binary64 difference exponent zeroSign) ∧
      (IsSmall (UnpackedFloat.normalize Format.binary64 difference exponent zeroSign) ↔
        |(difference : ℚ) * 2 ^ exponent| < reach) := by
  have hpower : (0 : ℚ) < 2 ^ exponent := by positivity
  have hsigned : ∀ (sign : Sign) (mantissa : Nat), 0 < mantissa → |(difference : ℚ)| = mantissa →
      IsNormalized (UnpackedFloat.round Format.binary64 sign mantissa exponent) ∧
        (IsSmall (UnpackedFloat.round Format.binary64 sign mantissa exponent) ↔
          |(difference : ℚ) * 2 ^ exponent| < reach) := by
    intro sign mantissa hpos habs
    obtain ⟨_, _, _, hround, hnormalized, -⟩ := round_eq hpos hleast sign
    rw [abs_mul, abs_of_pos hpower, habs, isSmall_round sign hpos hleast, hround]
    exact ⟨hnormalized, Iff.rfl⟩
  rw [UnpackedFloat.normalize]
  split
  · next hneg =>
    have hneg : difference < 0 := Int.compare_eq_lt.1 hneg
    refine hsigned _ _ (by omega) ?_
    rw [abs_of_neg (Int.cast_lt_zero.2 hneg), ← Int.cast_neg, ← Int.cast_natCast,
      Int.toNat_of_nonneg (by omega)]
  · next hzero =>
    have hzero : difference = 0 := Int.compare_eq_eq.1 hzero
    refine ⟨trivial, iff_of_true trivial ?_⟩
    rw [hzero, Int.cast_zero, zero_mul, abs_zero]
    exact reach_pos
  · next hpos =>
    have hpos : 0 < difference := Int.compare_eq_gt.1 hpos
    refine hsigned _ _ (by omega) ?_
    rw [abs_of_pos (Int.cast_pos.2 hpos), ← Int.cast_natCast, Int.toNat_of_nonneg (by omega)]

/-- The mantissa for a smaller exponent. -/
theorem apply_shiftLeft_mul (sign : Sign) (mantissa : Nat) {exponent least : Int}
    (h : least ≤ exponent) :
    ((sign.apply ((mantissa <<< (exponent - least).toNat : Nat) : Int) : Int) : ℚ) * 2 ^ least =
      (sign.apply mantissa : Int) * 2 ^ exponent := by
  have htwo : (2 : ℚ) ≠ 0 := by norm_num
  have hshift : ((mantissa <<< (exponent - least).toNat : Nat) : ℚ) * 2 ^ least =
      mantissa * 2 ^ exponent := by
    rw [Nat.shiftLeft_eq]
    push_cast
    rw [mul_assoc, ← zpow_natCast, ← zpow_add₀ htwo]
    congr 2
    omega
  cases sign with
  | negative =>
    simp only [Sign.apply, Int.cast_neg, Int.cast_natCast, neg_mul]
    rw [hshift]
  | positive =>
    simp only [Sign.apply, Int.cast_natCast]
    exact hshift

/-- The difference of finite floats is less than the tolerance exactly if the exact difference is
less than the bound. -/
theorem isSmall_sub {u v : UnpackedFloat} (hu : IsNormalized u) (hv : IsNormalized v)
    (hu' : u.isFinite = true) (hv' : v.isFinite = true) :
    IsNormalized (UnpackedFloat.sub Format.binary64 u v) ∧
      (IsSmall (UnpackedFloat.sub Format.binary64 u v) ↔
        |unpackedNumber u - unpackedNumber v| < reach) := by
  cases u with
  | notANumber => cases hu'
  | infinity sign => cases hu'
  | zero sign =>
    cases v with
    | notANumber => cases hv'
    | infinity sign' => cases hv'
    | zero sign' =>
      have hsmall : |unpackedNumber (.zero sign) - unpackedNumber (.zero sign')| < reach := by
        simpa using reach_pos
      cases sign <;> cases sign' <;> exact ⟨trivial, iff_of_true trivial hsmall⟩
    | finite sign' mantissa exponent hpos =>
      refine ⟨hv, ?_⟩
      rw [unpackedNumber_zero, zero_sub, abs_neg, abs_unpackedNumber_finite]
      exact isSmall_finite hv
  | finite sign mantissa exponent hpos =>
    cases v with
    | notANumber => cases hv'
    | infinity sign' => cases hv'
    | zero sign' =>
      refine ⟨hu, ?_⟩
      rw [unpackedNumber_zero, sub_zero, abs_unpackedNumber_finite]
      exact isSmall_finite hu
    | finite sign' mantissa' exponent' hpos' =>
      have hleast : -1074 ≤ min exponent exponent' := by
        have h := hu.2.1
        have h' := hv.2.1
        omega
      have hdifference := isSmall_normalize
        (sign.apply ((mantissa <<< (exponent - min exponent exponent').toNat : Nat) : Int) -
          sign'.apply ((mantissa' <<< (exponent' - min exponent exponent').toNat : Nat) : Int))
        hleast .positive
      rw [Int.cast_sub, sub_mul, apply_shiftLeft_mul _ _ (Int.min_le_left _ _),
        apply_shiftLeft_mul _ _ (Int.min_le_right _ _), ← unpackedNumber_finite _ _ _ hpos,
        ← unpackedNumber_finite _ _ _ hpos'] at hdifference
      exact hdifference

/-- A difference with a float that is not finite is an infinity or no number. -/
theorem not_isSmall_sub {u v : UnpackedFloat} (h : ¬ (u.isFinite = true ∧ v.isFinite = true)) :
    IsNormalized (UnpackedFloat.sub Format.binary64 u v) ∧
      ¬ IsSmall (UnpackedFloat.sub Format.binary64 u v) := by
  cases u with
  | notANumber => exact ⟨trivial, id⟩
  | infinity sign =>
    cases v with
    | infinity sign' => cases sign <;> cases sign' <;> exact ⟨trivial, id⟩
    | _ => exact ⟨trivial, id⟩
  | zero sign =>
    cases v with
    | notANumber => exact ⟨trivial, id⟩
    | infinity sign' => exact ⟨trivial, id⟩
    | _ => exact absurd ⟨rfl, rfl⟩ h
  | finite sign mantissa exponent hpos =>
    cases v with
    | notANumber => exact ⟨trivial, id⟩
    | infinity sign' => exact ⟨trivial, id⟩
    | _ => exact absurd ⟨rfl, rfl⟩ h

/-! ## The comparison -/

/-- The tolerance is `2 ^ 52 * 2 ^ -104`. -/
theorem unpack_tolerance : Value.tolerance.toModel.unpack =
    .finite .positive (twoTo 52) (-104) (twoTo_pos 52) := by
  rfl

/-- What is put together as a float is compared with the tolerance by its exponent. -/
theorem lt_tolerance_iff {u : UnpackedFloat} (h : IsNormalized u) :
    ((Float.Model.pack (Float.Model.pack u).unpack.abs).unpack.lt
      Value.tolerance.toModel.unpack) = true ↔ IsSmall u := by
  cases u with
  | notANumber => exact iff_of_false (by decide) id
  | infinity sign => cases sign <;> exact iff_of_false (by decide) id
  | zero sign => cases sign <;> exact iff_of_true (by decide) trivial
  | finite sign mantissa exponent hpos =>
    have habs : IsNormalized (.finite .positive mantissa exponent hpos) := h
    rw [isSmall_finite_iff]
    rcases le_or_gt exponent 971 with hexponent | hexponent
    · have hparts : (Float.Model.pack (.finite sign mantissa exponent hpos)).unpack =
          .finite sign mantissa exponent hpos := unpack_pack_finite h hexponent
      have hparts' : (Float.Model.pack (.finite .positive mantissa exponent hpos)).unpack =
          .finite .positive mantissa exponent hpos := unpack_pack_finite habs hexponent
      have habsolute : (UnpackedFloat.finite sign mantissa exponent hpos).abs =
          .finite .positive mantissa exponent hpos := rfl
      rw [hparts, habsolute, hparts', unpack_tolerance]
      show (some ((compare exponent (-104)).then (compare mantissa (twoTo 52))) == some .lt) = true
        ↔ _
      rw [beq_iff_eq, Option.some.injEq, Ordering.then_eq_lt, Int.compare_eq_lt,
        Int.compare_eq_eq, Nat.compare_eq_lt]
      obtain ⟨-, -, hlow⟩ := habs
      omega
    · have hpack := @pack_finite_of_large sign mantissa exponent hpos hexponent
      have hinfinite : (Float.Model.pack (.finite sign mantissa exponent hpos)).unpack =
          (Float.Model.pack (.infinity sign)).unpack := congrArg (unpack Format.binary64) hpack
      rw [hinfinite]
      refine iff_of_false ?_ (by omega)
      cases sign <;> decide

/-- Floats are near exactly if they are finite and their exact difference is less than the bound. -/
theorem near_iff {x y : Float} : Value.near x y = true ↔
    finiteFloat x = true ∧ finiteFloat y = true ∧ |exactNumber x - exactNumber y| < reach := by
  have hnear : Value.near x y = true ↔
      ((Float.Model.pack (Float.Model.pack (UnpackedFloat.sub Format.binary64 x.toModel.unpack
        y.toModel.unpack)).unpack.abs).unpack.lt Value.tolerance.toModel.unpack) = true := by
    rw [Value.near, decide_eq_true_iff]
    exact decide_eq_true_iff
  have hx := isNormalized_unpack x.toModel
  have hy := isNormalized_unpack y.toModel
  rw [hnear, finiteFloat_eq, finiteFloat_eq, exactNumber_eq, exactNumber_eq]
  by_cases hfinite : x.toModel.unpack.isFinite = true ∧ y.toModel.unpack.isFinite = true
  · obtain ⟨hnormalized, hsmall⟩ := isSmall_sub hx hy hfinite.1 hfinite.2
    rw [lt_tolerance_iff hnormalized, hsmall]
    exact ⟨fun h => ⟨hfinite.1, hfinite.2, h⟩, fun h => h.2.2⟩
  · obtain ⟨hnormalized, hlarge⟩ := not_isSmall_sub hfinite
    rw [lt_tolerance_iff hnormalized]
    exact iff_of_false hlarge fun h => hfinite ⟨h.1, h.2.1⟩

end EntitySql
