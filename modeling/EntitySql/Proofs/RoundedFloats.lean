import EntitySql.Proofs.UnpackedFloats

/-!
# How floats are rounded

A number that is a mantissa times a power of two is rounded to 53 bits, a half
to the even number. Below the least exponent there is room for fewer bits, but
sums and differences of floats do not get there.

- `roundDiv_lt_iff`: what is rounded to less than an even number.
- `roundedExponent`, `roundedBits`: the exponent that a number gets, and its
  mantissa.
- `roundedBits_bounds`: the mantissa has room for these, or is one bit longer and
  a power of two.
- `round_eq`: how a number is rounded.
-/

namespace EntitySql

open Float.Model (Format totalExponent UnpackedFloat)
open Float.Model.UnpackedFloat

/-! ## Rounding to whole numbers -/

/-- A number is not rounded below a whole number that it reaches. -/
theorem le_roundDiv {number unit least : Nat} (hunit : 0 < unit) (h : least * unit ≤ number) :
    least ≤ roundDiv number unit := by
  have hbelow : least ≤ number / unit := (Nat.le_div_iff_mul_le hunit).2 h
  unfold roundDiv
  dsimp only
  split
  · exact hbelow
  split
  · omega
  split <;> omega

theorem roundDiv_le {number unit greatest : Nat} (hunit : 0 < unit)
    (h : number ≤ greatest * unit) : roundDiv number unit ≤ greatest := by
  have hsplit : unit * (number / unit) + number % unit = number := Nat.div_add_mod _ _
  have hbelow : number / unit ≤ greatest :=
    Nat.div_le_of_le_mul (by rwa [Nat.mul_comm] at h)
  -- the whole number is only reached if nothing is left
  have hrest : number / unit = greatest → number % unit = 0 := by
    intro heq
    rw [heq, Nat.mul_comm] at hsplit
    omega
  unfold roundDiv
  dsimp only
  split
  · exact hbelow
  · have hlt : number / unit < greatest := by
      refine Nat.lt_of_le_of_ne hbelow fun heq => ?_
      have hzero := hrest heq
      omega
    split
    · omega
    split <;> omega

/-- A number below an even one is rounded to less if it is not near enough: a half goes up. -/
theorem roundDiv_lt_iff {number unit half : Nat} (hunit : 0 < unit)
    (h : number < 2 * half * unit) :
    roundDiv number unit < 2 * half ↔ 2 * number < (4 * half - 1) * unit := by
  have hsplit : unit * (number / unit) + number % unit = number := Nat.div_add_mod _ _
  have hrest : number % unit < unit := Nat.mod_lt _ hunit
  have hbelow : number / unit < 2 * half := (Nat.div_lt_iff_lt_mul hunit).2 h
  generalize hq : number / unit = below at *
  generalize hr : number % unit = rest at *
  by_cases hlast : below = 2 * half - 1
  · have hright : (4 * half - 1) * unit = 2 * (unit * below) + unit := by
      rw [hlast, ← Nat.mul_assoc, Nat.mul_comm 2, Nat.mul_assoc, ← Nat.mul_succ, Nat.mul_comm]
      congr 1
      omega
    rw [hright, roundDiv, hq, hr]
    split
    · omega
    split
    · omega
    split <;> omega
  · have hless : roundDiv number unit < 2 * half := by
      have hle : roundDiv number unit ≤ below + 1 := by
        refine roundDiv_le hunit ?_
        rw [← hsplit, Nat.add_mul, Nat.mul_comm]
        omega
      omega
    refine iff_of_true hless ?_
    have hright : 2 * (unit * (below + 1)) < (4 * half - 1) * unit := by
      rw [← Nat.mul_assoc, Nat.mul_comm 2, Nat.mul_assoc, Nat.mul_comm]
      exact Nat.mul_lt_mul_of_pos_right (by omega) hunit
    rw [Nat.mul_succ] at hright
    omega

/-! ## Rounding to 53 bits -/

section

variable (mantissa : Nat) (exponent : Int)

/-- The exponent that a number gets. -/
def roundedExponent : Int := max (mantissa.log2 - 52 + exponent) (-1074)

/-- The mantissa before it is rounded, in terms of the unit. -/
def wholeBits : Nat := mantissa * twoTo (exponent - roundedExponent mantissa exponent).toNat

/-- How much of it is one bit that is kept. -/
def bitUnit : Nat := twoTo (roundedExponent mantissa exponent - exponent).toNat

/-- The mantissa that a number gets; it may have a bit more than there is room for. -/
def roundedBits : Nat := roundDiv (wholeBits mantissa exponent) (bitUnit mantissa exponent)

end

theorem log2_mul_twoTo {mantissa : Nat} (hpos : 0 < mantissa) (places : Nat) :
    (mantissa * twoTo places).log2 = mantissa.log2 + places := by
  have hplaces : 0 < twoTo places := twoTo_pos places
  have hlow : 2 ^ mantissa.log2 ≤ mantissa := Nat.log2_self_le (by omega)
  have hhigh : mantissa < 2 ^ (mantissa.log2 + 1) := Nat.lt_log2_self
  refine (Nat.log2_eq_iff (Nat.mul_ne_zero (by omega) (by omega))).2 ⟨?_, ?_⟩
  · rw [Nat.pow_add]
    exact Nat.mul_le_mul_right _ hlow
  · rw [Nat.add_right_comm, Nat.pow_add]
    exact Nat.mul_lt_mul_of_pos_right hhigh hplaces

section

variable {mantissa : Nat} (hpos : 0 < mantissa) {exponent : Int} (hleast : -1074 ≤ exponent)

include hpos hleast

/-- A mantissa has 53 bits that are kept, or all of its bits are at the least exponent. -/
theorem wholeBits_bounds :
    wholeBits mantissa exponent < twoTo 53 * bitUnit mantissa exponent ∧
      (twoTo 52 * bitUnit mantissa exponent ≤ wholeBits mantissa exponent ∨
        roundedExponent mantissa exponent = -1074 ∧ bitUnit mantissa exponent = 1) := by
  have hlog := log2_mul_twoTo hpos (exponent - roundedExponent mantissa exponent).toNat
  have hnumber : wholeBits mantissa exponent ≠ 0 :=
    Nat.mul_ne_zero (by omega) (Nat.pos_iff_ne_zero.1 (twoTo_pos _))
  have hlow : 2 ^ (wholeBits mantissa exponent).log2 ≤ wholeBits mantissa exponent :=
    Nat.log2_self_le hnumber
  have hhigh : wholeBits mantissa exponent < 2 ^ ((wholeBits mantissa exponent).log2 + 1) :=
    Nat.lt_log2_self
  have hpower : ∀ k places, twoTo k * twoTo places = 2 ^ (k + places) :=
    fun k places => (Nat.pow_add 2 k places).symm
  rw [bitUnit, hpower, hpower]
  have htarget : roundedExponent mantissa exponent = max (mantissa.log2 - 52 + exponent) (-1074) :=
    rfl
  change (wholeBits mantissa exponent).log2 = _ at hlog
  generalize roundedExponent mantissa exponent = target at *
  generalize wholeBits mantissa exponent = number at *
  by_cases hfull : (mantissa.log2 : Int) - 52 + exponent < -1074
  · have hunit : (target - exponent).toNat = 0 := by omega
    rw [hunit]
    refine ⟨Nat.lt_of_lt_of_le hhigh (Nat.pow_le_pow_right (by decide) (by omega)), .inr ?_⟩
    exact ⟨by omega, rfl⟩
  · refine ⟨Nat.lt_of_lt_of_le hhigh (Nat.pow_le_pow_right (by decide) (by omega)), .inl ?_⟩
    exact Nat.le_trans (Nat.pow_le_pow_right (by decide) (by omega)) hlow

/-- The bits that are kept are 53, or one more that is a zero, or all of a number at the least
exponent. -/
theorem roundedBits_bounds :
    0 < roundedBits mantissa exponent ∧ roundedBits mantissa exponent ≤ twoTo 53 ∧
      (twoTo 52 ≤ roundedBits mantissa exponent ∨
        roundedExponent mantissa exponent = -1074 ∧ roundedBits mantissa exponent < twoTo 53) := by
  obtain ⟨hhigh, hlow⟩ := wholeBits_bounds hpos hleast
  have hunit : 0 < bitUnit mantissa exponent := twoTo_pos _
  have hle := roundDiv_le hunit (Nat.le_of_lt hhigh)
  rcases hlow with hlow | ⟨htarget, hone⟩
  · have hge := le_roundDiv hunit hlow
    exact ⟨Nat.lt_of_lt_of_le (twoTo_pos 52) hge, hle, .inl hge⟩
  · have hwhole : roundedBits mantissa exponent = wholeBits mantissa exponent := by
      rw [roundedBits, hone, roundDiv, Nat.div_one, Nat.mod_one]
      rfl
    rw [hone, Nat.mul_one] at hhigh
    rw [hwhole]
    have hnumber : 0 < wholeBits mantissa exponent := Nat.mul_pos hpos (twoTo_pos _)
    exact ⟨hnumber, Nat.le_of_lt hhigh, .inr ⟨htarget, hhigh⟩⟩

/-- How a number is rounded. A bit for which there is no room is a zero, and is dropped. -/
theorem round_eq (sign : Sign) :
    ∃ mantissa' exponent' hpos', UnpackedFloat.round Format.binary64 sign mantissa exponent =
        .finite sign mantissa' exponent' hpos' ∧
      IsNormalized (.finite sign mantissa' exponent' hpos') ∧
      exponent' = roundedExponent mantissa exponent +
        if roundedBits mantissa exponent < twoTo 53 then 0 else 1 := by
  obtain ⟨hbits, hhigh, hlow⟩ := roundedBits_bounds hpos hleast
  have hlog := log2_mul_twoTo hpos (exponent - roundedExponent mantissa exponent).toNat
  have htarget : max (mantissa.log2 + 1 + exponent - (1 + 52)) (3 - 2 ^ 10 - (1 + 52)) =
      roundedExponent mantissa exponent := by
    rw [roundedExponent]
    omega
  have hleast' : -1074 ≤ roundedExponent mantissa exponent := Int.le_max_right _ _
  -- a short mantissa is made longer, a long one is shifted
  have hround : UnpackedFloat.round Format.binary64 sign mantissa exponent =
      roundWithAccuracy Format.binary64 sign (wholeBits mantissa exponent)
        (exponent - (exponent - roundedExponent mantissa exponent).toNat) .exact := by
    have hshift : ∀ k, mantissa * twoTo k = mantissa <<< k := fun k => (Nat.shiftLeft_eq _ k).symm
    rw [wholeBits, hshift, ← htarget]
    rfl
  have hfirst := shiftToTargetExponent_eq (wholeBits mantissa exponent)
    (exponent - (exponent - roundedExponent mantissa exponent).toNat)
    (roundedExponent mantissa exponent - exponent).toNat (by
      rw [wholeBits, hlog, roundedExponent]
      omega)
  have hrounded : ExtendedMantissa.roundedMantissa
      (ExtendedMantissa.ofMantissaAndAccuracy (wholeBits mantissa exponent) .exact >>>
        (roundedExponent mantissa exponent - exponent).toNat) = roundedBits mantissa exponent :=
    roundedMantissa_eq (approximates_shiftRight _ _)
  have hexponent : exponent - ((exponent - roundedExponent mantissa exponent).toNat : Int) +
      ((roundedExponent mantissa exponent - exponent).toNat : Int) =
        roundedExponent mantissa exponent := by omega
  rw [hround, roundWithAccuracy, hfirst]
  dsimp only
  rw [hrounded, hexponent]
  generalize roundedExponent mantissa exponent = target at *
  generalize roundedBits mantissa exponent = bits at *
  rcases Nat.lt_or_eq_of_le hhigh with hfits | rfl
  · have hlog : bits.log2 < 53 := (Nat.log2_lt (by omega)).2 hfits
    rw [shiftToTargetExponent_eq bits target 0 (by omega), if_pos hfits]
    exact ⟨bits, target + (0 : Nat), hbits, dif_neg (show bits ≠ 0 by omega),
      ⟨hfits, by omega, by omega⟩, rfl⟩
  · have hlog : (twoTo 53).log2 = 53 := Nat.log2_two_pow
    rw [shiftToTargetExponent_eq _ target 1 (by omega), if_neg (Nat.lt_irrefl _)]
    exact ⟨twoTo 52, target + 1, by decide, rfl,
      ⟨by decide, by omega, .inl (Nat.le_refl _)⟩, rfl⟩

end

end EntitySql
