import EntitySql.Decimal.Power

/-!
# Floats as exact numbers

A finite float is a whole number times a power of two. Everything that is
printed about a float is decided on these two numbers in exact arithmetic;
no rounded operation takes part.

- `Binary.ofFloat`: sign, mantissa and exponent of a float, or the fact that it
  is not finite.
- `Binary.toInt?`: the whole number that a float is, if it is one.
-/

namespace EntitySql

/-- What the bits of a float denote. -/
inductive Binary where
  /-- Not a number. -/
  | nan
  /-- An infinity. -/
  | infinite (negative : Bool)
  /-- The number `± mantissa * 2 ^ exponent`. -/
  | finite (negative : Bool) (mantissa : Nat) (exponent : Int)
deriving DecidableEq, Repr

namespace Binary

/-- The number that sign, biased exponent and fraction field denote. -/
def ofFields (negative : Bool) (biased fraction : Nat) : Binary :=
  if biased = 2047 then
    if fraction = 0 then .infinite negative else .nan
  else if biased = 0 then .finite negative fraction (-1074)
  else .finite negative (twoTo 52 + fraction) ((biased : Int) - 1075)

/-- The number that a float denotes. -/
def ofFloat (x : Float) : Binary :=
  let bits := x.toBits.toNat
  ofFields (bits / twoTo 63 == 1) (bits / twoTo 52 % twoTo 11) (bits % twoTo 52)

/-- Neither an infinity nor a NaN. -/
def isFinite : Binary → Bool
  | .finite .. => true
  | _ => false

/-- The whole number that is denoted, if a whole number is. -/
def toInt? : Binary → Option Int
  | .finite negative m q =>
    let signed (n : Nat) : Int := if negative then -(n : Int) else n
    if 0 ≤ q then some (signed (m * twoTo q.toNat))
    else
      let unit := twoTo (-q).toNat
      if m % unit = 0 then some (signed (m / unit)) else none
  | _ => none

end Binary

/-- Neither an infinity nor a NaN. -/
def finiteFloat (x : Float) : Bool := (Binary.ofFloat x).isFinite

end EntitySql
