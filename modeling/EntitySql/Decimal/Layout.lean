import EntitySql.Decimal.Shortest

/-!
# How a decimal is laid out

Which digits are written is settled in `EntitySql.Decimal.Shortest`; here they are
put on paper. Every decision of a format is a field of one record, so that a
format is a value: where positional notation ends, which of two equally near
candidates is taken, and what is added to a whole number.

- `Layout`: the decisions of a format.
- `Layout.write`: a float in a format.
- `fixedPlaces`: a float rounded to a fixed number of places.
-/

namespace EntitySql

/-- The decisions of a format for floats. -/
structure Layout where
  /-- Which of two equally near candidates is written. -/
  tie : Tie
  /-- The least and greatest power of ten of the leading digit that are written
  positionally; all are when absent. -/
  positional : Option (Int × Int)
  /-- What follows a whole number in positional notation. -/
  wholeSuffix : String
deriving Repr

/-- The digits of a whole number, in base ten. -/
def digitsOf (n : Nat) : List Char := Nat.toDigits 10 n

/-- A whole number as text, with a sign if it is negative. -/
def intText : Int → List Char
  | .ofNat n => digitsOf n
  | .negSucc n => '-' :: digitsOf (n + 1)

namespace Decimal

/-- The power of ten of the leading digit. -/
def leading (d : Decimal) : Int := d.exponent + digitCount d.digits - 1

/-- Positional notation. -/
def positional (d : Decimal) (wholeSuffix : String) : List Char :=
  let ds := digitsOf d.digits
  if 0 ≤ d.exponent then
    ds ++ List.replicate d.exponent.toNat '0' ++ wholeSuffix.toList
  else
    let places := (-d.exponent).toNat
    if places < ds.length then
      ds.take (ds.length - places) ++ '.' :: ds.drop (ds.length - places)
    else '0' :: '.' :: List.replicate (places - ds.length) '0' ++ ds

/-- One digit, the others after a point, and a signed power of ten. -/
def scientific (d : Decimal) : List Char :=
  let fraction := match digitsOf d.digits with
    | [] => []
    | [c] => [c]
    | c :: cs => c :: '.' :: cs
  let sign := if 0 ≤ d.leading then '+' else '-'
  fraction ++ 'e' :: sign :: digitsOf d.leading.natAbs

/-- A decimal in a format. -/
def write (layout : Layout) (d : Decimal) : List Char :=
  match layout.positional with
  | none => d.positional layout.wholeSuffix
  | some (least, greatest) =>
    if d.digits = 0 ∨ (least ≤ d.leading ∧ d.leading ≤ greatest) then
      d.positional layout.wholeSuffix
    else d.scientific

end Decimal

/-- What the bits of a float denote, in a format. -/
def Layout.writeBinary (layout : Layout) : Binary → List Char
  | .nan => "NaN".toList
  | .infinite negative => (if negative then "-inf" else "inf").toList
  | .finite negative mantissa exponent =>
    let text := (shortest layout.tie mantissa exponent).write layout
    if negative then '-' :: text else text

/-- A float in a format. -/
def Layout.write (layout : Layout) (x : Float) : String :=
  String.ofList (layout.writeBinary (Binary.ofFloat x))

/-- The whole number nearest to `numerator / denominator`; a half goes to the even one. -/
def roundDiv (numerator denominator : Nat) : Nat :=
  let below := numerator / denominator
  let rest := numerator % denominator
  if 2 * rest < denominator then below
  else if denominator < 2 * rest then below + 1
  else if below % 2 = 0 then below else below + 1

/-- A float that is not negative with a fixed number of places, rounded from its exact value. -/
def fixedPlaces (places : Nat) (x : Float) : String :=
  match Binary.ofFloat x with
  | .finite _ mantissa exponent =>
    let n := roundDiv (mantissa * twoTo exponent.toNat * tenTo places) (twoTo (-exponent).toNat)
    let whole := digitsOf (n / tenTo places)
    let fraction := digitsOf (n % tenTo places)
    String.ofList (whole ++ '.' :: List.replicate (places - fraction.length) '0' ++ fraction)
  | other => String.ofList (Layout.writeBinary ⟨.even, none, ""⟩ other)

end EntitySql
