import EntitySql.Decimal.Binary

/-!
# The fewest digits that read back

A float is written with the fewest decimal digits that still denote it: of the
decimals that round to the float, those with the fewest digits, and of these
the nearest. The interval of reals that round to the float and the decimal
grids are compared as whole numbers, so nothing here is rounded.

- `Decimal`: a whole number of digits times a power of ten.
- `Interval`: the reals that round to a float, as fractions with one denominator.
- `shortest?`: the digits of a positive float.
-/

namespace EntitySql

/-- The number `digits * 10 ^ exponent`. -/
structure Decimal where
  digits : Nat
  exponent : Int
deriving DecidableEq, Repr

/-- Which of two equally near candidates is written. -/
inductive Tie where
  /-- The larger one. -/
  | up
  /-- The one with an even last digit. -/
  | even
deriving DecidableEq, Repr

/-- A positive float as the fraction `value / denominator`, with the reals that
round to it: those from `low` to `high` over the same denominator, ends included
when `closed` says so. -/
structure Interval where
  low : Nat
  value : Nat
  high : Nat
  denominator : Nat
  closed : Bool
deriving Repr

namespace Interval

/-- The reals that round to `mantissa * 2 ^ exponent`. The neighbour below a power of two is
only half as far away as the one above, but at the smallest exponent. -/
def ofBinary (mantissa : Nat) (exponent : Int) : Interval :=
  let up := twoTo exponent.toNat
  let down := twoTo (-exponent).toNat
  let below := if mantissa = twoTo 52 ∧ exponent ≠ -1074 then 1 else 2
  { low := (4 * mantissa - below) * up
    value := 4 * mantissa * up
    high := (4 * mantissa + 2) * up
    denominator := 4 * down
    closed := mantissa % 2 = 0 }

/-- Whether `n * 10 ^ k`, given as a fraction over the denominator, rounds to the float. -/
def holds (i : Interval) (n : Nat) : Bool :=
  if i.closed then i.low ≤ n && n ≤ i.high else i.low < n && n < i.high

end Interval

/-- The interval over a denominator that makes `10 ^ k` a whole number, and that number. -/
def Interval.scaled (i : Interval) (k : Int) : Interval × Nat :=
  let down := tenTo (-k).toNat
  ({ i with low := i.low * down, value := i.value * down, high := i.high * down },
   tenTo k.toNat * i.denominator)

/-- The better of the two neighbours of the float on the grid of step `10 ^ k`, if one of
them rounds to it. -/
def onGrid? (tie : Tie) (i : Interval) (k : Int) : Option Decimal :=
  let (i, step) := i.scaled k
  let below := i.value / step
  let rest := i.value % step
  let lower : Option Decimal :=
    if i.holds (below * step) then some ⟨below, k⟩ else none
  let upper : Option Decimal :=
    if i.holds ((below + 1) * step) then some ⟨below + 1, k⟩ else none
  match lower, upper with
  | some d, some u =>
    if 2 * rest < step then some d
    else if step < 2 * rest then some u
    else match tie with
      | .up => some u
      | .even => if below % 2 = 0 then some d else some u
  | some d, none => some d
  | none, upper => upper

/-- The number of decimal digits of a whole number; one for zero. -/
def digitCount (n : Nat) : Nat := (Nat.toDigits 10 n).length

/-- The least `p` with `value / denominator < 10 ^ p`. -/
def Interval.magnitude (i : Interval) : Int :=
  if i.denominator ≤ i.value then digitCount (i.value / i.denominator)
  else
    -- `value * 10 ^ s` has one digit more than `denominator` at most; step back from there
    let s := digitCount i.denominator - digitCount i.value
    if i.denominator ≤ i.value * tenTo s then 1 - (s : Int) else -(s : Int)

/-- The first hit on the grids of `n`, `n + 1`, … digits. -/
def firstHit (tie : Tie) (i : Interval) (p : Int) : (tries : Nat) → (n : Nat) → Option Decimal
  | 0, _ => none
  | tries + 1, n =>
    match onGrid? tie i (p - n) with
    | some d => some d
    | none => firstHit tie i p tries (n + 1)

/-- Trailing zeros moved into the exponent. -/
def Decimal.stripZeros : (fuel : Nat) → Decimal → Decimal
  | 0, d => d
  | fuel + 1, d =>
    if d.digits ≠ 0 ∧ d.digits % 10 = 0 then stripZeros fuel ⟨d.digits / 10, d.exponent + 1⟩
    else d

/-- The fewest digits that read back as `mantissa * 2 ^ exponent`; seventeen always suffice. -/
def shortest (tie : Tie) (mantissa : Nat) (exponent : Int) : Decimal :=
  if mantissa = 0 then ⟨0, 0⟩
  else
    let i := Interval.ofBinary mantissa exponent
    let d := (firstHit tie i i.magnitude 17 1).getD ⟨mantissa, exponent⟩
    d.stripZeros 20

end EntitySql
