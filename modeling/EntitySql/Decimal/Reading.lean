import EntitySql.Decimal.Power

/-!
# Numbers read from text

Text columns and caller's texts may hold numbers. A whole number has an
optional sign and ASCII digits; a float has in addition an optional point and
power of ten, or is the name of an infinity or of a NaN. A decimal is rounded
once, to the nearest float; beyond the range of floats it is an infinity.

- `readNat?`, `readInt?`: whole numbers.
- `readFloat?`: floats.
-/

namespace EntitySql

/-- The value of an ASCII digit. -/
def digitValue (c : Char) : Nat := c.toNat - '0'.toNat

/-- A digit added at the right end of a number. -/
def pushDigit (n : Nat) (c : Char) : Nat := 10 * n + digitValue c

/-- The number that digits denote. -/
def ofDigits (cs : List Char) : Nat := cs.foldl pushDigit 0

/-- A nonempty row of digits. -/
def readDigits? (cs : List Char) : Option Nat :=
  if !cs.isEmpty && cs.all Char.isDigit then some (ofDigits cs) else none

/-- An optional plus sign and digits. -/
def readNat? : List Char → Option Nat
  | '+' :: cs => readDigits? cs
  | cs => readDigits? cs

/-- An optional sign and digits. -/
def readInt? : List Char → Option Int
  | '-' :: cs => (readDigits? cs).map fun n => -(n : Int)
  | cs => (readNat? cs).map fun n => (n : Int)

/-- A whole number within the range of a signed 64-bit word. -/
def readInt64? (cs : List Char) : Option Int64 := do
  let n ← readInt? cs
  if FitsSigned n then some (Int64.ofInt n) else none

/-- The float nearest to `digits * 10 ^ exponent`, decided without large powers of ten
where the number is out of the range of floats. -/
def nearestFloat (digits : Nat) (exponent : Int) : Float :=
  let size := ((Nat.toDigits 10 digits).length : Int) + exponent
  if digits = 0 ∨ size < -400 then Float.ofScientific 0 false 0
  else if 400 < size then Float.ofScientific 1 false 400
  else Float.ofScientific digits (decide (exponent < 0)) exponent.natAbs

/-- A power of ten after its letter: an optional sign and digits. -/
def readExponent? : List Char → Option Int
  | [] => some 0
  | c :: cs => if c = 'e' ∨ c = 'E' then readInt? cs else none

/-- The name of a float that has no digits, in small letters. -/
def namedFloat? (cs : List Char) : Option Float :=
  if cs = "inf".toList ∨ cs = "infinity".toList then some (Float.ofScientific 1 false 400)
  else if cs = "nan".toList then some (Float.ofScientific 0 false 0 / Float.ofScientific 0 false 0)
  else none

/-- A float without a sign. -/
def readMagnitude? (cs : List Char) : Option Float :=
  let whole := cs.takeWhile Char.isDigit
  let rest := cs.dropWhile Char.isDigit
  let (fraction, rest) := match rest with
    | '.' :: more => (more.takeWhile Char.isDigit, more.dropWhile Char.isDigit)
    | _ => ([], rest)
  if whole.isEmpty && fraction.isEmpty then namedFloat? (cs.map Char.toLower)
  else do
    let exponent ← readExponent? rest
    some (nearestFloat (ofDigits (whole ++ fraction)) (exponent - fraction.length))

/-- A float: an optional sign, and digits with an optional point and power of ten, or a name. -/
def readFloat? : List Char → Option Float
  | '-' :: cs => (readMagnitude? cs).map Float.neg
  | '+' :: cs => readMagnitude? cs
  | cs => readMagnitude? cs

end EntitySql
