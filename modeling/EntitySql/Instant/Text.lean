import EntitySql.Decimal.Reading
import EntitySql.Instant.Basic
import EntitySql.Text.Blank

/-!
# Instants as text

Instants are stored as RFC 3339 text of universal time with three places of a
second. Reading is more generous: any offset from universal time, any number
of places, and, for text that databases write themselves, a looser form with
neither letter nor offset.

- `Instant.text`: the stored text.
- `Instant.ofRfc3339?`: RFC 3339 text with an offset.
- `Instant.ofPlain?`: `year-month-day hour:minute:second`, taken as universal time.
- `Instant.ofText?`: either.
-/

namespace EntitySql.Instant

/-! ## Writing -/

/-- A whole number with at least the given number of digits. -/
def padded (width n : Nat) : List Char :=
  let ds := Nat.toDigits 10 n
  List.replicate (width - ds.length) '0' ++ ds

/-- Four digits from year 0 to 9999; other years have a sign and at least four digits. -/
def yearText (year : Int) : List Char :=
  if 0 ≤ year ∧ year ≤ 9999 then padded 4 year.toNat
  else (if year < 0 then '-' else '+') :: padded 4 year.natAbs

/-- The stored text of an instant: universal time, with the milliseconds cut off. -/
def chars (t : Instant) : List Char :=
  let date := Date.ofDays (t.seconds / 86400)
  let ofDay := (t.seconds % 86400).toNat
  let second := ofDay % 60 + t.nanos / 1000000000
  yearText date.year ++ '-' :: padded 2 date.month ++ '-' :: padded 2 date.day ++
    'T' :: padded 2 (ofDay / 3600) ++ ':' :: padded 2 (ofDay / 60 % 60) ++
    ':' :: padded 2 second ++ '.' :: padded 3 (t.nanos % 1000000000 / 1000000) ++ ['Z']

/-- The stored text of an instant. -/
def text (t : Instant) : String := String.ofList t.chars

/-! ## Reading -/

/-- A date and a time of day as they are written. -/
structure Reading where
  date : Date
  hour : Nat
  minute : Nat
  second : Nat
  nanos : Nat
deriving DecidableEq, Repr

/-- The instant that a date and a time of day denote at the given offset from universal time,
in seconds. Second 60 is a leap second, in whatever minute. -/
def Reading.toInstant? (r : Reading) (offset : Int) : Option Instant :=
  if r.date.isValid && r.hour < 24 && r.minute < 60 && r.second ≤ 60 &&
      minYear ≤ r.date.year && r.date.year ≤ maxYear then
    let second := min r.second 59
    let seconds := 86400 * r.date.toDays + (3600 * r.hour + 60 * r.minute + second : Nat)
    let nanos := if r.second = 60 then r.nanos + 1000000000 else r.nanos
    some ⟨seconds - offset, nanos⟩
  else none

/-- A number of at least `least` digits at the front of a text; no more than `most` are taken. -/
def takeNumber (least most : Nat) (cs : List Char) : Option (Nat × List Char) :=
  let ds := (cs.takeWhile Char.isDigit).take most
  if ds.length < least ∨ ds.isEmpty then none else some (ofDigits ds, cs.drop ds.length)

/-- The text after a given character. -/
def expect (c : Char) : List Char → Option (List Char)
  | d :: cs => if d = c then some cs else none
  | [] => none

/-- Digits after a point as nanoseconds; those after the ninth are passed over. -/
def takeNanos (cs : List Char) : Option (Nat × List Char) :=
  let ds := cs.takeWhile Char.isDigit
  if ds.isEmpty then none
  else
    let kept := ds.take 9
    some (ofDigits kept * tenTo (9 - kept.length), cs.dropWhile Char.isDigit)

/-- An optional fraction of a second. -/
def takeFraction : List Char → Option (Nat × List Char)
  | '.' :: cs => takeNanos cs
  | cs => some (0, cs)

/-- An offset from universal time in seconds: `Z`, or a sign, hours and minutes. -/
def takeOffset : List Char → Option (Int × List Char)
  | [] => none
  | c :: cs => do
    if c = 'Z' ∨ c = 'z' then some (0, cs)
    else
      -- the true minus sign is as good as the hyphen
      let sign : Int ← if c = '+' then some 1 else if c = '-' ∨ c = '−' then some (-1) else none
      let (hours, cs) ← takeNumber 2 2 cs
      let cs ← expect ':' cs
      let (minutes, cs) ← takeNumber 2 2 cs
      if hours < 24 ∧ minutes < 60 then
        some (sign * ((3600 * hours + 60 * minutes : Nat) : Int), cs)
      else none

/-- RFC 3339 text: all fields in full width, a `T` or one space between date and time, and an
offset. -/
def ofRfc3339? (cs : List Char) : Option Instant := do
  let (year, cs) ← takeNumber 4 4 cs
  let cs ← expect '-' cs
  let (month, cs) ← takeNumber 2 2 cs
  let cs ← expect '-' cs
  let (day, cs) ← takeNumber 2 2 cs
  let cs ← match cs with
    | c :: rest => if c = 'T' ∨ c = 't' ∨ c = ' ' then some rest else none
    | [] => none
  let (hour, cs) ← takeNumber 2 2 cs
  let cs ← expect ':' cs
  let (minute, cs) ← takeNumber 2 2 cs
  let cs ← expect ':' cs
  let (second, cs) ← takeNumber 2 2 cs
  let (nanos, cs) ← takeFraction cs
  let (offset, cs) ← takeOffset cs
  if cs.isEmpty then
    Reading.toInstant? ⟨⟨year, month, day⟩, hour, minute, second, nanos⟩ offset
  else none

/-- A field of one or two digits after any blanks. -/
def takeField (cs : List Char) : Option (Nat × List Char) := takeNumber 1 2 (Text.trimStart cs)

/-- A year after any blanks: up to four digits, or any number of digits after a sign. -/
def takeYear (cs : List Char) : Option (Int × List Char) :=
  match Text.trimStart cs with
  | '-' :: rest => (takeNumber 1 rest.length rest).map fun (n, more) => (-(n : Int), more)
  | '+' :: rest => (takeNumber 1 rest.length rest).map fun (n, more) => ((n : Int), more)
  | rest => (takeNumber 1 4 rest).map fun (n, more) => ((n : Int), more)

/-- Date and time without an offset, taken as universal time. -/
def ofPlain? (cs : List Char) : Option Instant := do
  let (year, cs) ← takeYear cs
  let cs ← expect '-' cs
  let (month, cs) ← takeField cs
  let cs ← expect '-' cs
  let (day, cs) ← takeField cs
  let (hour, cs) ← takeField cs
  let cs ← expect ':' cs
  let (minute, cs) ← takeField cs
  let cs ← expect ':' cs
  let (second, cs) ← takeField cs
  let (nanos, cs) ← takeFraction cs
  if cs.isEmpty then Reading.toInstant? ⟨⟨year, month, day⟩, hour, minute, second, nanos⟩ 0
  else none

/-- The instant that a text denotes. -/
def ofText? (s : String) : Option Instant :=
  match ofRfc3339? s.toList with
  | some t => some t
  | none => ofPlain? s.toList

end EntitySql.Instant
