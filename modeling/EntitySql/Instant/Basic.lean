import EntitySql.Instant.Calendar

/-!
# Instants

An instant of universal time is a count of seconds since 1 January 1970 and a
part of a second in nanoseconds. A leap second is written as the second before
it with one whole second more in the nanoseconds.

- `Instant`: an instant.
- `Instant.ofMillis?`: the instant of a count of milliseconds, in the range of
  years from -262143 to 262142.
- `Instant.truncateMillis`: an instant without the part below a millisecond.
-/

namespace EntitySql

/-- An instant of universal time. -/
structure Instant where
  /-- Seconds since 1 January 1970. -/
  seconds : Int
  /-- Nanoseconds on top of them; a second more in a leap second. -/
  nanos : Nat
deriving DecidableEq, Repr

namespace Instant

/-- The first year of the range. -/
def minYear : Int := -262143

/-- The last year of the range. -/
def maxYear : Int := 262142

/-- The first second of the range. -/
def minSeconds : Int := 86400 * Date.toDays ⟨minYear, 1, 1⟩

/-- The last second of the range. -/
def maxSeconds : Int := 86400 * Date.toDays ⟨maxYear, 12, 31⟩ + 86399

/-- The instant lies in the range of years, and only the last second of a minute may be
followed by a leap second. -/
def isValid (t : Instant) : Bool :=
  minSeconds ≤ t.seconds && t.seconds ≤ maxSeconds &&
    (t.nanos < 1000000000 || (t.nanos < 2000000000 && t.seconds % 60 == 59))

/-- The instant of a count of milliseconds since 1 January 1970, if it is in range. -/
def ofMillis? (millis : Int) : Option Instant :=
  let t : Instant := ⟨millis / 1000, (millis % 1000).toNat * 1000000⟩
  if minSeconds ≤ t.seconds ∧ t.seconds ≤ maxSeconds then some t else none

/-- The instant without the part below a millisecond. -/
def truncateMillis (t : Instant) : Instant := { t with nanos := t.nanos / 1000000 * 1000000 }

end Instant

end EntitySql
