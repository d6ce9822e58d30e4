import EntitySql.Converter
import EntitySql.Proofs.Calendar
import EntitySql.Proofs.FixedWidth

/-!
# Dates that are stored and read again

Dates are stored as texts to the millisecond. An instant with a year from 0 to
9999 is read back from its text without what is below a millisecond, and has the
same text again. The text of any other year has a sign in front, which the first
way of reading does not take, and a `T` after the day, which the second does not
take: it is stored and cannot be read back. Integers count milliseconds, so that
nothing is cut off of the instants that they stand for.

- `Instant.chars_eq`: the text of an instant by its parts.
- `Instant.HasPlainYear`: instants whose years are written without a sign.
- `Instant.ofText?_text`: what is read back from the text of an instant.
- `Converter.IsDate`, `Converter.Denotes`: values that are stored as dates, and
  the instants that they stand for.
- `Converter.date_reads_back`: what is stored of a date, and what is read back of
  it.
-/

namespace EntitySql

namespace Instant

/-! ## The parts of an instant -/

/-- The date of an instant. -/
def date (t : Instant) : Date := Date.ofDays (t.seconds / 86400)

/-- The seconds of an instant's day before it. -/
def secondOfDay (t : Instant) : Nat := (t.seconds % 86400).toNat

def hour (t : Instant) : Nat := t.secondOfDay / 3600

def minute (t : Instant) : Nat := t.secondOfDay / 60 % 60

/-- The second of the minute, which is 60 in a leap second. -/
def second (t : Instant) : Nat := t.secondOfDay % 60 + t.nanos / 1000000000

/-- The millisecond of the second. -/
def millisecond (t : Instant) : Nat := t.nanos % 1000000000 / 1000000

theorem chars_eq (t : Instant) : t.chars =
    yearText t.date.year ++ '-' :: (padded 2 t.date.month ++ '-' :: (padded 2 t.date.day ++
      'T' :: (padded 2 t.hour ++ ':' :: (padded 2 t.minute ++ ':' :: (padded 2 t.second ++
      '.' :: (padded 3 t.millisecond ++ ['Z'])))))) := by
  simp only [chars, List.append_assoc, List.cons_append]
  rfl

theorem isValid_iff (t : Instant) : t.isValid = true ↔
    (minSeconds ≤ t.seconds ∧ t.seconds ≤ maxSeconds) ∧
      (t.nanos < 1000000000 ∨ t.nanos < 2000000000 ∧ t.seconds % 60 = 59) := by
  simp [isValid]

/-- The year has no more than four digits and is not negative, so that no sign is written. -/
def HasPlainYear (t : Instant) : Prop := 0 ≤ t.date.year ∧ t.date.year ≤ 9999

instance (t : Instant) : Decidable t.HasPlainYear := inferInstanceAs (Decidable (_ ∧ _))

theorem date_bounds (t : Instant) : t.date.month < 100 ∧ t.date.day < 100 := by
  have hvalid := Date.isValid_ofDays (t.seconds / 86400)
  obtain ⟨⟨hone, htwelve⟩, hday, hlast⟩ := (Date.isValid_iff _).mp hvalid
  have hmost := Date.daysInMonth_le t.date.year t.date.month
  simp only [date] at hmost ⊢
  omega

theorem time_bounds {t : Instant} (h : t.isValid = true) :
    t.hour < 24 ∧ t.minute < 60 ∧ t.second ≤ 60 ∧ t.millisecond < 1000 := by
  have := t.isValid_iff.mp h
  simp only [hour, minute, second, millisecond, secondOfDay]
  omega

/-! ## Reading what was written -/

/-- The parts of an instant denote it, up to the millisecond. -/
theorem toInstant?_parts {t : Instant} (h : t.isValid = true) (hyear : t.HasPlainYear) :
    Reading.toInstant? ⟨t.date, t.hour, t.minute, t.second, t.millisecond * 1000000⟩ 0 =
      some t.truncateMillis := by
  obtain ⟨-, hnanos⟩ := t.isValid_iff.mp h
  obtain ⟨hhour, hminute, hsecond, hmillisecond⟩ := time_bounds h
  have hdate : t.date.isValid = true := Date.isValid_ofDays _
  have hdays : t.date.toDays = t.seconds / 86400 := Date.toDays_ofDays _
  obtain ⟨hfirst, hlast⟩ := hyear
  have hrange : minYear ≤ t.date.year ∧ t.date.year ≤ maxYear := by
    simp only [minYear, maxYear]
    omega
  have hseconds : 86400 * (t.seconds / 86400) +
      ((3600 * t.hour + 60 * t.minute + min t.second 59 : Nat) : Int) - 0 = t.seconds := by
    simp only [hour, minute, second, secondOfDay]
    omega
  have hnanos : (if t.second = 60 then t.millisecond * 1000000 + 1000000000
      else t.millisecond * 1000000) = t.nanos / 1000000 * 1000000 := by
    by_cases hleap : t.second = 60
    · rw [if_pos hleap]
      simp only [second, millisecond, secondOfDay] at hleap ⊢
      omega
    · rw [if_neg hleap]
      simp only [second, millisecond, secondOfDay] at hleap ⊢
      omega
  simp only [Reading.toInstant?, hdate, hhour, hminute, hsecond, hrange, hdays, decide_true,
    Bool.and_self, if_true, hseconds, hnanos, truncateMillis]

/-- What is read is handed on. -/
theorem bind_of_eq_some {α β : Type} {x : Option α} {a : α} {f : α → Option β} (h : x = some a) :
    (x >>= f) = f a := by
  rw [h]
  rfl

theorem expect_cons (c : Char) (cs : List Char) : expect c (c :: cs) = some cs := if_pos rfl

/-- An instant with a plain year is read back from its text, up to the millisecond. -/
theorem ofRfc3339?_chars {t : Instant} (h : t.isValid = true) (hyear : t.HasPlainYear) :
    ofRfc3339? t.chars = some t.truncateMillis := by
  obtain ⟨hmonth, hday⟩ := t.date_bounds
  obtain ⟨hhour, hminute, hsecond, hmillisecond⟩ := time_bounds h
  obtain ⟨hfirst, hlast⟩ := hyear
  have hplain : yearText t.date.year = padded 4 t.date.year.toNat := if_pos ⟨hfirst, hlast⟩
  have hyear' : ∀ rest, takeNumber 4 4 (padded 4 t.date.year.toNat ++ rest) =
      some (t.date.year.toNat, rest) :=
    fun rest => takeNumber_padded rest (by decide) (by decide) (by omega)
  have hfield : ∀ {m : Nat} rest, m < 100 → takeNumber 2 2 (padded 2 m ++ rest) = some (m, rest) :=
    fun rest hm => takeNumber_padded rest (by decide) (by decide) hm
  have hfraction : takeFraction ('.' :: (padded 3 t.millisecond ++ ['Z'])) =
      some (t.millisecond * 1000000, ['Z']) :=
    takeFraction_padded (by simp) hmillisecond
  have hhour' : t.hour < 100 := by omega
  have hminute' : t.minute < 100 := by omega
  have hsecond' : t.second < 100 := by omega
  rw [chars_eq, hplain, ofRfc3339?, bind_of_eq_some (hyear' _)]
  dsimp only
  rw [bind_of_eq_some (expect_cons _ _), bind_of_eq_some (hfield _ hmonth)]
  dsimp only
  rw [bind_of_eq_some (expect_cons _ _), bind_of_eq_some (hfield _ hday)]
  dsimp only
  rw [if_pos (.inl rfl), bind_of_eq_some rfl, bind_of_eq_some (hfield _ hhour')]
  dsimp only
  rw [bind_of_eq_some (expect_cons _ _), bind_of_eq_some (hfield _ hminute')]
  dsimp only
  rw [bind_of_eq_some (expect_cons _ _), bind_of_eq_some (hfield _ hsecond')]
  dsimp only
  rw [bind_of_eq_some hfraction]
  show Reading.toInstant? ⟨⟨t.date.year.toNat, _, _⟩, _, _, _, _⟩ 0 = _
  rw [Int.toNat_of_nonneg hfirst]
  exact toInstant?_parts h ⟨hfirst, hlast⟩

/-- A year that is not plain has a sign in front. -/
theorem yearText_of_not_plain {t : Instant} (hyear : ¬ t.HasPlainYear) :
    ∃ sign, (sign = '-' ∧ t.date.year = -t.date.year.natAbs ∨
        sign = '+' ∧ t.date.year = t.date.year.natAbs) ∧
      yearText t.date.year = sign :: padded 4 t.date.year.natAbs := by
  have hsigned : ¬ (0 ≤ t.date.year ∧ t.date.year ≤ 9999) := hyear
  rw [yearText, if_neg hsigned]
  by_cases hneg : t.date.year < 0
  · exact ⟨'-', .inl ⟨rfl, by omega⟩, by rw [if_pos hneg]⟩
  · exact ⟨'+', .inr ⟨rfl, by omega⟩, by rw [if_neg hneg]⟩

/-- After the year and the day, the looser form wants a blank where the text has a `T`. -/
theorem ofPlain?_chars_none {t : Instant} (hyear : ¬ t.HasPlainYear) :
    ofPlain? t.chars = none := by
  obtain ⟨hmonth, hday⟩ := t.date_bounds
  obtain ⟨sign, hsign, htext⟩ := yearText_of_not_plain hyear
  have hdigits : ∀ c ∈ padded 4 t.date.year.natAbs, c.isDigit = true :=
    fun _ => isDigit_of_mem_padded
  have hnumber : ∀ rest, takeNumber 1 (padded 4 t.date.year.natAbs ++ '-' :: rest).length
      (padded 4 t.date.year.natAbs ++ '-' :: rest) = some (t.date.year.natAbs, '-' :: rest) := by
    intro rest
    have hleast : 1 ≤ (padded 4 t.date.year.natAbs).length := List.length_pos_iff.mpr padded_ne_nil
    have hstop : ('-' :: rest).takeWhile Char.isDigit = [] := rfl
    rw [takeNumber_digits hdigits padded_ne_nil hleast (by simp) (by rw [hstop, List.take_nil]),
      ofDigits_padded]
  have hread : ∀ rest, takeYear (sign :: (padded 4 t.date.year.natAbs ++ '-' :: rest)) =
      some (t.date.year, '-' :: rest) := by
    intro rest
    have htrim : Text.trimStart (sign :: (padded 4 t.date.year.natAbs ++ '-' :: rest)) =
        sign :: (padded 4 t.date.year.natAbs ++ '-' :: rest) := by
      rcases hsign with ⟨rfl, -⟩ | ⟨rfl, -⟩ <;> rfl
    rcases hsign with ⟨rfl, hvalue⟩ | ⟨rfl, hvalue⟩
    · simp only [takeYear, htrim, hnumber, Option.map_some, ← hvalue]
    · simp only [takeYear, htrim, hnumber, Option.map_some, ← hvalue]
  rw [chars_eq, htext, List.cons_append, ofPlain?, bind_of_eq_some (hread _)]
  dsimp only
  rw [bind_of_eq_some (expect_cons _ _), bind_of_eq_some (takeField_padded _ hmonth)]
  dsimp only
  rw [bind_of_eq_some (expect_cons _ _), bind_of_eq_some (takeField_padded _ hday)]
  rfl

theorem ofRfc3339?_chars_none {t : Instant} (hyear : ¬ t.HasPlainYear) :
    ofRfc3339? t.chars = none := by
  obtain ⟨sign, hsign, htext⟩ := yearText_of_not_plain hyear
  have hdigit : sign.isDigit = false := by
    rcases hsign with ⟨rfl, -⟩ | ⟨rfl, -⟩ <;> rfl
  have hnone : ∀ rest, takeNumber 4 4 (sign :: rest) = none := by
    intro rest
    simp [takeNumber, hdigit]
  rw [chars_eq, htext, List.cons_append, ofRfc3339?, hnone]
  rfl

/-- Exactly the instants with a plain year are read back from their texts. -/
theorem ofText?_text {t : Instant} (h : t.isValid = true) :
    ofText? t.text = if t.HasPlainYear then some t.truncateMillis else none := by
  have hchars : t.text.toList = t.chars := String.toList_ofList
  rw [ofText?, hchars]
  by_cases hyear : t.HasPlainYear
  · rw [ofRfc3339?_chars h hyear, if_pos hyear]
  · rw [ofRfc3339?_chars_none hyear, ofPlain?_chars_none hyear, if_neg hyear]

/-- The text has no part below a millisecond. -/
theorem text_truncateMillis (t : Instant) : t.truncateMillis.text = t.text := by
  have hleap : t.nanos / 1000000 * 1000000 / 1000000000 = t.nanos / 1000000000 := by omega
  have hmillis : t.nanos / 1000000 * 1000000 % 1000000000 / 1000000 =
      t.nanos % 1000000000 / 1000000 := by omega
  simp only [text, chars, truncateMillis, hleap, hmillis]

/-! ## Counts of milliseconds -/

/-- The milliseconds of an instant since 1 January 1970. -/
def millis (t : Instant) : Int := 1000 * t.seconds + (t.nanos / 1000000 : Nat)

/-- A count of milliseconds is that of its instant, which lies in no leap second and has no part
below a millisecond. -/
theorem millis_of_ofMillis? {n : Int} {t : Instant} (h : ofMillis? n = some t) :
    t.isValid = true ∧ t.nanos < 1000000000 ∧ t.millis = n ∧ t.truncateMillis = t := by
  obtain ⟨hrange, hparts⟩ := Option.ite_none_right_eq_some.mp h
  cases hparts
  have hnanos : (n % 1000).toNat * 1000000 < 1000000000 := by omega
  refine ⟨(isValid_iff _).mpr ⟨hrange, .inl hnanos⟩, hnanos, ?_, ?_⟩
  · simp only [millis]
    omega
  · simp only [truncateMillis, mk.injEq, true_and]
    omega

end Instant

namespace Converter

theorem toStored_timestamp (t : Instant) :
    toStored .date (.timestamp t) = .ok (.text t.text) := rfl

theorem toStored_date_integer (n : Int64) : toStored .date (.integer n) =
    match Instant.ofMillis? n.toInt with
    | some t => .ok (.text t.text)
    | none => .error (mismatch "timestamp" (.integer n)) := by
  simp only [toStored, toInstant?]
  cases Instant.ofMillis? n.toInt <;> rfl

theorem ofStored_date_text (s : String) : ofStored .date (.text s) =
    match Instant.ofText? s with
    | some t => .ok (.timestamp t)
    | none => .error (mismatch "timestamp" (.text s)) := by
  simp only [ofStored, toInstant?]
  cases Instant.ofText? s <;> rfl

/-- A value is a date: an instant, or a number of milliseconds that is stored as one. -/
def IsDate (v : Value) : Prop :=
  (∃ t : Instant, v = .timestamp t ∧ t.isValid = true) ∨
    ∃ (n : Int64) (stored : Value), v = .integer n ∧ toStored .date v = .ok stored

/-- The instant of a date. Numbers count whole milliseconds since 1970. -/
def Denotes (v : Value) (t : Instant) : Prop :=
  v = .timestamp t ∨ ∃ n : Int64, v = .integer n ∧ t.millis = n.toInt ∧ t.nanos < 1000000000 ∧
    t.truncateMillis = t

/-- A date is the date of an instant and is stored as its text. -/
theorem IsDate.exists_instant {v : Value} (h : IsDate v) :
    ∃ t : Instant, t.isValid = true ∧ Denotes v t ∧ toStored .date v = .ok (.text t.text) := by
  obtain ⟨t, rfl, hvalid⟩ | ⟨n, stored, rfl, hstored⟩ := h
  · exact ⟨t, hvalid, .inl rfl, toStored_timestamp t⟩
  · rw [toStored_date_integer] at hstored ⊢
    cases hmillis : Instant.ofMillis? n.toInt with
    | none =>
      rw [hmillis] at hstored
      cases hstored
    | some t =>
      obtain ⟨hvalid, hnanos, hcount, htruncate⟩ := Instant.millis_of_ofMillis? hmillis
      exact ⟨t, hvalid, .inr ⟨n, rfl, hcount, hnanos, htruncate⟩, rfl⟩

/-- Dates survive their storage to the millisecond, exactly if their years are written with four
digits and no sign. -/
theorem date_reads_back {v : Value} (h : IsDate v) :
    ∃ t : Instant, t.isValid = true ∧ Denotes v t ∧ toStored .date v = .ok (.text t.text) ∧
      (ofStored .date (.text t.text) =
        if t.HasPlainYear then .ok (.timestamp t.truncateMillis)
        else .error (mismatch "timestamp" (.text t.text))) ∧
      toStored .date (.timestamp t.truncateMillis) = .ok (.text t.text) := by
  obtain ⟨t, hvalid, hdenotes, hstored⟩ := h.exists_instant
  refine ⟨t, hvalid, hdenotes, hstored, ?_, ?_⟩
  · rw [ofStored_date_text, Instant.ofText?_text hvalid]
    by_cases hyear : t.HasPlainYear
    · simp only [hyear, if_true]
    · simp only [hyear, if_false]
  · rw [toStored_timestamp, Instant.text_truncateMillis]

/-- Half of a leap second is kept, and so is the last millisecond before 1970. -/
theorem date_reads_back_leap_second :
    toStored .date (.timestamp ⟨1483228799, 1500900000⟩) =
        .ok (.text "2016-12-31T23:59:60.500Z") ∧
      ofStored .date (.text "2016-12-31T23:59:60.500Z") =
        .ok (.timestamp ⟨1483228799, 1500000000⟩) ∧
      ∃ t : Instant, Denotes (.integer (-1)) t ∧
        toStored .date (.integer (-1)) = .ok (.text t.text) := by
  have hleap : IsDate (.timestamp ⟨1483228799, 1500900000⟩) := .inl ⟨_, rfl, by decide⟩
  have hnumber : IsDate (.integer (-1)) :=
    .inr ⟨-1, .text "1969-12-31T23:59:59.999Z", rfl, rfl⟩
  have htext : (⟨1483228799, 1500900000⟩ : Instant).text = "2016-12-31T23:59:60.500Z" := by decide
  obtain ⟨t, -, hdenotes, hstored, hread, -⟩ := date_reads_back hleap
  obtain ⟨u, -, hdenotes', hstored', -⟩ := date_reads_back hnumber
  obtain heq | ⟨n, hn, -⟩ := hdenotes
  · cases heq
    rw [htext] at hstored hread
    exact ⟨hstored, hread, u, hdenotes', hstored'⟩
  · cases hn

/-- The first instant with a year of five digits is stored, and cannot be read back. -/
theorem year_ten_thousand_is_lost :
    (⟨253402300800, 0⟩ : Instant).isValid = true ∧
      ∃ s, toStored .date (.timestamp ⟨253402300800, 0⟩) = .ok (.text s) ∧
        ¬ ∃ v, ofStored .date (.text s) = .ok v := by
  refine ⟨by decide, "+10000-01-01T00:00:00.000Z", rfl, ?_⟩
  rintro ⟨v, h⟩
  have hread : ofStored .date (.text "+10000-01-01T00:00:00.000Z") =
    .error (mismatch "timestamp" (.text "+10000-01-01T00:00:00.000Z")) := by rfl
  rw [hread] at h
  cases h

end Converter

end EntitySql
