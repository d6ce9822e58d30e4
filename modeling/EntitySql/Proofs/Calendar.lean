import EntitySql.Instant.Calendar

/-!
# Days and dates

The date of a day is a date that the calendar has, and counting its days gives
the day again. The count respects the order of the calendar, by year, then
month, then day, and so the dates of two days stand in the order of the days.
The argument goes by years that begin in March, in which 29 February is the last
day and a month begins a fixed number of days after the year.

- `Date.marchYear`, `Date.dayOfYear`: the year of a date and the day of that year.
- `Date.exists_marchDay`: the year and the day of it that a day is.
- `Date.toDays_ofDays`, `Date.isValid_ofDays`: a day is counted back from its date.
- `Date.Before`, `Date.ofDays_before_iff`: the order of dates is that of days.
-/

namespace EntitySql.Date

/-! ## Years from March -/

/-- The year, counted from March, that a date lies in. -/
def marchYear (d : Date) : Int := if d.month ≤ 2 then d.year - 1 else d.year

/-- The days from 1 March to the first day of a month. -/
def daysToMonth (month : Nat) : Int := (153 * (((month : Int) + 9) % 12) + 2) / 5

/-- The days from 1 March of a date's year to the date. -/
def dayOfYear (d : Date) : Int := daysToMonth d.month + d.day - 1

/-- The days from 1 March of year 0 to 1 March of a year. -/
def daysToYear (year : Int) : Int := 365 * year + year / 4 - year / 100 + year / 400

/-- The days of a year. -/
def daysInYear (year : Int) : Int := if isLeapYear year then 366 else 365

theorem toDays_eq (d : Date) : d.toDays = daysToYear d.marchYear + d.dayOfYear - epochShift := by
  simp only [toDays, daysToYear, marchYear, dayOfYear, daysToMonth]
  omega

theorem isLeapYear_iff (year : Int) :
    isLeapYear year = true ↔ year % 4 = 0 ∧ (year % 100 ≠ 0 ∨ year % 400 = 0) := by
  simp [isLeapYear]

theorem daysInYear_bounds (year : Int) : 365 ≤ daysInYear year ∧ daysInYear year ≤ 366 := by
  simp only [daysInYear]
  omega

/-- A year from March ends with the 29 February of the next year, if that one has it. -/
theorem daysToYear_succ (year : Int) :
    daysToYear (year + 1) = daysToYear year + daysInYear (year + 1) := by
  simp only [daysToYear, daysInYear, isLeapYear_iff]
  split
  · omega
  · omega

theorem daysToYear_mono {year year' : Int} (h : year ≤ year') :
    daysToYear year ≤ daysToYear year' := by
  simp only [daysToYear]
  omega

theorem daysInMonth_february (year : Int) : daysInYear year = daysInMonth year 2 + 337 := by
  simp only [daysInYear, daysInMonth, if_true]
  split
  · rfl
  · rfl

theorem daysInMonth_le (year : Int) (month : Nat) : daysInMonth year month ≤ 31 := by
  unfold daysInMonth
  split
  · split <;> decide
  · split <;> decide

/-- Every month but February ends where the next one begins. -/
theorem daysToMonth_succ (year : Int) (month : Nat) (hone : 1 ≤ month) (htwelve : month ≤ 12)
    (hfeb : month ≠ 2) :
    daysToMonth (month + 1) = daysToMonth month + daysInMonth year month := by
  have : month = 1 ∨ month = 3 ∨ month = 4 ∨ month = 5 ∨ month = 6 ∨ month = 7 ∨ month = 8 ∨
      month = 9 ∨ month = 10 ∨ month = 11 ∨ month = 12 := by omega
  rcases this with rfl | rfl | rfl | rfl | rfl | rfl | rfl | rfl | rfl | rfl | rfl <;> rfl

/-! ## Dates within their years -/

theorem isValid_iff (d : Date) : d.isValid = true ↔
    (1 ≤ d.month ∧ d.month ≤ 12) ∧ 1 ≤ d.day ∧ d.day ≤ daysInMonth d.year d.month := by
  simp only [isValid, Bool.and_eq_true, decide_eq_true_eq, and_assoc]

/-- Every date of the calendar lies within its year. -/
theorem dayOfYear_bounds {d : Date} (h : d.isValid = true) :
    0 ≤ d.dayOfYear ∧ d.dayOfYear < daysInYear (d.marchYear + 1) := by
  obtain ⟨⟨hone, htwelve⟩, hday, hlast⟩ := d.isValid_iff.mp h
  by_cases hfeb : d.month = 2
  · have hyear : d.marchYear + 1 = d.year := by simp [marchYear, hfeb]
    have hmonth := daysInMonth_february d.year
    rw [hfeb] at hlast
    simp only [hyear, dayOfYear, hfeb, daysToMonth]
    omega
  · have hmonth := daysToMonth_succ d.year d.month hone htwelve hfeb
    have hyear := daysInYear_bounds (d.marchYear + 1)
    simp only [dayOfYear, daysToMonth] at hmonth ⊢
    omega

/-! ## The order of dates -/

/-- The order of the calendar: by year, then month, then day. -/
def Before (d d' : Date) : Prop :=
  d.year < d'.year ∨ d.year = d'.year ∧
    (d.month < d'.month ∨ d.month = d'.month ∧ d.day < d'.day)

theorem before_or_eq_or_before (d d' : Date) : d.Before d' ∨ d = d' ∨ d'.Before d := by
  cases d
  cases d'
  simp only [Before, mk.injEq]
  omega

/-- The count of days respects the order of dates. -/
theorem toDays_lt_of_before {d d' : Date} (h : d.isValid = true) (h' : d'.isValid = true)
    (hbefore : d.Before d') : d.toDays < d'.toDays := by
  have hbounds := dayOfYear_bounds h
  have hbounds' := dayOfYear_bounds h'
  rw [toDays_eq, toDays_eq]
  -- January and February are the end of the year before, so the years may agree where the
  -- years of the dates do not
  by_cases hyear : d.marchYear < d'.marchYear
  · have hnext := daysToYear_succ d.marchYear
    have hlater := daysToYear_mono (Int.add_one_le_of_lt hyear)
    omega
  · obtain ⟨⟨hone, htwelve⟩, hday, hlast⟩ := d.isValid_iff.mp h
    obtain ⟨⟨hone', htwelve'⟩, hday', -⟩ := d'.isValid_iff.mp h'
    have heq : d.marchYear = d'.marchYear := by
      simp only [Before, marchYear] at hbefore hyear ⊢
      omega
    have hlt : d.dayOfYear < d'.dayOfYear := by
      simp only [Before, marchYear, dayOfYear] at hbefore heq ⊢
      by_cases hmonth : d.month = d'.month
      · rw [hmonth]
        omega
      · have hend := daysToMonth_succ d.year d.month hone htwelve (by omega)
        simp only [daysToMonth] at hend ⊢
        omega
    rw [heq]
    omega

/-! ## The date of a day -/

/-- A day is a day of some year, both counted from March, and its date is read off the two. -/
theorem exists_marchDay (days : Int) : ∃ year dayOfYear : Int,
    days + epochShift = daysToYear year + dayOfYear ∧
      0 ≤ dayOfYear ∧ dayOfYear < daysInYear (year + 1) ∧
      ofDays days =
        let month := (5 * dayOfYear + 2) / 153
        { year := if month < 10 then year else year + 1
          month := (if month < 10 then month + 3 else month - 9).toNat
          day := (dayOfYear - (153 * month + 2) / 5 + 1).toNat } := by
  let n := days + epochShift
  let era := n / 146097
  let inEra := n % 146097
  let century := min (inEra / 36524) 3
  let inCentury := inEra - 36524 * century
  let leapCycle := inCentury / 1461
  let inCycle := inCentury % 1461
  let yearOfCycle := min (inCycle / 365) 3
  have hn : days + epochShift = n := rfl
  have hera : era = n / 146097 := rfl
  have hinEra : inEra = n % 146097 := rfl
  have hcentury : century = min (inEra / 36524) 3 := rfl
  have hinCentury : inCentury = inEra - 36524 * century := rfl
  have hleapCycle : leapCycle = inCentury / 1461 := rfl
  have hinCycle : inCycle = inCentury % 1461 := rfl
  have hyearOfCycle : yearOfCycle = min (inCycle / 365) 3 := rfl
  refine ⟨400 * era + 100 * century + 4 * leapCycle + yearOfCycle, inCycle - 365 * yearOfCycle,
    ?days, ?nonneg, ?within, rfl⟩
  all_goals
    clear_value yearOfCycle inCycle leapCycle inCentury century inEra era n
    have hcenturies : 0 ≤ century ∧ century ≤ 3 := by omega
    have hcycles : 0 ≤ leapCycle ∧ leapCycle ≤ 24 := by omega
    have hyears : 0 ≤ yearOfCycle ∧ yearOfCycle ≤ 3 := by omega
  case days =>
    have h4 : (400 * era + 100 * century + 4 * leapCycle + yearOfCycle) / 4 =
      100 * era + 25 * century + leapCycle := by omega
    have h100 : (400 * era + 100 * century + 4 * leapCycle + yearOfCycle) / 100 =
      4 * era + century := by omega
    have h400 : (400 * era + 100 * century + 4 * leapCycle + yearOfCycle) / 400 = era := by omega
    simp only [daysToYear, h4, h100, h400]
    omega
  case nonneg => omega
  case within =>
    -- only the last year of a cycle has the day more, and of the last cycles of a century
    -- only that of the last century
    simp only [daysInYear, isLeapYear_iff]
    split
    · omega
    · by_cases hlast : yearOfCycle = 3
      · subst hlast
        omega
      · omega

/-- A day is counted back from its date. -/
theorem toDays_ofDays (days : Int) : (ofDays days).toDays = days := by
  obtain ⟨year, dayOfYear, hdays, hnonneg, hlt, hof⟩ := exists_marchDay days
  have hlength := daysInYear_bounds (year + 1)
  generalize hmonth : (5 * dayOfYear + 2) / 153 = month at hof
  have hrange : 0 ≤ month ∧ month ≤ 11 := by omega
  have hparts : (ofDays days).marchYear = year ∧ (ofDays days).dayOfYear = dayOfYear := by
    by_cases hspring : month < 10
    · have hshift : (((month + 3).toNat : Int) + 9) % 12 = month := by omega
      simp only [hof, hspring, if_true, marchYear, Date.dayOfYear, daysToMonth, hshift]
      omega
    · have hshift : (((month - 9).toNat : Int) + 9) % 12 = month := by omega
      simp only [hof, hspring, if_false, marchYear, Date.dayOfYear, daysToMonth, hshift]
      omega
  rw [toDays_eq, hparts.1, hparts.2]
  omega

/-- The date of a day is a date that the calendar has. -/
theorem isValid_ofDays (days : Int) : (ofDays days).isValid = true := by
  obtain ⟨year, dayOfYear, -, hnonneg, hlt, hof⟩ := exists_marchDay days
  have hlength := daysInYear_bounds (year + 1)
  generalize hmonth : (5 * dayOfYear + 2) / 153 = month at hof
  have hrange : 0 ≤ month ∧ month ≤ 11 := by omega
  rw [isValid_iff]
  by_cases hspring : month < 10
  · have hend := daysToMonth_succ year (month + 3).toNat (by omega) (by omega) (by omega)
    have hshift : (((month + 3).toNat : Int) + 9) % 12 = month := by omega
    have hshift' : (((month + 3).toNat + 1 : Nat) + 9 : Int) % 12 = month + 1 := by omega
    simp only [daysToMonth, hshift, hshift'] at hend
    simp only [hof, hspring, if_true]
    omega
  · simp only [hof, hspring, if_false]
    by_cases hlast : month = 11
    · have hfeb := daysInMonth_february (year + 1)
      subst hlast
      simp only [Int.reduceSub, Int.reduceToNat]
      omega
    · have hjanuary : month = 10 := by omega
      have hlength : daysInMonth (year + 1) 1 = 31 := rfl
      subst hjanuary
      simp only [Int.reduceSub, Int.reduceToNat]
      omega

/-- The dates of two days stand in the order of the days. -/
theorem ofDays_before_iff (days days' : Int) :
    (ofDays days).Before (ofDays days') ↔ days < days' := by
  have hmono {m n : Int} (h : (ofDays m).Before (ofDays n)) : m < n := by
    simpa only [toDays_ofDays] using toDays_lt_of_before (isValid_ofDays m) (isValid_ofDays n) h
  constructor
  · exact hmono
  · intro hlt
    rcases before_or_eq_or_before (ofDays days) (ofDays days') with h | h | h
    · exact h
    · have heq := congrArg toDays h
      simp only [toDays_ofDays] at heq
      omega
    · have := hmono h
      omega

end EntitySql.Date
