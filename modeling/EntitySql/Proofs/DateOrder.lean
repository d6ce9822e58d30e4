import EntitySql.Proofs.Complements
import EntitySql.Proofs.IntegerOperands
import EntitySql.Proofs.Sorting
import EntitySql.Proofs.StoredDates

/-!
# The order of stored dates

Dates are stored as texts, and a database that compares these texts character by
character knows nothing of time. As every part of a date is written from the
greatest to the least and in its full width, the texts of dates with years from
0 to 9999 stand in the order of time all the same, to the millisecond that they
are cut off at. So comparisons in filters and the order of rows mean time.

- `compare` of `Instant`: the order of time, leap seconds included.
- `Instant.chars_lt_iff`: the order of the texts by the parts of the dates.
- `Instant.compare_text`: the texts stand in the order of time.
- `Filter.selects_dates`, `Collation.orders_dates`: the rows that a comparison
  selects, and the order that rows are put in.
- `Converter.dates_order_like_time`: all of this, for any two dates.
-/

namespace EntitySql

namespace Instant

/-! ## The order of time -/

/-- Instants in the order of time. A leap second comes after the second that it is written with,
and before the next one. -/
instance : Ord Instant where
  compare := compareLex (compareOn Instant.seconds) (compareOn Instant.nanos)

instance : Std.TransOrd Instant :=
  inferInstanceAs (Std.TransCmp (compareLex (compareOn Instant.seconds) (compareOn Instant.nanos)))

theorem compare_eq_lt_iff {t u : Instant} : compare t u = .lt ↔
    t.seconds < u.seconds ∨ t.seconds = u.seconds ∧ t.nanos < u.nanos := by
  show Ordering.then (compare t.seconds u.seconds) (compare t.nanos u.nanos) = .lt ↔ _
  rw [Ordering.then_eq_lt, Int.compare_eq_lt, Int.compare_eq_eq, Nat.compare_eq_lt]

theorem eq_of_compare_eq {t u : Instant} (h : compare t u = .eq) : t = u := by
  cases t
  cases u
  have h : Ordering.then _ _ = .eq := h
  rw [Ordering.then_eq_eq, compareOn, Int.compare_eq_eq, compareOn, Nat.compare_eq_eq] at h
  rw [mk.injEq]
  exact h

/-- The texts of instants with plain years are compared part by part. -/
theorem chars_lt_iff {t u : Instant} (ht : t.isValid = true) (hu : u.isValid = true)
    (hyear : t.HasPlainYear) (hyear' : u.HasPlainYear) :
    t.chars < u.chars ↔
      t.date.Before u.date ∨ t.date = u.date ∧ (t.hour < u.hour ∨ t.hour = u.hour ∧
        (t.minute < u.minute ∨ t.minute = u.minute ∧ (t.second < u.second ∨ t.second = u.second ∧
          t.millisecond < u.millisecond))) := by
  have hplain : yearText t.date.year = padded 4 t.date.year.toNat := if_pos hyear
  have hplain' : yearText u.date.year = padded 4 u.date.year.toNat := if_pos hyear'
  obtain ⟨hmonth, hday⟩ := t.date_bounds
  obtain ⟨hmonth', hday'⟩ := u.date_bounds
  obtain ⟨hhour, hminute, hsecond, hmillisecond⟩ := time_bounds ht
  obtain ⟨hhour', hminute', hsecond', hmillisecond'⟩ := time_bounds hu
  obtain ⟨hfirst, hlast⟩ := hyear
  obtain ⟨hfirst', hlast'⟩ := hyear'
  have hyears : t.date.year.toNat < u.date.year.toNat ↔ t.date.year < u.date.year := by omega
  have hyears' : t.date.year.toNat = u.date.year.toNat ↔ t.date.year = u.date.year := by omega
  have hirrefl : ∀ c : Char, ¬ c < c := Char.lt_irrefl
  have hdate : t.date = u.date ↔ t.date.year = u.date.year ∧ t.date.month = u.date.month ∧
      t.date.day = u.date.day := by
    cases t.date
    cases u.date
    exact Date.mk.injEq _ _ _ _ _ _ ▸ Iff.rfl
  rw [chars_eq, chars_eq, hplain, hplain', hdate, Date.Before]
  simp (disch := omega) only [padded_append_lt_iff, List.cons_lt_cons_iff, hirrefl, false_or,
    List.not_lt_nil, true_and, and_false, or_false, hyears, hyears', and_or_left, or_assoc,
    and_assoc]

/-- Of two instants of one day, the earlier one has the lesser time of day. -/
theorem time_lt_of_secondOfDay {t u : Instant} (ht : t.isValid = true)
    (h : t.secondOfDay < u.secondOfDay ∨
      t.secondOfDay = u.secondOfDay ∧ t.nanos / 1000000 < u.nanos / 1000000) :
    t.hour < u.hour ∨ t.hour = u.hour ∧ (t.minute < u.minute ∨ t.minute = u.minute ∧
      (t.second < u.second ∨ t.second = u.second ∧ t.millisecond < u.millisecond)) := by
  obtain ⟨-, hnanos⟩ := t.isValid_iff.mp ht
  have hleap : t.nanos < 1000000000 ∨ t.nanos < 2000000000 ∧ t.secondOfDay % 60 = 59 := by
    simp only [secondOfDay]
    omega
  clear hnanos
  simp only [hour, minute, second, millisecond]
  rcases h with h | ⟨h, hmillis⟩
  · omega
  · rw [h]
    omega

/-- Of two instants, the earlier one has the lesser text. -/
theorem chars_lt_of_compare {t u : Instant} (ht : t.isValid = true) (hu : u.isValid = true)
    (hyear : t.HasPlainYear) (hyear' : u.HasPlainYear)
    (h : compare t.truncateMillis u.truncateMillis = .lt) : t.chars < u.chars := by
  rw [chars_lt_iff ht hu hyear hyear']
  have hdays : t.date.Before u.date ↔ t.seconds / 86400 < u.seconds / 86400 :=
    Date.ofDays_before_iff _ _
  rw [compare_eq_lt_iff] at h
  simp only [truncateMillis] at h
  by_cases hday : t.seconds / 86400 = u.seconds / 86400
  · refine .inr ⟨congrArg Date.ofDays hday, time_lt_of_secondOfDay ht ?_⟩
    simp only [secondOfDay]
    omega
  · exact .inl (hdays.mpr (by omega))

/-- The texts of instants with plain years stand in the order of time, to the millisecond. -/
theorem compare_text {t u : Instant} (ht : t.isValid = true) (hu : u.isValid = true)
    (hyear : t.HasPlainYear) (hyear' : u.HasPlainYear) :
    compare t.text u.text = compare t.truncateMillis u.truncateMillis := by
  have hcompare : ∀ a b : String, a < b → compare a b = .lt :=
    fun a b => compareOfLessAndEq_eq_lt.mpr
  have hlt {t u : Instant} (ht : t.isValid = true) (hu : u.isValid = true)
      (hyear : t.HasPlainYear) (hyear' : u.HasPlainYear)
      (h : compare t.truncateMillis u.truncateMillis = .lt) : compare t.text u.text = .lt := by
    have hchars : ∀ s : Instant, s.text.toList = s.chars := fun _ => String.toList_ofList
    have htexts : t.text < u.text := by
      rw [String.lt_iff, hchars, hchars]
      exact chars_lt_of_compare ht hu hyear hyear' h
    exact hcompare _ _ htexts
  cases h : compare t.truncateMillis u.truncateMillis with
  | lt => exact hlt ht hu hyear hyear' h
  | eq =>
    rw [← text_truncateMillis t, ← text_truncateMillis u, eq_of_compare_eq h]
    exact Std.ReflCmp.compare_self
  | gt =>
    exact Std.OrientedCmp.gt_of_lt (hlt hu ht hyear' hyear (Std.OrientedCmp.gt_iff_lt.mp h))

end Instant

/-! ## Databases that compare texts by their characters -/

/-- The comparison holds between values in the given order. -/
def CompareOp.accepts : CompareOp → Ordering → Bool
  | .eq, o => o.isEq
  | .ne, o => o.isNe
  | .lt, o => o.isLT
  | .lte, o => o.isLE
  | .gt, o => o.isGT
  | .gte, o => o.isGE

/-- Texts are compared character by character. -/
def Engine.ComparesTexts (g : Engine) : Prop :=
  ∀ op (a b : String), g.holds op (.text a) (.text b) = op.accepts (Ord.compare a b)

/-- Texts in the column are put in order character by character. -/
def Collation.ComparesTexts (c : Collation) (column : String) : Prop :=
  ∀ a b : String, c column (.text a) (.text b) = compare a b

theorem Engine.compares_texts {g : Engine} (hg : g.ComparesTexts) (allowNull : Bool)
    (op : CompareOp) (a b : String) :
    g.compares allowNull op (.text a) (.text b) = .ofBool (op.accepts (Ord.compare a b)) := by
  have hcompare : g.compare op (.text a) (.text b) = .ofBool (op.accepts (Ord.compare a b)) := by
    rw [← hg]
    rfl
  cases op with
  | ne =>
    have hcell : (allowNull && (Value.text a).isNull) = false := Bool.and_false _
    show (if allowNull && (Value.text a).isNull then .yes else g.compare .ne _ _) = _
    rw [hcell, if_neg Bool.false_ne_true, hcompare]
  | _ => exact hcompare

/-- A comparison of a date field is compiled to one that binds the text of the date, and holds of
the cells that hold the texts of dates for which it is true in the order of time. -/
theorem Filter.selects_dates {e : Entity} {names : EntityNames} {key column : String} {f : Field}
    (hlook : Condition.lookUp e names key = .ok (f, column)) (hdate : f.converter = .date)
    (op : CompareOp) {u : Instant} (hu : u.isValid = true) (hyear : u.HasPlainYear) :
    ∃ template s, (compare key op (.timestamp u)).compile e names = .ok (some template) ∧
      template.values = [.text u.text] ∧ Template.IsReadAs names (some template) (some s) ∧
      ∀ (g : Engine) (row : Row) (t : Instant), g.ComparesTexts → t.isValid = true →
        t.HasPlainYear → row column = .text t.text →
        (Sentence.Selects g row (some s) ↔
          op.accepts (Ord.compare t.truncateMillis u.truncateMillis) = true) := by
  have hstored : f.converter.stored (.timestamp u) = .text u.text := by
    rw [hdate]
    exact Converter.stored_of_toStored (Converter.toStored_timestamp u)
  have hasks : AsksFor key [.timestamp u] (compare key op (.timestamp u)) := .compare op rfl
  obtain ⟨template, hcompile, hvalues⟩ := hasks.exists_template hlook fun v hv => by
    obtain rfl := List.mem_singleton.mp hv
    exact ⟨.text u.text, hdate ▸ Converter.toStored_timestamp u⟩
  obtain ⟨s?, hs, hselects⟩ := Filter.exists_sentence (by simp [IsRawFree]) hcompile
  cases s? with
  | none => exact hs.elim
  | some s =>
    refine ⟨template, s, hcompile, ?_, hs, ?_⟩
    · rw [hvalues, List.map_singleton, hstored]
      rfl
    · intro g row t hg ht hyear' hrow
      rw [hselects g row fun _ => .yes, truth, Entity.fieldTruth_of_lookUp hlook, hrow, hstored,
        Engine.compares_texts hg, Instant.compare_text ht hu hyear' hyear]
      cases op.accepts (Ord.compare t.truncateMillis u.truncateMillis) <;> decide

/-- A segment of a row order on a column with the texts of dates asks for the order of time. -/
theorem Collation.orders_dates {c : Collation} {column : String} (hc : c.ComparesTexts column)
    (s : OrderSegment) (nullsSmallest : Bool) {row row' : Row} {t u : Instant}
    (ht : t.isValid = true) (hu : u.isValid = true) (hyear : t.HasPlainYear)
    (hyear' : u.HasPlainYear) (hrow : row column = .text t.text)
    (hrow' : row' column = .text u.text) :
    c.compareAt (s.term column nullsSmallest) row row' =
      if s.descending then compare u.truncateMillis t.truncateMillis
      else compare t.truncateMillis u.truncateMillis := by
  have hnulls : ∀ place, compareNulls place (row column) (row' column) = .eq := by
    intro place
    rw [hrow, hrow']
    cases place with
    | none => rfl
    | some p => cases p <;> rfl
  show Ordering.then (compareNulls _ (row column) (row' column)) _ = _
  rw [hnulls]
  show c.compareValues _ (row column) (row' column) = _
  rw [compareValues, hrow, hrow']
  show (if s.descending then fun v w => c column w v else c column) _ _ = _
  split
  · exact (hc _ _).trans (Instant.compare_text hu ht hyear' hyear)
  · exact (hc _ _).trans (Instant.compare_text ht hu hyear hyear')

/-- Two dates with plain years are stored as texts that stand, character by character, in the order
of time to the millisecond. A comparison of a date field binds such a text and selects the rows of
which it is true in this order, and a row order by a column with dates puts rows in it. -/
theorem Converter.dates_order_like_time {t u : Instant} (ht : t.isValid = true)
    (hu : u.isValid = true) (hyear : t.HasPlainYear) (hyear' : u.HasPlainYear) :
    ∃ s s' : String, toStored .date (.timestamp t) = .ok (.text s) ∧
      toStored .date (.timestamp u) = .ok (.text s') ∧
      compare s s' = compare t.truncateMillis u.truncateMillis ∧
      (∀ (e : Entity) (names : EntityNames) (key column : String) (f : Field) (op : CompareOp),
        Condition.lookUp e names key = .ok (f, column) → f.converter = .date →
        ∃ template sentence,
          (Filter.compare key op (.timestamp u)).compile e names = .ok (some template) ∧
          template.values = [.text s'] ∧
          Template.IsReadAs names (some template) (some sentence) ∧
          ∀ (g : Engine) (row : Row), g.ComparesTexts → row column = .text s →
            (Sentence.Selects g row (some sentence) ↔
              op.accepts (compare t.truncateMillis u.truncateMillis) = true)) ∧
      ∀ (c : Collation) (column : String) (segment : OrderSegment) (nullsSmallest : Bool)
        (row row' : Row), c.ComparesTexts column → row column = .text s → row' column = .text s' →
        c.compareAt (segment.term column nullsSmallest) row row' =
          if segment.descending then compare u.truncateMillis t.truncateMillis
          else compare t.truncateMillis u.truncateMillis := by
  refine ⟨t.text, u.text, toStored_timestamp t, toStored_timestamp u,
    Instant.compare_text ht hu hyear hyear', ?_, ?_⟩
  · intro e names key column f op hlook hdate
    obtain ⟨template, sentence, hcompile, hvalues, hread, hselects⟩ :=
      Filter.selects_dates hlook hdate op hu hyear'
    exact ⟨template, sentence, hcompile, hvalues, hread,
      fun g row hg hrow => hselects g row t hg ht hyear hrow⟩
  · intro c column segment nullsSmallest row row' hc hrow hrow'
    exact Collation.orders_dates hc segment nullsSmallest ht hu hyear hyear' hrow hrow'

/-- An entity with a date. -/
def event : Entity :=
  { key := "event", table := "event"
    fields := [.ofType "id" .integer, .ofType "at" .date]
    identity := ["id"] }

/-- A database that compares texts by their characters, and nothing else. -/
def Engine.ofTexts : Engine where
  holds
    | op, .text a, .text b => op.accepts (Ord.compare a b)
    | _, _, _ => false
  fits _ _ := false

/-- The leap second at the end of 2016 comes before the year 2017. -/
theorem Converter.dates_order_like_time_leap_second :
    ∃ template sentence,
      (Filter.compare "at" .lt (.timestamp ⟨1483228800, 0⟩)).compile event (.resolve event .bare) =
        .ok (some template) ∧
      template.sql .dollar = "at < $1" ∧
      template.values = [.text "2017-01-01T00:00:00.000Z"] ∧
      Template.IsReadAs (.resolve event .bare) (some template) (some sentence) ∧
      Sentence.Selects .ofTexts (fun _ => .text "2016-12-31T23:59:60.999Z") (some sentence) := by
  obtain ⟨s, s', hs, hs', -, hfilter, -⟩ :=
    @dates_order_like_time ⟨1483228799, 1999999999⟩ ⟨1483228800, 0⟩ (by decide) (by decide)
      (by decide) (by decide)
  cases hs
  cases hs'
  obtain ⟨template, sentence, hcompile, hvalues, hread, hselects⟩ :=
    hfilter event (.resolve event .bare) "at" "at" (.ofType "at" .date) .lt rfl rfl
  refine ⟨template, sentence, hcompile, ?_, hvalues, hread, ?_⟩
  · cases hcompile
    rfl
  · exact (hselects .ofTexts _ (fun _ _ _ => rfl) rfl).mpr rfl

end EntitySql
