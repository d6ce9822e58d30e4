import EntitySql.Proofs.NearFloats
import EntitySql.Proofs.SameDocuments

/-!
# Values that are the same

Values of one kind are the same if they are equal, or if they are documents that
differ in the order of members. Floats are the same as numbers that are near, so
that a value between two others may be the same as both of them, and they are
not the same.

- `Value.exactNumber?`: the exact number that a value is compared as.
- `Value.same_iff_of_float`, `Value.same_iff_of_not_float`: which values are the
  same, with floats among them or without.
- `Value.same_not_transitive`: sameness is no equivalence.
- `Value.same_near_equivalence`: how far it is one.
-/

namespace EntitySql.Value

/-- The value is a float. -/
def isFloat : Value → Bool
  | .float _ => true
  | _ => false

/-- The value is a NaN. -/
def isNaN : Value → Bool
  | .float x => x.isNaN
  | _ => false

/-- The value is an infinity. -/
def isInfinite : Value → Bool
  | .float x => x.isInf
  | _ => false

/-- The exact number that a float denotes; none for an infinity or a NaN. -/
def finiteNumber? (x : Float) : Option ℚ := if finiteFloat x then some (exactNumber x) else none

/-- The exact number that a value is compared as with floats. -/
def exactNumber? (v : Value) : Option ℚ := v.toFloat?.bind finiteNumber?

/-! ## Which values are the same -/

theorem finiteNumber?_eq_some {x : Float} {p : ℚ} :
    finiteNumber? x = some p ↔ finiteFloat x = true ∧ exactNumber x = p := by
  rw [finiteNumber?]
  by_cases hx : finiteFloat x = true <;> simp [hx]

/-- Floats that are near are compared by their exact numbers. -/
theorem near_iff_finiteNumber? {x y : Float} : near x y = true ↔
    ∃ p q, finiteNumber? x = some p ∧ finiteNumber? y = some q ∧ |p - q| < reach := by
  simp only [near_iff, finiteNumber?_eq_some]
  constructor
  · rintro ⟨hx, hy, hless⟩
    exact ⟨_, _, ⟨hx, rfl⟩, ⟨hy, rfl⟩, hless⟩
  · rintro ⟨_, _, ⟨hx, rfl⟩, ⟨hy, rfl⟩, hless⟩
    exact ⟨hx, hy, hless⟩

/-- With a float among them, values are the same if both are NaNs, or if their exact numbers are
near. -/
theorem same_iff_of_float {a b : Value} (h : (a.isFloat || b.isFloat) = true) :
    a.same b = true ↔ (a.isNaN = true ∧ b.isNaN = true) ∨
      ∃ p q, a.exactNumber? = some p ∧ b.exactNumber? = some q ∧ |p - q| < reach := by
  cases a with
  | float x =>
    cases b with
    | float y =>
      rw [same, Bool.or_eq_true, Bool.and_eq_true, near_iff_finiteNumber?]
      rfl
    | integer n =>
      rw [same, near_iff_finiteNumber?]
      simp only [isNaN, exactNumber?, toFloat?, Option.bind_some, Bool.false_eq_true, and_false,
        false_or]
      constructor
      · rintro ⟨p, q, hp, hq, hless⟩
        exact ⟨q, p, hq, hp, by rwa [abs_sub_comm]⟩
      · rintro ⟨q, p, hq, hp, hless⟩
        exact ⟨p, q, hp, hq, by rwa [abs_sub_comm]⟩
    | _ => simp [same, isNaN, exactNumber?, toFloat?]
  | integer n =>
    cases b with
    | float y =>
      rw [same, near_iff_finiteNumber?]
      simp [isNaN, exactNumber?, toFloat?]
    | _ => cases h
  | _ =>
    cases b with
    | float y => simp [same, isNaN, exactNumber?, toFloat?]
    | _ => cases h

/-- Without floats, values are the same if they are equal, or if they are documents that are the
same. -/
theorem same_iff_of_not_float {a b : Value} (ha : a.isFloat = false) (hb : b.isFloat = false) :
    a.same b = true ↔ a = b ∨ ∃ d d', a = .json d ∧ b = .json d' ∧ d.json.same d'.json = true := by
  cases a with
  | float x => cases ha
  | json d =>
    cases b with
    | float y => cases hb
    | json d' =>
      have hself : d = d' → d.json.same d'.json = true := fun heq => heq ▸ d.same_refl
      simpa [same] using hself
    | _ => simp [same]
  | _ =>
    cases b with
    | float y => cases hb
    | _ => simp [same]

/-! ## An equivalence but for floats -/

/-- A float is finite, or an infinity, or no number. -/
theorem finiteFloat_of_isInf {x : Float} (hnumber : x.isNaN = false) (hinf : x.isInf = false) :
    finiteFloat x = true := by
  have hnumber' : x.toModel.unpack.isNaN = false := hnumber
  have hinf' : x.toModel.unpack.isInf = false := hinf
  rw [finiteFloat_eq]
  cases h : x.toModel.unpack with
  | notANumber => rw [h] at hnumber'; cases hnumber'
  | infinity sign => rw [h] at hinf'; cases hinf'
  | _ => rfl

variable {a b c : Value}

theorem isFloat_of_isNaN (h : a.isNaN = true) : a.isFloat = true := by
  cases a <;> first | rfl | cases h

/-- A value is the same as itself, unless it is an infinity. -/
theorem same_self (hfinite : a.isInfinite = false) : a.same a = true := by
  cases hfloat : a.isFloat with
  | false => exact (same_iff_of_not_float hfloat hfloat).2 (.inl rfl)
  | true =>
    refine (same_iff_of_float (by rw [hfloat, Bool.true_or])).2 ?_
    cases a with
    | float x =>
      cases hnan : x.isNaN with
      | true => exact .inl ⟨hnan, hnan⟩
      | false =>
        have hx := finiteFloat_of_isInf hnan hfinite
        have hnumber : (float x).exactNumber? = some (exactNumber x) := if_pos hx
        refine .inr ⟨_, _, hnumber, hnumber, ?_⟩
        rw [sub_self, abs_zero]
        exact reach_pos
    | _ => cases hfloat

theorem same_symm (h : a.same b = true) : b.same a = true := by
  cases hfloat : a.isFloat || b.isFloat with
  | true =>
    rw [same_iff_of_float hfloat] at h
    rw [same_iff_of_float (by rwa [Bool.or_comm])]
    rcases h with ⟨hnan, hnan'⟩ | ⟨p, q, hp, hq, hless⟩
    · exact .inl ⟨hnan', hnan⟩
    · exact .inr ⟨q, p, hq, hp, by rwa [abs_sub_comm]⟩
  | false =>
    obtain ⟨hfloat, hfloat'⟩ := Bool.or_eq_false_iff.1 hfloat
    rw [same_iff_of_not_float hfloat hfloat'] at h
    rw [same_iff_of_not_float hfloat' hfloat]
    rcases h with rfl | ⟨d, d', rfl, rfl, hsame⟩
    · exact .inl rfl
    · exact .inr ⟨d', d, rfl, rfl, Document.same_symm hsame⟩

/-- Values that are the same as one value, where one of each two is a float: both are NaNs, or their
exact numbers are less than twice as far apart as numbers that are near. -/
theorem same_or_near_of_floats (hab : (a.isFloat || b.isFloat) = true)
    (hbc : (b.isFloat || c.isFloat) = true) (h : a.same b = true) (h' : b.same c = true) :
    (a.isNaN = true ∧ c.isNaN = true) ∨
      ∃ p r, a.exactNumber? = some p ∧ c.exactNumber? = some r ∧ |p - r| < 2 * reach := by
  have hnumber : ∀ {q}, b.exactNumber? = some q → b.isNaN = false := by
    intro q hq
    cases b with
    | float x =>
      have hx : finiteFloat x = true := (finiteNumber?_eq_some.1 hq).1
      rw [finiteFloat_eq] at hx
      show x.toModel.unpack.isNaN = false
      cases hparts : x.toModel.unpack with
      | notANumber => rw [hparts] at hx; cases hx
      | _ => rfl
    | _ => rfl
  rw [same_iff_of_float hab] at h
  rw [same_iff_of_float hbc] at h'
  rcases h with ⟨ha, hb⟩ | ⟨p, q, hp, hq, hless⟩
  · rcases h' with ⟨-, hc⟩ | ⟨q, r, hq, -, -⟩
    · exact .inl ⟨ha, hc⟩
    · rw [hnumber hq] at hb
      cases hb
  · rcases h' with ⟨hb, -⟩ | ⟨q', r, hq', hr, hless'⟩
    · rw [hnumber hq] at hb
      cases hb
    · obtain rfl : q = q' := Option.some.inj (hq.symm.trans hq')
      refine .inr ⟨p, r, hp, hr, ?_⟩
      calc |p - r| ≤ |p - q| + |q - r| := abs_sub_le p q r
        _ < reach + reach := add_lt_add hless hless'
        _ = 2 * reach := (two_mul reach).symm

/-- Values that are the same as one value are the same, unless that one or both of them are floats.
-/
theorem same_trans (hfloat : (b.isFloat || a.isFloat && c.isFloat) = false)
    (h : a.same b = true) (h' : b.same c = true) : a.same c = true := by
  obtain ⟨hb', hac⟩ := Bool.or_eq_false_iff.1 hfloat
  cases ha' : a.isFloat with
  | true =>
    -- what is the same as a float is no document
    have hc' : c.isFloat = false := by rwa [ha', Bool.true_and] at hac
    rcases (same_iff_of_not_float hb' hc').1 h' with rfl | ⟨d, d', rfl, rfl, -⟩
    · exact h
    · cases a <;> first | cases h | cases ha'
  | false =>
    rcases (same_iff_of_not_float ha' hb').1 h with rfl | ⟨d, d', rfl, rfl, hsame⟩
    · exact h'
    · cases c with
      | json d'' => exact Document.same_trans hsame h'
      | _ => cases h'

/-- Sameness is no equivalence: of three floats in a row, each may be near the next one, and the
first not near the last. -/
theorem same_not_transitive :
    ¬ ((∀ a : Value, a.same a = true) ∧
      (∀ a b : Value, a.same b = true → b.same a = true) ∧
      ∀ a b c : Value, a.same b = true → b.same c = true → a.same c = true) := by
  rintro ⟨-, -, htrans⟩
  have hsame := htrans (.float 0) (.float 0.00000000000000015) (.float 0.0000000000000003)
    (by decide +kernel) (by decide +kernel)
  exact absurd hsame (by decide +kernel)

/-- Sameness of values is an equivalence but for floats. A value is the same as itself, unless it is
an infinity, and it makes no difference from which of two sides values are compared. Values that
are the same as one value are the same, unless that or both of them are floats. If so they are the
same too, or they are numbers that are less than twice as far apart as numbers that are near. -/
theorem same_near_equivalence (a b c : Value) :
    (a.isInfinite = false → a.same a = true) ∧
      a.same b = b.same a ∧
      (a.same b = true → b.same c = true → a.same c = true ∨
        (b.isFloat || a.isFloat && c.isFloat) = true ∧
          ∃ p r, a.exactNumber? = some p ∧ c.exactNumber? = some r ∧ |p - r| < 2 * reach) := by
  refine ⟨same_self, Bool.eq_iff_iff.2 ⟨same_symm, same_symm⟩, fun h h' => ?_⟩
  cases hfloat : b.isFloat || a.isFloat && c.isFloat with
  | false => exact .inl (same_trans hfloat h h')
  | true =>
    have hab : (a.isFloat || b.isFloat) = true := by
      rcases Bool.or_eq_true_iff.1 hfloat with hb' | hac
      · rw [hb', Bool.or_true]
      · rw [(Bool.and_eq_true_iff.1 hac).1, Bool.true_or]
    have hbc : (b.isFloat || c.isFloat) = true := by
      rcases Bool.or_eq_true_iff.1 hfloat with hb' | hac
      · rw [hb', Bool.true_or]
      · rw [(Bool.and_eq_true_iff.1 hac).2, Bool.or_true]
    rcases same_or_near_of_floats hab hbc h h' with ⟨hnan, hnan'⟩ | hnear
    · have hac : (a.isFloat || c.isFloat) = true := by rw [isFloat_of_isNaN hnan, Bool.true_or]
      exact .inl ((same_iff_of_float hac).2 (.inl ⟨hnan, hnan'⟩))
    · exact .inr ⟨rfl, hnear⟩

/-- Two words are the same as one float, although they are not the same: the float next to both of
them is the number that they are compared as. -/
theorem same_near_equivalence_words :
    (integer 9007199254740992).same (integer 9007199254740992) = true ∧
      (integer 9007199254740992).same (float 9007199254740992) =
        (float 9007199254740992).same (integer 9007199254740992) ∧
      ∃ p r, (integer 9007199254740992).exactNumber? = some p ∧
        (integer 9007199254740993).exactNumber? = some r ∧ |p - r| < 2 * reach := by
  obtain ⟨hself, hcomm, htrans⟩ := same_near_equivalence
    (integer 9007199254740992) (float 9007199254740992) (integer 9007199254740993)
  have hnear := htrans (by decide +kernel) (by decide +kernel)
  exact ⟨hself rfl, hcomm, (hnear.resolve_left (by decide +kernel)).2⟩

end EntitySql.Value
