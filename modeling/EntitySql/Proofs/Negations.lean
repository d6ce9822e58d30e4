import EntitySql.Proofs.Complements

/-!
# Negation and the negated operators

A filter can be turned round in two ways: with `not` around it, or with the
negated form of its operator. `not` is the connective of SQL, which leaves a
condition unknown if it was unknown; the negated operators are tests of their
own, which count NULL among the values that differ. So the two ways part on the
rows of which a filter is undecided, and there only: a field that may hold NULL
does hold it, and is tested for nothing but other values.

- `Filter.IsUndecided`: such a filter and such a row.
- `Truth.Opposed`, `Filter.Opposes.truth_opposed`: the negated operator is the
  negation of the filter, or else the filter is unknown.
- `Filter.negation_selects_iff`: the rows that the two ways select.
-/

namespace EntitySql

/-! ## Undecided filters -/

/-- The field may hold NULL, and holds it in the row. -/
def Entity.HoldsNull (e : Entity) (names : EntityNames) (row : Row) (key : String) : Prop :=
  ∃ f column, Condition.lookUp e names key = .ok (f, column) ∧ f.allowNull = true ∧
    (row column).isNull = true

/-- The filter tests a field that holds NULL, as it may, and tests it for other values only. An
empty list decides the filter. -/
def Filter.IsUndecided (e : Entity) (names : EntityNames) (row : Row) : Filter → Prop
  | .compare key _ v => v.isNull = false ∧ e.HoldsNull names row key
  | .among key _ vs => (vs ≠ [] ∧ vs.any Value.isNull = false) ∧ e.HoldsNull names row key
  | .matching key _ _ => e.HoldsNull names row key
  | _ => False

/-- A field that was looked up holds NULL if it may and its cell is NULL. -/
theorem Entity.holdsNull_iff {e : Entity} {names : EntityNames} {row : Row} {key column : String}
    {f : Field} (h : Condition.lookUp e names key = .ok (f, column)) :
    e.HoldsNull names row key ↔ f.allowNull = true ∧ (row column).isNull = true := by
  constructor
  · rintro ⟨f', column', h', hallow, hnull⟩
    cases h.symm.trans h'
    exact ⟨hallow, hnull⟩
  · rintro ⟨hallow, hnull⟩
    exact ⟨f, column, h, hallow, hnull⟩

/-- Among the stored values of a list is NULL if NULL is in the list. -/
theorem Condition.any_isNull_stored {c : Converter} :
    ∀ {vs : List Value} {hasNull : Bool} {ws : List Value},
      Condition.storedList c vs = .ok (hasNull, ws) →
        (vs.map c.stored).any Value.isNull = vs.any Value.isNull
  | [], _, _, _ => rfl
  | v :: vs, hasNull, ws, h => by
    simp only [Condition.storedList, bind_eq_ok] at h
    obtain ⟨w, hw, ⟨restNull, rest⟩, hrest, -⟩ := h
    rw [List.map_cons, List.any_cons, List.any_cons, Condition.any_isNull_stored hrest,
      Converter.stored_of_toStored hw, Converter.isNull_of_toStored hw]

/-! ## The operators -/

/-- A test and its negated form are opposite, except where the test is undecided: there it is
unknown, and the negated form is true. -/
structure Truth.Opposed (undecided : Prop) (test negated : Truth) : Prop where
  opposite : ¬ undecided → negated = test.not
  parts : undecided → test = .unknown ∧ negated = .yes

namespace Engine

variable {g : Engine} {allowNull : Bool} {cell : Value}

/-- Equality and inequality part on a cell with NULL that counts as different. -/
theorem compares_opposed (hg : g.NegatesEquality) {v : Value} :
    Truth.Opposed (v.isNull = false ∧ allowNull = true ∧ cell.isNull = true)
      (g.compares allowNull .eq cell v) (g.compares allowNull .ne cell v) where
  opposite h := by
    show (if v.isNull then _ else _) = (g.equals cell v).not
    rw [equals]
    cases hv : v.isNull with
    | true => exact (Truth.not_ofBool _).symm
    | false =>
      have hcell : (allowNull && cell.isNull) = false := by
        simpa [hv] using h
      cases hnull : cell.isNull with
      | true =>
        -- the cell must not be NULL, so that both comparisons are unknown
        rw [hnull] at hcell
        simp [hcell, compare, hnull, Truth.not]
      | false => simp [compare, hnull, hv, hg cell v hnull hv, Truth.not_ofBool]
  parts := by
    rintro ⟨hv, hallow, hnull⟩
    constructor
    · simp [compares, equals, compare, hv, hnull]
    · simp [compares, hv, hallow, hnull]

theorem among_eq_unknown (hnull : cell.isNull = true) :
    ∀ {vs : List Value}, vs ≠ [] → vs.any Value.isNull = false → g.among cell vs = .unknown
  | v :: vs, _, hany => by
    rw [List.any_cons, Bool.or_eq_false_iff] at hany
    have hcons : g.among cell (v :: vs) = (g.equals cell v).or (g.among cell vs) := rfl
    have hv : g.equals cell v = .unknown := by simp [equals, compare, hany.1, hnull]
    rw [hcons, hv]
    by_cases hnil : vs = []
    · subst hnil
      rfl
    · rw [among_eq_unknown hnull hnil hany.2]
      rfl

/-- The list tests part on a cell with NULL, if NULL is not in the list and something is. -/
theorem among_opposed {vs : List Value} :
    Truth.Opposed
      ((vs ≠ [] ∧ vs.any Value.isNull = false) ∧ allowNull = true ∧ cell.isNull = true)
      (g.among cell vs) (g.notAmong allowNull cell vs) where
  opposite h := by
    rw [notAmong]
    split
    · next hnull =>
      -- a cell with NULL is let pass, which only an empty list allows
      simp only [Bool.and_eq_true, Bool.not_eq_true'] at hnull
      have hnil : vs = [] := by
        by_contra hne
        exact h ⟨⟨hne, hnull.2⟩, hnull.1⟩
      rw [hnil]
      rfl
    · rfl
  parts := by
    rintro ⟨⟨hne, hany⟩, hallow, hnull⟩
    refine ⟨among_eq_unknown hnull hne hany, ?_⟩
    simp only [if_true, notAmong, hallow, hnull, hany, Bool.not_false, Bool.and_self]

/-- The matches part on a cell with NULL that counts as different. -/
theorem matching_opposed {text : String} :
    Truth.Opposed (allowNull = true ∧ cell.isNull = true)
      (g.matching allowNull .contains cell text) (g.matching allowNull .notContains cell text) where
  opposite h := by
    -- both operators have the same pattern
    show (if allowNull && cell.isNull then .yes else (g.like cell _).not) =
      (g.like cell (MatchMode.pattern .notContains text)).not
    rw [if_neg (by simpa using h)]
  parts := by
    rintro ⟨hallow, hnull⟩
    constructor
    · simp [matching, like, hnull]
    · simp [matching, hallow, hnull]

end Engine

/-! ## Opposing filters -/

namespace Filter

variable {f f' : Filter} {e : Entity} {names : EntityNames} {row : Row}

/-- A filter and the one with the negated operator part exactly where the filter is undecided. -/
theorem Opposes.truth_opposed (h : f.Opposes f') {text? : Option Template}
    (hcompile : f.compile e names = .ok text?) {g : Engine} (hg : g.NegatesEquality)
    (raw : List RawPart → Truth) :
    Truth.Opposed (f.IsUndecided e names row) (f.truth g row e names raw)
      (f'.truth g row e names raw) := by
  simp only [compile, bind_eq_ok] at hcompile
  obtain ⟨c, hc, -⟩ := hcompile
  cases h with
  | compare key v =>
    obtain ⟨field, column, w, _, hlook, hw, -⟩ := Condition.ofFilter_compare_eq_ok hc
    rw [IsUndecided, Entity.holdsNull_iff hlook, truth, truth, Entity.fieldTruth_of_lookUp hlook,
      Entity.fieldTruth_of_lookUp hlook, Converter.stored_of_toStored hw,
      ← Converter.isNull_of_toStored hw]
    exact Engine.compares_opposed hg
  | among key vs =>
    obtain ⟨field, column, hlook, hlist⟩ := Condition.ofFilter_among_eq_ok hc
    have hany : (vs.map field.converter.stored).any Value.isNull = vs.any Value.isNull := by
      rcases hlist with ⟨rfl, -⟩ | ⟨-, hasNull, ws, hstored, -⟩
      · rfl
      · exact Condition.any_isNull_stored hstored
    have hnil : vs ≠ [] ↔ vs.map field.converter.stored ≠ [] := by simp
    rw [IsUndecided, Entity.holdsNull_iff hlook, truth, truth, Entity.fieldTruth_of_lookUp hlook,
      Entity.fieldTruth_of_lookUp hlook, ← hany, hnil]
    exact Engine.among_opposed
  | matching key text =>
    obtain ⟨field, column, hlook, -⟩ := Condition.ofFilter_matching_eq_ok hc
    rw [IsUndecided, Entity.holdsNull_iff hlook, truth, truth, Entity.fieldTruth_of_lookUp hlook,
      Entity.fieldTruth_of_lookUp hlook]
    exact Engine.matching_opposed

/-- A negation compiles whenever the filter does. -/
theorem compile_not_eq_ok {text? : Option Template}
    (h : (Filter.not f).compile e names = .ok text?) : ∃ t?, f.compile e names = .ok t? := by
  obtain ⟨c, hc, d, hd, -⟩ := compile_eq_ok_iff.1 h
  obtain ⟨c', hc', rfl⟩ := Condition.ofFilter_not_eq_ok hc
  obtain ⟨d', hd', rfl⟩ := Condition.resolve_not_eq_ok hd
  exact ⟨d'.simplify.template?, compile_eq_ok_iff.2 ⟨c', hc', d', hd', rfl⟩⟩

/-- A filter that compiles has a negation that compiles. -/
theorem exists_compile_not {text? : Option Template} (h : f.compile e names = .ok text?) :
    ∃ t?, (Filter.not f).compile e names = .ok t? := by
  obtain ⟨c, hc, d, hd, -⟩ := compile_eq_ok_iff.1 h
  refine ⟨(Condition.not d).simplify.template?, compile_eq_ok_iff.2 ⟨.not c, ?_, .not d, ?_, rfl⟩⟩
  · rw [Condition.ofFilter, hc, ok_bind]
  · rw [Condition.resolve, hd, ok_bind]

end Filter

/-! ## What the database selects -/

/-- A filter on a field can be negated with `not` or by its operator. Both ways compile for the same
fields and values, and they select the same rows but for those of which the filter is undecided:
these are selected by the negated operator, and not by `not`. -/
theorem Filter.negation_selects_iff {e : Entity} {names : EntityNames} {f f' : Filter}
    (h : f.Opposes f') :
    ((∃ text?, (Filter.not f).compile e names = .ok text?) ↔
        ∃ text?, f'.compile e names = .ok text?) ∧
      ∀ text? text?', (Filter.not f).compile e names = .ok text? →
        f'.compile e names = .ok text?' →
        ∃ s? s?', Template.IsReadAs names text? s? ∧ Template.IsReadAs names text?' s?' ∧
          ∀ g row, g.NegatesEquality →
            (¬ f.IsUndecided e names row →
              (Sentence.Selects g row s? ↔ Sentence.Selects g row s?')) ∧
            (f.IsUndecided e names row →
              ¬ Sentence.Selects g row s? ∧ Sentence.Selects g row s?') := by
  have hraw : (Filter.not f).IsRawFree := by
    rw [IsRawFree]
    exact h.isRawFree.1
  constructor
  · rw [← h.compiles_iff]
    constructor
    · rintro ⟨text?, hnot⟩
      exact compile_not_eq_ok hnot
    · rintro ⟨text?, hf⟩
      exact exists_compile_not hf
  · intro text? text?' hnot hf'
    obtain ⟨t?, hf⟩ := compile_not_eq_ok hnot
    obtain ⟨s?, hs, hselects⟩ := Filter.exists_sentence hraw hnot
    obtain ⟨s?', hs', hselects'⟩ := Filter.exists_sentence h.isRawFree.2 hf'
    refine ⟨s?, s?', hs, hs', fun g row hg => ?_⟩
    have hopposed : Truth.Opposed (f.IsUndecided e names row) (f.truth g row e names fun _ => .yes)
        (f'.truth g row e names fun _ => .yes) := h.truth_opposed hf hg _
    rw [hselects g row fun _ => .yes, hselects' g row fun _ => .yes, truth]
    constructor
    · intro hdecided
      rw [hopposed.opposite hdecided]
    · intro hundecided
      obtain ⟨hunknown, hyes⟩ := hopposed.parts hundecided
      rw [hunknown]
      exact ⟨by decide, hyes⟩

/-- The row of a person without a name is selected by the negated list test, and not by `not`. -/
theorem Filter.negation_selects_iff_nameless :
    ∃ t t', (Filter.not (among "name" false [.text "a"])).compile person
          (.resolve person .bare) = .ok (some t) ∧
      (among "name" true [.text "a"]).compile person (.resolve person .bare) = .ok (some t') ∧
      ∃ s? s?', Template.IsReadAs (.resolve person .bare) (some t) s? ∧
        Template.IsReadAs (.resolve person .bare) (some t') s?' ∧
        ¬ Sentence.Selects .ofSame namelessRow s? ∧ Sentence.Selects .ofSame namelessRow s?' := by
  refine ⟨_, _, rfl, rfl, ?_⟩
  obtain ⟨s?, s?', hs, hs', hselects⟩ := (@negation_selects_iff person (.resolve person .bare) _ _
    (.among "name" [.text "a"])).2 _ _ rfl rfl
  refine ⟨s?, s?', hs, hs', (hselects _ _ fun cell v _ _ => rfl).2 ?_⟩
  exact ⟨⟨List.cons_ne_nil _ _, rfl⟩, _, _, rfl, rfl, rfl⟩

/-- The row of a person without a name differs from `a` by the negated comparison, but is not
selected by `not`. -/
theorem Filter.not_leaves_out_nameless :
    ∃ t t', (Filter.not (compare "name" .eq (.text "a"))).compile person
          (.resolve person .bare) = .ok (some t) ∧
      (compare "name" .ne (.text "a")).compile person (.resolve person .bare) = .ok (some t') ∧
      t.sql .dollar = "not (name = $1)" ∧ t'.sql .dollar = "(name <> $1 or name is null)" ∧
      ∃ s? s?', Template.IsReadAs (.resolve person .bare) (some t) s? ∧
        Template.IsReadAs (.resolve person .bare) (some t') s?' ∧
        ¬ (Sentence.Selects .ofSame namelessRow s? ↔ Sentence.Selects .ofSame namelessRow s?') := by
  refine ⟨_, _, rfl, rfl, rfl, rfl, ?_⟩
  obtain ⟨s?, hs, hselects⟩ := @Filter.exists_sentence person (.resolve person .bare)
    (.not (compare "name" .eq (.text "a"))) (by simp [IsRawFree]) _ rfl
  obtain ⟨s?', hs', hselects'⟩ := @Filter.exists_sentence person (.resolve person .bare)
    (compare "name" .ne (.text "a")) (by simp [IsRawFree]) _ rfl
  refine ⟨s?, s?', hs, hs', ?_⟩
  rw [hselects _ _ fun _ => .yes, hselects' _ _ fun _ => .yes]
  decide

end EntitySql
