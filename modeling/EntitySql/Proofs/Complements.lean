import EntitySql.Proofs.Meaning

/-!
# Negated operators

A row is selected only if its condition is true, so a condition and its
negation can both leave a row out: a comparison with NULL and the negation of
that comparison are both unknown. The negated operators of filters are not such
negations. As long as fields that may not hold NULL do not hold it, a row that
one of two opposing filters leaves out is selected by the other.

- `Filter.Opposes`: an operator, and its negated form.
- `Engine.compares_ne_eq_yes_iff`, `Engine.notAmong_eq_yes_iff`,
  `Engine.matching_notContains_eq_yes_iff`: one for each pair of operators.
- `Filter.Opposes.truth_eq_yes_iff`: of opposing filters, one is true.
- `Template.IsReadAs`, `Sentence.Selects`: what a database reads in a text, and
  the rows that it selects.
- `Filter.selects_exactly_one`: opposing filters split the rows.
-/

namespace EntitySql

open Mark (ofText)

/-- Two filters on a field, with an operator and its negated form. -/
inductive Filter.Opposes : Filter → Filter → Prop
  | compare (key : String) (v : Value) : Opposes (.compare key .eq v) (.compare key .ne v)
  | among (key : String) (vs : List Value) : Opposes (.among key false vs) (.among key true vs)
  | matching (key text : String) :
      Opposes (.matching key .contains text) (.matching key .notContains text)

/-- Among values that are not NULL, those that differ are those that are not equal. -/
def Engine.NegatesEquality (g : Engine) : Prop :=
  ∀ cell v : Value, cell.isNull = false → v.isNull = false →
    g.holds .ne cell v = !g.holds .eq cell v

/-- Only fields that may hold NULL hold it in the row. -/
def Entity.Admits (e : Entity) (names : EntityNames) (row : Row) : Prop :=
  ∀ key f column, Condition.lookUp e names key = .ok (f, column) →
    (row column).isNull = true → f.allowNull = true

/-! ## The operators -/

namespace Truth

theorem not_ofBool (b : Bool) : (ofBool b).not = ofBool !b := by
  cases b <;> rfl

theorem ofBool_or (a b : Bool) : (ofBool a).or (ofBool b) = ofBool (a || b) := by
  cases a <;> cases b <;> rfl

theorem ofBool_not_eq_yes_iff {b : Bool} : ofBool (!b) = .yes ↔ ¬ ofBool b = .yes := by
  cases b <;> decide

end Truth

namespace Engine

variable {g : Engine} {allowNull : Bool} {cell : Value}

/-- A cell differs from a value if it does not equal it. -/
theorem compares_ne_eq_yes_iff (hg : g.NegatesEquality)
    (hcell : cell.isNull = true → allowNull = true) (v : Value) :
    g.compares allowNull .ne cell v = .yes ↔ ¬ g.compares allowNull .eq cell v = .yes := by
  show (if v.isNull then _ else _) = _ ↔ ¬ g.equals cell v = _
  rw [equals]
  cases hv : v.isNull with
  | true => exact Truth.ofBool_not_eq_yes_iff
  | false =>
    cases hnull : cell.isNull with
    | true =>
      -- only here does the negated operator need more than the negated comparison
      simp [hcell hnull, compare, hnull]
    | false => simpa [compare, hv, hnull, hg cell v hnull hv] using Truth.ofBool_not_eq_yes_iff

/-- Whether a cell that is not NULL is among some values is known. -/
theorem exists_among_eq_ofBool (hnull : cell.isNull = false) (vs : List Value) :
    ∃ b, g.among cell vs = .ofBool b := by
  induction vs with
  | nil => exact ⟨false, rfl⟩
  | cons v vs ih =>
    obtain ⟨b, hb⟩ := ih
    have hequals : ∃ a, g.equals cell v = .ofBool a := by
      rw [equals]
      cases hv : v.isNull with
      | true => exact ⟨_, rfl⟩
      | false => exact ⟨g.holds .eq cell v, by simp [compare, hnull, hv]⟩
    obtain ⟨a, ha⟩ := hequals
    refine ⟨a || b, ?_⟩
    have hcons : g.among cell (v :: vs) = (g.equals cell v).or (g.among cell vs) := rfl
    rw [hcons, ha, hb, Truth.ofBool_or]

/-- NULL is among some values if it is listed. -/
theorem among_eq_yes_iff_of_isNull (hnull : cell.isNull = true) (vs : List Value) :
    g.among cell vs = .yes ↔ vs.any Value.isNull = true := by
  induction vs with
  | nil => simp [among, Truth.any]
  | cons v vs ih =>
    have hcons : g.among cell (v :: vs) = (g.equals cell v).or (g.among cell vs) := rfl
    rw [hcons, equals, List.any_cons]
    cases hv : v.isNull with
    | true => simp [hnull, Truth.ofBool]
    | false =>
      -- the comparison with another value is unknown, and decides nothing
      have hor : ∀ t : Truth, Truth.unknown.or t = .yes ↔ t = .yes := by
        intro t
        cases t <;> decide
      simpa [compare, hnull, hor] using ih

/-- A cell is none of some values if it is not one of them. -/
theorem notAmong_eq_yes_iff (hcell : cell.isNull = true → allowNull = true) (vs : List Value) :
    g.notAmong allowNull cell vs = .yes ↔ ¬ g.among cell vs = .yes := by
  rw [notAmong]
  cases hnull : cell.isNull with
  | true =>
    have hamong := among_eq_yes_iff_of_isNull (g := g) hnull vs
    cases hany : vs.any Value.isNull with
    | true => simp [hamong.2 hany, Truth.not]
    | false => simp [hcell hnull, hamong, hany]
  | false =>
    obtain ⟨b, hb⟩ := exists_among_eq_ofBool (g := g) hnull vs
    simpa [hb, Truth.not_ofBool] using Truth.ofBool_not_eq_yes_iff

theorem matching_notContains_eq_yes_iff (hcell : cell.isNull = true → allowNull = true)
    (text : String) :
    g.matching allowNull .notContains cell text = .yes ↔
      ¬ g.matching allowNull .contains cell text = .yes := by
  -- both operators have the same pattern
  show (if allowNull && cell.isNull then .yes else (g.like cell _).not) = _ ↔
    ¬ g.like cell (MatchMode.pattern .notContains text) = _
  rw [like]
  cases hnull : cell.isNull with
  | true => simp [hcell hnull]
  | false => simpa [Truth.not_ofBool] using Truth.ofBool_not_eq_yes_iff

end Engine

/-! ## Opposing filters -/

namespace Filter

variable {e : Entity} {names : EntityNames} {f f' : Filter}

/-- Opposing filters have no text of their own. -/
theorem Opposes.isRawFree (h : f.Opposes f') : f.IsRawFree ∧ f'.IsRawFree := by
  cases h <;> simp [IsRawFree]

/-- Opposing filters fail together: what can fail is the field or one of the values. -/
theorem Opposes.compiles_iff (h : f.Opposes f') :
    (∃ text?, f.compile e names = .ok text?) ↔ ∃ text?, f'.compile e names = .ok text? := by
  cases h with
  | compare key v =>
    simp only [compile, Condition.ofFilter]
    cases Condition.lookUp e names key with
    | error d => simp [bind, Except.bind]
    | ok found =>
      obtain ⟨field, column⟩ := found
      cases hw : field.converter.toStored v with
      | error d => simp [bind, Except.bind, hw]
      | ok w =>
        -- of the comparisons, only those with an order fail for NULL
        cases hnull : w.isNull <;> cases hallow : field.allowNull <;>
          simp [bind, Except.bind, hw, Predicate.ofCompare, hnull, hallow]
  | among key vs =>
    simp only [compile, Condition.ofFilter]
    cases Condition.lookUp e names key with
    | error d => simp [bind, Except.bind]
    | ok found =>
      obtain ⟨field, column⟩ := found
      cases vs.isEmpty with
      | true => simp [bind, Except.bind]
      | false =>
        cases hlist : Condition.storedList field.converter vs <;>
          simp [bind, Except.bind, hlist]
  | matching key text =>
    simp only [compile, Condition.ofFilter]
    cases Condition.lookUp e names key <;> simp [bind, Except.bind]

/-- Of two opposing filters, exactly one is true of a row. -/
theorem Opposes.truth_eq_yes_iff (h : f.Opposes f') {text? : Option Template}
    (hcompile : f.compile e names = .ok text?) {g : Engine} {row : Row} (hg : g.NegatesEquality)
    (hrow : e.Admits names row) (raw : List RawPart → Truth) :
    f'.truth g row e names raw = .yes ↔ ¬ f.truth g row e names raw = .yes := by
  simp only [compile, bind_eq_ok] at hcompile
  obtain ⟨c, hc, -⟩ := hcompile
  -- the field that both have looked up decides what the cell may be
  cases h with
  | compare key v =>
    obtain ⟨field, column, _, _, hlook, -⟩ := Condition.ofFilter_compare_eq_ok hc
    rw [Filter.truth, Filter.truth, Entity.fieldTruth_of_lookUp hlook,
      Entity.fieldTruth_of_lookUp hlook]
    exact Engine.compares_ne_eq_yes_iff hg (hrow key field column hlook) _
  | among key vs =>
    obtain ⟨field, column, hlook, -⟩ := Condition.ofFilter_among_eq_ok hc
    rw [Filter.truth, Filter.truth, Entity.fieldTruth_of_lookUp hlook,
      Entity.fieldTruth_of_lookUp hlook]
    exact Engine.notAmong_eq_yes_iff (hrow key field column hlook) _
  | matching key text =>
    obtain ⟨field, column, hlook, -⟩ := Condition.ofFilter_matching_eq_ok hc
    rw [Filter.truth, Filter.truth, Entity.fieldTruth_of_lookUp hlook,
      Entity.fieldTruth_of_lookUp hlook]
    exact Engine.matching_notContains_eq_yes_iff (hrow key field column hlook) text

end Filter

/-! ## What the database selects -/

/-- What is compiled, as a database reads it: the text is that of marks whose columns are those
of the entity, and these are read as the sentence. Without a text there is nothing to read. -/
def Template.IsReadAs (names : EntityNames) : Option Template → Option Sentence → Prop
  | none, none => True
  | some t, some s => ∃ ms : List Mark,
      (∀ style, t.sql style = (Mark.template ms).sql style) ∧
        t.values = (Mark.template ms).values ∧ Mark.AllKnown names.Knows ms ∧
          Sentence.read? ms = some s
  | _, _ => False

/-- The row is selected: what was read is true of it, or there was nothing to read. -/
def Sentence.Selects (g : Engine) (row : Row) : Option Sentence → Prop
  | none => True
  | some s => s.truth g row = .yes

/-- The text of what is left of a readable condition is read as a sentence that selects the rows
of which it is true. -/
theorem Simplified.exists_sentence {names : EntityNames} {k : Simplified}
    (hk : k.IsReadable names.Knows) : ∃ s?, Template.IsReadAs names k.template? s? ∧
      ∀ g row, Sentence.Selects g row s? ↔ k.truth g row (fun _ => .yes) = .yes := by
  cases k with
  | everything => exact ⟨none, trivial, fun g row => by simp [Sentence.Selects, truth]⟩
  | nothing =>
    refine ⟨some .falsehood, ⟨ofText neverText, ?_, rfl, ?_, Sentence.read?_neverText⟩, ?_⟩
    · exact Template.sql_eq_of_flat_eq rfl
    · exact Mark.allKnown_ofText neverText
    · exact fun g row => Iff.rfl
  | clause c =>
    have hflat : c.template.flat = (Mark.template c.marks).flat := c.flat_marks.symm
    refine ⟨some c.sentence, ⟨c.marks, ?_, ?_, Clause.allKnown_marks hk, Clause.read_marks hk⟩, ?_⟩
    · exact Template.sql_eq_of_flat_eq hflat
    · exact Template.values_eq_of_flat_eq hflat
    · intro g row
      have htruth : c.sentence.truth g row = c.truth g row fun _ => .yes :=
        Clause.truth_sentence g row _ hk
      rw [Sentence.Selects, htruth, truth]

/-- The text of a filter without SQL text of its own is read as a sentence that selects the rows of
which the filter is true. -/
theorem Filter.exists_sentence {e : Entity} {names : EntityNames} {f : Filter}
    (hraw : f.IsRawFree) {text? : Option Template} (h : f.compile e names = .ok text?) :
    ∃ s?, Template.IsReadAs names text? s? ∧
      ∀ g row raw, Sentence.Selects g row s? ↔ f.truth g row e names raw = .yes := by
  obtain ⟨k, rfl, hread, htruth⟩ := Filter.compile_eq_ok hraw h
  obtain ⟨s?, hs, hselects⟩ := Simplified.exists_sentence hread
  refine ⟨s?, hs, fun g row raw => ?_⟩
  rw [hselects, htruth]

/-- Two opposing filters compile for the same fields and values, and of the sentences that a
database reads in their texts, exactly one selects a row. -/
theorem Filter.selects_exactly_one {e : Entity} {names : EntityNames} {f f' : Filter}
    (h : f.Opposes f') :
    ((∃ text?, f.compile e names = .ok text?) ↔ ∃ text?, f'.compile e names = .ok text?) ∧
      ∀ text? text?', f.compile e names = .ok text? → f'.compile e names = .ok text?' →
        ∃ s? s?', Template.IsReadAs names text? s? ∧ Template.IsReadAs names text?' s?' ∧
          ∀ g row, g.NegatesEquality → e.Admits names row →
            Xor (Sentence.Selects g row s?) (Sentence.Selects g row s?') := by
  refine ⟨h.compiles_iff, ?_⟩
  intro text? text?' hf hf'
  obtain ⟨k, rfl, hread, htruth⟩ := Filter.compile_eq_ok h.isRawFree.1 hf
  obtain ⟨k', rfl, hread', htruth'⟩ := Filter.compile_eq_ok h.isRawFree.2 hf'
  obtain ⟨s?, hs, hselects⟩ := Simplified.exists_sentence hread
  obtain ⟨s?', hs', hselects'⟩ := Simplified.exists_sentence hread'
  refine ⟨s?, s?', hs, hs', ?_⟩
  intro g row hg hrow
  have hsplit := h.truth_eq_yes_iff hf hg hrow fun _ => .yes
  rw [← htruth, ← htruth', ← hselects, ← hselects'] at hsplit
  exact xor_iff_not_iff'.2 hsplit.symm

/-- Values that are compared as callers compare them, and texts that match nothing. -/
def Engine.ofSame : Engine where
  holds op cell v := if op = .ne then !cell.same v else cell.same v
  fits _ _ := false

/-- A row of a person without a name. -/
def namelessRow : Row := fun column => if column = "id" then .integer 1 else .null

/-- Only the name is NULL there. -/
theorem person_admits_namelessRow : person.Admits (.resolve person .bare) namelessRow := by
  intro key f column hlook hnull
  obtain ⟨hf, hcolumn⟩ := Condition.lookUp_eq_ok.1 hlook
  obtain ⟨hmem, rfl⟩ := Entity.mem_of_field hf
  simp only [person, List.mem_cons, List.not_mem_nil, or_false] at hmem
  rcases hmem with rfl | rfl
  · have hid : column = "id" := Except.ok.inj hcolumn.symm
    rw [hid] at hnull
    cases hnull
  · rfl

/-- With NULL in the list, the rows with NULL are on the side of the list, and not on that of its
negation. -/
theorem Filter.selects_exactly_one_null :
    ∃ t t', (among "name" false [.text "a", .null]).compile person (.resolve person .bare) =
        .ok (some t) ∧
      (among "name" true [.text "a", .null]).compile person (.resolve person .bare) =
        .ok (some t') ∧
      t.sql .dollar = "(name in ($1) or name is null)" ∧
      t'.sql .dollar = "(name not in ($1) and name is not null)" ∧
      ∃ s? s?', Template.IsReadAs (.resolve person .bare) (some t) s? ∧
        Template.IsReadAs (.resolve person .bare) (some t') s?' ∧
        Xor (Sentence.Selects .ofSame namelessRow s?)
          (Sentence.Selects .ofSame namelessRow s?') := by
  refine ⟨_, _, rfl, rfl, rfl, rfl, ?_⟩
  obtain ⟨s?, s?', hs, hs', hxor⟩ := (@selects_exactly_one person (.resolve person .bare) _ _
    (.among "name" [.text "a", .null])).2 _ _ rfl rfl
  exact ⟨s?, s?', hs, hs', hxor _ _ (fun cell v _ _ => rfl) person_admits_namelessRow⟩

end EntitySql
