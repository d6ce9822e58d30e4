import EntitySql.Proofs.Stored

/-!
# The truth of filters and conditions

SQL knows three truth values: a comparison with NULL is neither true nor
false. A row is selected only if its condition is true, so a condition that is
*unknown* where the filter is *true* loses rows without any failure. This
module says what filters, conditions and clauses mean on a row, each by
recursion on its own tree, and that neither the way from filters to conditions
nor simplification changes the meaning.

- `Truth`: the three values, with Kleene's connectives.
- `Engine`: how a database compares values that are not NULL.
- `Filter.truth`: what a caller means by a filter.
- `Condition.truth`, `Clause.truth`: what the database makes of it.
- `Condition.truth_ofFilter`, `Condition.truth_simplify`: these agree.
-/

namespace EntitySql

/-- The truth values of SQL. -/
inductive Truth where
  | no
  | unknown
  | yes
deriving DecidableEq, Repr

namespace Truth

/-- A truth value that is known. -/
def ofBool (b : Bool) : Truth := if b then .yes else .no

/-- Kleene's negation. -/
def not : Truth → Truth
  | .no => .yes
  | .unknown => .unknown
  | .yes => .no

/-- Kleene's conjunction: the least of both. -/
def and : Truth → Truth → Truth
  | .no, _ => .no
  | .yes, t => t
  | .unknown, .no => .no
  | .unknown, _ => .unknown

/-- Kleene's disjunction: the greatest of both. -/
def or : Truth → Truth → Truth
  | .yes, _ => .yes
  | .no, t => t
  | .unknown, .yes => .yes
  | .unknown, _ => .unknown

/-- The conjunction of any number of truth values; none is true. -/
def all : List Truth → Truth
  | [] => .yes
  | t :: ts => t.and (all ts)

/-- The disjunction of any number of truth values; none is false. -/
def any : List Truth → Truth
  | [] => .no
  | t :: ts => t.or (any ts)

@[simp] theorem not_not (t : Truth) : t.not.not = t := by cases t <;> rfl

@[simp] theorem and_yes (t : Truth) : t.and .yes = t := by cases t <;> rfl

@[simp] theorem yes_and (t : Truth) : yes.and t = t := rfl

@[simp] theorem and_no (t : Truth) : t.and .no = .no := by cases t <;> rfl

@[simp] theorem no_and (t : Truth) : no.and t = .no := rfl

@[simp] theorem or_no (t : Truth) : t.or .no = t := by cases t <;> rfl

@[simp] theorem no_or (t : Truth) : no.or t = t := rfl

@[simp] theorem or_yes (t : Truth) : t.or .yes = .yes := by cases t <;> rfl

@[simp] theorem yes_or (t : Truth) : yes.or t = .yes := rfl

theorem or_assoc (t u v : Truth) : (t.or u).or v = t.or (u.or v) := by
  cases t <;> cases u <;> cases v <;> rfl

theorem or_comm (t u : Truth) : t.or u = u.or t := by cases t <;> cases u <;> rfl

theorem not_or (t u : Truth) : (t.or u).not = t.not.and u.not := by
  cases t <;> cases u <;> rfl

end Truth

/-! ## Rows and databases -/

/-- How a database compares values that are not NULL. -/
structure Engine where
  /-- The comparison holds between a cell and a value. -/
  holds : CompareOp → Value → Value → Bool
  /-- The cell, in small letters, fits the pattern, in small letters, where `!` takes the
  meaning from the character after it. -/
  fits : Value → String → Bool

/-- A row: the cell under each text that stands for a field. -/
abbrev Row := String → Value

namespace Engine

variable (g : Engine)

/-- A comparison in SQL: unknown as soon as one side is NULL. -/
def compare (op : CompareOp) (cell v : Value) : Truth :=
  if cell.isNull || v.isNull then .unknown else .ofBool (g.holds op cell v)

/-- A match in SQL: unknown if the cell is NULL. -/
def like (cell : Value) (pattern : String) : Truth :=
  if cell.isNull then .unknown else .ofBool (g.fits cell pattern)

/-! ### What callers mean -/

/-- The cell is the value; NULL is a value like any other on the side of the caller. -/
def equals (cell v : Value) : Truth :=
  if v.isNull then .ofBool cell.isNull else g.compare .eq cell v

/-- The cell compares with the value. A cell with NULL differs from every other value where the
field may hold NULL. -/
def compares (allowNull : Bool) (op : CompareOp) (cell v : Value) : Truth :=
  match op with
  | .eq => g.equals cell v
  | .ne =>
    if v.isNull then .ofBool (!cell.isNull)
    else if allowNull && cell.isNull then .yes else g.compare .ne cell v
  | op => g.compare op cell v

/-- The cell is one of the values. -/
def among (cell : Value) (vs : List Value) : Truth := .any (vs.map (g.equals cell))

/-- The cell is none of the values. A cell with NULL is none of them where the field may hold
NULL, unless NULL is listed. -/
def notAmong (allowNull : Bool) (cell : Value) (vs : List Value) : Truth :=
  if allowNull && cell.isNull && !vs.any Value.isNull then .yes else (g.among cell vs).not

/-- The cell matches the text. A cell with NULL contains nothing where the field may hold
NULL. -/
def matching (allowNull : Bool) (mode : MatchMode) (cell : Value) (text : String) : Truth :=
  match mode with
  | .notContains =>
    if allowNull && cell.isNull then .yes else (g.like cell (mode.pattern text)).not
  | mode => g.like cell (mode.pattern text)

end Engine

/-- The truth of a test on the cell of a field; unknown if there is no such field. -/
def Entity.fieldTruth (e : Entity) (names : EntityNames) (row : Row) (key : String)
    (test : Field → Value → Truth) : Truth :=
  match e.field key, names.columnOf key with
  | .ok f, .ok column => test f (row column)
  | _, _ => .unknown

/-! ## Truth on a row -/

section

variable (g : Engine) (row : Row)

/-- The truth of a test. -/
def Test.truth : Test → Truth
  | .isNull column => .ofBool (row column).isNull
  | .isNotNull column => .ofBool (!(row column).isNull)
  | .compare column op v => g.compare op (row column) v
  | .oneOf column vs => .any (vs.map (g.compare .eq (row column)))
  | .noneOf column vs => (Truth.any (vs.map (g.compare .eq (row column)))).not
  | .like column pattern => g.like (row column) pattern
  | .notLike column pattern => (g.like (row column) pattern).not

/-- The truth of a predicate. -/
def Predicate.truth : Predicate → Truth
  | .one t => t.truth g row
  | .either t u => (t.truth g row).or (u.truth g row)
  | .both t u => (t.truth g row).and (u.truth g row)

mutual

/-- The truth of a condition; `raw` gives the truth of raw conditions. -/
def Condition.truth {ρ : Type} (raw : ρ → Truth) : Condition ρ → Truth
  | .always => .yes
  | .never => .no
  | .predicate p => p.truth g row
  | .raw r => raw r
  | .and cs => .all (Condition.truths raw cs)
  | .or cs => .any (Condition.truths raw cs)
  | .not c => (Condition.truth raw c).not

/-- The truth of each condition of a list. -/
def Condition.truths {ρ : Type} (raw : ρ → Truth) : List (Condition ρ) → List Truth
  | [] => []
  | c :: cs => Condition.truth raw c :: Condition.truths raw cs

end

mutual

/-- The truth of a clause; `raw` gives the truth of raw text. -/
def Clause.truth (raw : Template → Truth) : Clause → Truth
  | .predicate p => p.truth g row
  | .raw t => raw t
  | .and cs => .all (Clause.truths raw cs)
  | .or cs => .any (Clause.truths raw cs)
  | .not c => (Clause.truth raw c).not

/-- The truth of each clause of a list. -/
def Clause.truths (raw : Template → Truth) : List Clause → List Truth
  | [] => []
  | c :: cs => Clause.truth raw c :: Clause.truths raw cs

end

/-- The truth of what is left of a condition. -/
def Simplified.truth (raw : Template → Truth) : Simplified → Truth
  | .everything => .yes
  | .nothing => .no
  | .clause c => c.truth g row raw

mutual

/-- The truth of a filter: what its caller means. `raw` gives the truth of raw filters. -/
def Filter.truth (e : Entity) (names : EntityNames) (raw : List RawPart → Truth) :
    Filter → Truth
  | .compare key op v => e.fieldTruth names row key fun f cell =>
      g.compares f.allowNull op cell (f.converter.stored v)
  | .among key negated vs => e.fieldTruth names row key fun f cell =>
      if negated then g.notAmong f.allowNull cell (vs.map f.converter.stored)
      else g.among cell (vs.map f.converter.stored)
  | .matching key mode text => e.fieldTruth names row key fun f cell =>
      g.matching f.allowNull mode cell text
  | .and fs => .all (Filter.truths e names raw fs)
  | .or fs => .any (Filter.truths e names raw fs)
  | .not f => (Filter.truth e names raw f).not
  | .raw parts => raw parts

/-- The truth of each filter of a list. -/
def Filter.truths (e : Entity) (names : EntityNames) (raw : List RawPart → Truth) :
    List Filter → List Truth
  | [] => []
  | f :: fs => Filter.truth e names raw f :: Filter.truths e names raw fs

end

end

/-! ## From filters to conditions -/

namespace Engine

variable (g : Engine)

/-- A cell is one of some values if it is NULL and NULL is among them, or if it equals one of
the others. -/
theorem among_eq (cell : Value) (ws : List Value) :
    g.among cell ws =
      (Truth.any ((ws.filter fun w => !w.isNull).map (g.compare .eq cell))).or
        (if ws.any Value.isNull then .ofBool cell.isNull else .no) := by
  induction ws with
  | nil => rfl
  | cons w ws ih =>
    have hcons : g.among cell (w :: ws) = (g.equals cell w).or (g.among cell ws) := rfl
    rw [hcons, ih]
    cases hnull : w.isNull with
    | false => simp [equals, hnull, Truth.any, Truth.or_assoc]
    | true =>
      have hidem : ∀ t : Truth, (Truth.ofBool cell.isNull).or (t.or (Truth.ofBool cell.isNull)) =
          t.or (Truth.ofBool cell.isNull) := by
        intro t
        cases t <;> cases cell.isNull <;> rfl
      cases hany : ws.any Value.isNull with
      | false => simp [equals, hnull, hany, Truth.or_comm]
      | true => simp [equals, hnull, hany, hidem]

end Engine

section

variable {g : Engine} {row : Row}

/-- The predicate of a comparison means the comparison. -/
theorem Predicate.truth_ofCompare {key column : String} {allowNull : Bool} {op : CompareOp}
    {v : Value} {p : Predicate} (h : Predicate.ofCompare key column allowNull op v = .ok p) :
    p.truth g row = g.compares allowNull op (row column) v := by
  unfold Predicate.ofCompare at h
  cases hnull : v.isNull with
  | true =>
    -- only `=` and `<>` make sense with NULL
    rw [if_pos hnull] at h
    cases op <;> simp only [Except.ok.injEq, reduceCtorEq] at h
    all_goals
      subst h
      simp [Predicate.truth, Test.truth, Engine.compares, Engine.equals, hnull]
  | false =>
    rw [if_neg (by simp [hnull])] at h
    by_cases hne : op = .ne ∧ allowNull
    · rw [if_pos hne] at h
      obtain ⟨rfl, hallow⟩ := hne
      cases h
      cases hcell : (row column).isNull <;>
        simp [Predicate.truth, Test.truth, Engine.compares, Engine.compare, hnull, hallow, hcell,
          Truth.ofBool]
    · rw [if_neg hne] at h
      cases h
      cases op <;> simp [Predicate.truth, Test.truth, Engine.compares, Engine.equals, hnull]
      simp only [true_and, Bool.not_eq_true] at hne
      simp [hne]

/-- The predicate of a list means that the cell is one of its values. -/
theorem Predicate.truth_ofOneOf (column : String) (ws : List Value) :
    (Predicate.ofOneOf column (ws.any Value.isNull) (ws.filter fun w => !w.isNull)).truth g row =
      g.among (row column) ws := by
  rw [g.among_eq, Predicate.ofOneOf]
  cases hany : ws.any Value.isNull with
  | false => simp [Predicate.truth, Test.truth]
  | true =>
    cases hws : ws.filter (fun w => !w.isNull) with
    | nil => simp [Predicate.truth, Test.truth, Truth.any]
    | cons w rest => simp [Predicate.truth, Test.truth]

theorem Predicate.truth_ofNoneOf (column : String) (allowNull : Bool) (ws : List Value) :
    (Predicate.ofNoneOf column allowNull (ws.any Value.isNull)
        (ws.filter fun w => !w.isNull)).truth g row =
      g.notAmong allowNull (row column) ws := by
  rw [Engine.notAmong, g.among_eq, Predicate.ofNoneOf]
  have hbool : ∀ b : Bool, (Truth.ofBool b).not = Truth.ofBool !b := by decide
  cases hany : ws.any Value.isNull with
  | true =>
    cases hws : ws.filter (fun w => !w.isNull) with
    | nil => simp [Predicate.truth, Test.truth, Truth.any, hbool]
    | cons w rest => simp [Predicate.truth, Test.truth, Truth.not_or, hbool]
  | false =>
    cases allowNull with
    | false => simp [Predicate.truth, Test.truth]
    | true =>
      cases hcell : (row column).isNull <;>
        simp [Predicate.truth, Test.truth, hcell, Truth.ofBool]

theorem Predicate.truth_ofMatch (column : String) (allowNull : Bool) (mode : MatchMode)
    (text : String) :
    (Predicate.ofMatch column allowNull mode text).truth g row =
      g.matching allowNull mode (row column) text := by
  cases mode with
  | notContains =>
    cases allowNull with
    | false => rfl
    | true =>
      cases hcell : (row column).isNull <;>
        simp [Predicate.ofMatch, Predicate.truth, Test.truth, Engine.matching, hcell, Truth.ofBool]
  | contains => rfl
  | startsWith => rfl
  | endsWith => rfl

/-- The truth of a test on the cell of a field that was looked up. -/
theorem Entity.fieldTruth_of_lookUp {e : Entity} {names : EntityNames} {key column : String}
    {f : Field} (h : Condition.lookUp e names key = .ok (f, column))
    (test : Field → Value → Truth) : e.fieldTruth names row key test = test f (row column) := by
  obtain ⟨hf, hcolumn⟩ := Condition.lookUp_eq_ok.1 h
  simp [Entity.fieldTruth, hf, hcolumn]

mutual

/-- The condition of a filter means what the filter means. -/
theorem Condition.truth_ofFilter {e : Entity} {names : EntityNames} (raw : List RawPart → Truth) :
    ∀ (f : Filter) {c : Condition (List RawPart)}, Condition.ofFilter e names f = .ok c →
      c.truth g row raw = f.truth g row e names raw
  | .compare key op v, c, h => by
    obtain ⟨f, column, w, p, hlook, hw, hp, rfl⟩ := Condition.ofFilter_compare_eq_ok h
    rw [Filter.truth, Entity.fieldTruth_of_lookUp hlook, Converter.stored_of_toStored hw]
    exact Predicate.truth_ofCompare hp
  | .among key negated vs, c, h => by
    obtain ⟨f, column, hlook, ⟨rfl, rfl⟩ | ⟨_, hasNull, ws, hlist, rfl⟩⟩ :=
      Condition.ofFilter_among_eq_ok h
    · rw [Filter.truth, Entity.fieldTruth_of_lookUp hlook]
      cases negated with
      | false => rfl
      | true => cases (f.allowNull && (row column).isNull) <;> simp [Condition.truth,
          Engine.notAmong, Engine.among, Truth.any, Truth.not]
    · rw [Filter.truth, Entity.fieldTruth_of_lookUp hlook]
      obtain ⟨rfl, rfl⟩ := Condition.storedList_eq hlist
      cases negated with
      | false => exact Predicate.truth_ofOneOf column _
      | true => exact Predicate.truth_ofNoneOf column f.allowNull _
  | .matching key mode text, c, h => by
    obtain ⟨f, column, hlook, rfl⟩ := Condition.ofFilter_matching_eq_ok h
    rw [Filter.truth, Entity.fieldTruth_of_lookUp hlook]
    exact Predicate.truth_ofMatch column f.allowNull mode text
  | .and fs, c, h => by
    obtain ⟨cs, hcs, rfl⟩ := Condition.ofFilter_and_eq_ok h
    rw [Condition.truth, Filter.truth, Condition.truths_ofFilters raw fs hcs]
  | .or fs, c, h => by
    obtain ⟨cs, hcs, rfl⟩ := Condition.ofFilter_or_eq_ok h
    rw [Condition.truth, Filter.truth, Condition.truths_ofFilters raw fs hcs]
  | .not f, c, h => by
    obtain ⟨c', hc', rfl⟩ := Condition.ofFilter_not_eq_ok h
    rw [Condition.truth, Filter.truth, Condition.truth_ofFilter raw f hc']
  | .raw parts, c, h => by
    cases h
    rfl

theorem Condition.truths_ofFilters {e : Entity} {names : EntityNames}
    (raw : List RawPart → Truth) :
    ∀ (fs : List Filter) {cs : List (Condition (List RawPart))},
      Condition.ofFilters e names fs = .ok cs →
      Condition.truths g row raw cs = Filter.truths g row e names raw fs
  | [], cs, h => by
    cases h
    rfl
  | f :: fs, cs, h => by
    obtain ⟨c, rest, hc, hrest, rfl⟩ := Condition.ofFilters_cons_eq_ok h
    rw [Condition.truths, Filter.truths, Condition.truth_ofFilter raw f hc,
      Condition.truths_ofFilters raw fs hrest]

end

end

/-! ## Raw text and simplification -/

section

variable {g : Engine} {row : Row}

mutual

/-- Working out raw conditions keeps the meaning, if it does so for each raw condition. -/
theorem Condition.truth_resolve {ρ σ ε : Type} {f : ρ → Except ε σ} {raw : ρ → Truth}
    {raw' : σ → Truth} (hraw : ∀ r s, f r = .ok s → raw' s = raw r) :
    ∀ (c : Condition ρ) {d : Condition σ}, c.resolve f = .ok d →
      d.truth g row raw' = c.truth g row raw
  | .always, d, h => by
    cases h
    rfl
  | .never, d, h => by
    cases h
    rfl
  | .predicate p, d, h => by
    cases h
    rfl
  | .raw r, d, h => by
    obtain ⟨s, hs, rfl⟩ := Condition.resolve_raw_eq_ok h
    exact hraw r s hs
  | .and cs, d, h => by
    obtain ⟨ds, hds, rfl⟩ := Condition.resolve_and_eq_ok h
    rw [Condition.truth, Condition.truth, Condition.truths_resolveAll hraw cs hds]
  | .or cs, d, h => by
    obtain ⟨ds, hds, rfl⟩ := Condition.resolve_or_eq_ok h
    rw [Condition.truth, Condition.truth, Condition.truths_resolveAll hraw cs hds]
  | .not c, d, h => by
    obtain ⟨d', hd', rfl⟩ := Condition.resolve_not_eq_ok h
    rw [Condition.truth, Condition.truth, Condition.truth_resolve hraw c hd']

/-- Working out the raw conditions of a list keeps the meaning of each of its members. -/
theorem Condition.truths_resolveAll {ρ σ ε : Type} {f : ρ → Except ε σ} {raw : ρ → Truth}
    {raw' : σ → Truth} (hraw : ∀ r s, f r = .ok s → raw' s = raw r) :
    ∀ (cs : List (Condition ρ)) {ds : List (Condition σ)}, Condition.resolveAll f cs = .ok ds →
      Condition.truths g row raw' ds = Condition.truths g row raw cs
  | [], ds, h => by
    cases h
    rfl
  | c :: cs, ds, h => by
    obtain ⟨d, rest, hd, hrest, rfl⟩ := Condition.resolveAll_cons_eq_ok h
    rw [Condition.truths, Condition.truths, Condition.truth_resolve hraw c hd,
      Condition.truths_resolveAll hraw cs hrest]

end

namespace Simplified

variable {raw : Template → Truth}

/-- Negation of what is left is Kleene's negation. -/
theorem truth_negate (k : Simplified) : k.negate.truth g row raw = (k.truth g row raw).not := by
  cases k <;> rfl

/-- The conjunction of clauses is true as far as all of them are. -/
theorem truth_ofAll (ks : List Clause) :
    (ofAll ks).truth g row raw = .all (Clause.truths g row raw ks) := by
  match ks with
  | [] => rfl
  | [k] => simp [ofAll, truth, Clause.truths, Truth.all]
  | k :: l :: ks => rfl

theorem truth_ofAny (ks : List Clause) :
    (ofAny ks).truth g row raw = .any (Clause.truths g row raw ks) := by
  match ks with
  | [] => rfl
  | [k] => simp [ofAny, truth, Clause.truths, Truth.any]
  | k :: l :: ks => rfl

/-- The truth of the members of a conjunction; with none left it is false. -/
def allOf (g : Engine) (row : Row) (raw : Template → Truth) : Option (List Clause) → Truth
  | some ks => .all (Clause.truths g row raw ks)
  | none => .no

/-- The truth of the members of a disjunction; with none left it is true. -/
def anyOf (g : Engine) (row : Row) (raw : Template → Truth) : Option (List Clause) → Truth
  | some ks => .any (Clause.truths g row raw ks)
  | none => .yes

/-- One more member of a conjunction. -/
theorem allOf_conjoin (k : Simplified) (ks? : Option (List Clause)) :
    allOf g row raw (k.conjoin ks?) = (k.truth g row raw).and (allOf g row raw ks?) := by
  cases k <;> cases ks? <;> simp [conjoin, allOf, truth, Clause.truths, Truth.all]

theorem anyOf_disjoin (k : Simplified) (ks? : Option (List Clause)) :
    anyOf g row raw (k.disjoin ks?) = (k.truth g row raw).or (anyOf g row raw ks?) := by
  cases k <;> cases ks? <;> simp [disjoin, anyOf, truth, Clause.truths, Truth.any]

end Simplified

mutual

/-- Simplification keeps the meaning, if blank raw text holds for every row. -/
theorem Condition.truth_simplify {raw : Template → Truth}
    (hblank : ∀ t, isBlankTemplate t = true → raw t = .yes) :
    ∀ c : Condition Template, c.simplify.truth g row raw = c.truth g row raw
  | .always => rfl
  | .never => rfl
  | .predicate p => rfl
  | .raw t => by
    rw [Condition.simplify, Condition.truth]
    split
    · next h => exact (hblank t h).symm
    · rfl
  | .and cs => by
    rw [Condition.simplify, Condition.truth, ← Condition.allOf_conjuncts hblank cs]
    cases Condition.conjuncts cs with
    | none => rfl
    | some ks => exact Simplified.truth_ofAll ks
  | .or cs => by
    rw [Condition.simplify, Condition.truth, ← Condition.anyOf_disjuncts hblank cs]
    cases Condition.disjuncts cs with
    | none => rfl
    | some ks => exact Simplified.truth_ofAny ks
  | .not c => by
    rw [Condition.simplify, Simplified.truth_negate, Condition.truth,
      Condition.truth_simplify hblank c]

/-- The members left in a conjunction mean what all its members mean. -/
theorem Condition.allOf_conjuncts {raw : Template → Truth}
    (hblank : ∀ t, isBlankTemplate t = true → raw t = .yes) :
    ∀ cs : List (Condition Template),
      Simplified.allOf g row raw (Condition.conjuncts cs) =
        .all (Condition.truths g row raw cs)
  | [] => rfl
  | c :: cs => by
    rw [Condition.conjuncts, Simplified.allOf_conjoin, Condition.truths, Truth.all,
      Condition.truth_simplify hblank c, Condition.allOf_conjuncts hblank cs]

theorem Condition.anyOf_disjuncts {raw : Template → Truth}
    (hblank : ∀ t, isBlankTemplate t = true → raw t = .yes) :
    ∀ cs : List (Condition Template),
      Simplified.anyOf g row raw (Condition.disjuncts cs) =
        .any (Condition.truths g row raw cs)
  | [] => rfl
  | c :: cs => by
    rw [Condition.disjuncts, Simplified.anyOf_disjoin, Condition.truths, Truth.any,
      Condition.truth_simplify hblank c, Condition.anyOf_disjuncts hblank cs]

end

end

end EntitySql
