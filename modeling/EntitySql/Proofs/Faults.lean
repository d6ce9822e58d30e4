import EntitySql.Proofs.Stored

/-!
# Faults of filters

A filter is looked through as a whole before any text is written: each of its
fields, operands and comparisons is checked, in the order of the tree, also
where the text will not mention it. Only then are raw filters awaited, and only
a filter with text binds values.

- `Check`, `Filter.checks`: what a filter asks of its entity, in order.
- `Filter.raws`, `RawText.IsWellFormed`: its raw filters, in order, and what is
  expected of the text of each.
- `Filter.exists_compile_iff`, `Filter.compile_eq_error`: a filter fails with its
  first failed check, or else with the raw filter whose failure is found first.
-/

namespace EntitySql

/-! ## Checks -/

/-- What a filter asks of an entity. -/
inductive Check where
  /-- The database knows the field. -/
  | known (key : String)
  /-- The field can hold the value. -/
  | holds (key : String) (v : Value)
  /-- The value is not NULL, as the comparison needs an order. -/
  | ordered (key : String) (op : CompareOp) (v : Value)

namespace Check

/-- An entity has what is asked of it. -/
def Passes (e : Entity) : Check → Prop
  | known key => ∃ f ∈ e.fields, f.key = key ∧ f.isServerExpression = false
  | holds key v => ∀ f, e.field key = .ok f → ∃ w, f.converter.toStored v = .ok w
  | ordered key _ v =>
    ∀ f, e.field key = .ok f → ∀ w, f.converter.toStored v = .ok w → w.isNull = false

/-- The failure for an entity that has not what is asked of it. -/
def failure? (e : Entity) : Check → Option Failure
  | known key =>
    if e.selected.any fun f => f.key == key then none else some (.fieldNotFound e.key key)
  | holds key v => (e.field? key).bind fun f => fault? (f.converter.toStored v)
  | ordered key op v =>
    (e.field? key).bind fun f =>
      match f.converter.toStored v with
      | .ok w => if w.isNull then some (.invalidFilter s!"cannot compare '{key}' {op.sql} NULL")
          else none
      | .error _ => none

end Check

/-- The comparison needs an order. -/
def CompareOp.needsOrder : CompareOp → Bool
  | .eq | .ne => false
  | .lt | .lte | .gt | .gte => true

namespace Filter

mutual

/-- What a filter asks of its entity, in the order of the tree. -/
def checks : Filter → List Check
  | .compare key op v =>
    [.known key, .holds key v] ++ if op.needsOrder then [.ordered key op v] else []
  | .among key _ vs => .known key :: vs.map (.holds key)
  | .matching key _ _ => [.known key]
  | .and fs => checksAll fs
  | .or fs => checksAll fs
  | .not f => checks f
  | .raw _ => []

/-- What filters ask of their entity, one filter after the other. -/
def checksAll : List Filter → List Check
  | [] => []
  | f :: fs => checks f ++ checksAll fs

end

mutual

/-- The raw filters in a filter, in the order of the tree. -/
def raws : Filter → List (List RawPart)
  | .compare .. => []
  | .among .. => []
  | .matching .. => []
  | .and fs => rawsAll fs
  | .or fs => rawsAll fs
  | .not f => raws f
  | .raw parts => [parts]

/-- The raw filters in filters, one filter after the other. -/
def rawsAll : List Filter → List (List RawPart)
  | [] => []
  | f :: fs => raws f ++ rawsAll fs

end

end Filter

/-! ### The first failed check -/

/-- A check does not fail exactly if the entity has what is asked of it. -/
theorem Check.failure?_eq_none {e : Entity} {c : Check} : c.failure? e = none ↔ c.Passes e := by
  cases c with
  | known key =>
    have hmem : (e.selected.any fun f => f.key == key) = true ↔
        ∃ f ∈ e.fields, f.key = key ∧ f.isServerExpression = false := by
      simp [Entity.selected, and_comm]
    rw [failure?, Passes, ← hmem]
    cases e.selected.any fun f => f.key == key <;> simp
  | holds key v =>
    simp only [failure?, Passes, Entity.field_eq_ok]
    cases e.field? key with
    | none => simp
    | some f => simp [fault?_eq_none]
  | ordered key op v =>
    simp only [failure?, Passes, Entity.field_eq_ok]
    cases e.field? key with
    | none => simp
    | some f =>
      cases hw : f.converter.toStored v with
      | error failure => simp [hw]
      | ok w => simp [hw]

section

variable {e : Entity} {q : Quoting}

/-- A field is looked up exactly if the database knows it. -/
theorem fault_lookUp (key : String) :
    fault? (Condition.lookUp e (EntityNames.resolve e q) key) = (Check.known key).failure? e := by
  rw [Condition.lookUp, Check.failure?, EntityNames.columnOf, EntityNames.find?_resolve]
  cases hfind : e.selected.find? fun f => f.key == key with
  | none =>
    have hany : (e.selected.any fun f => f.key == key) = false := by
      rw [← Bool.not_eq_true, List.any_eq_true]
      rintro ⟨f, hf, hkey⟩
      exact absurd hkey (List.find?_eq_none.1 hfind f hf)
    -- an unknown field and one that only the application knows fail alike
    rw [hany, Entity.field]
    cases e.field? key <;> rfl
  | some f =>
    have hmem := List.mem_of_find?_eq_some hfind
    have hkey := List.find?_some hfind
    have hany : (e.selected.any fun f => f.key == key) = true := List.any_eq_true.2 ⟨f, hmem, hkey⟩
    have hfound : e.field? key ≠ none := by
      rw [Entity.field?, Ne, List.find?_eq_none]
      exact fun h => h f (List.mem_filter.1 hmem).1 hkey
    rw [hany, Entity.field]
    cases hfield : e.field? key with
    | none => exact absurd hfield hfound
    | some g => rfl

/-- The values of a list are converted from left to right. -/
theorem fault_storedList {key : String} {f : Field} (hf : e.field key = .ok f) (vs : List Value) :
    fault? (Condition.storedList f.converter vs) =
      (vs.map (Check.holds key)).findSome? (Check.failure? e) := by
  induction vs with
  | nil => rfl
  | cons v vs ih =>
    have hhead : (Check.holds key v).failure? e = fault? (f.converter.toStored v) := by
      rw [Check.failure?, Entity.field_eq_ok.1 hf]
      rfl
    rw [Condition.storedList, List.map_cons, List.findSome?_cons, hhead,
      fault?_bind ((vs.map (Check.holds key)).findSome? (Check.failure? e)) ?_]
    · cases fault? (f.converter.toStored v) <;> rfl
    · intro w _
      rw [← ih]
      exact fault?_bind_ok

/-- A comparison fails for NULL if it needs an order. -/
theorem fault_ofCompare (key column : String) (allowNull : Bool) (op : CompareOp) (w : Value) :
    fault? (Predicate.ofCompare key column allowNull op w) =
      if op.needsOrder && w.isNull then
        some (.invalidFilter s!"cannot compare '{key}' {op.sql} NULL") else none := by
  unfold Predicate.ofCompare
  cases w.isNull with
  | true => cases op <;> rfl
  | false =>
    rw [Bool.and_false, if_neg Bool.false_ne_true, if_neg Bool.false_ne_true]
    split <;> rfl

/-- The checks of a comparison. -/
theorem fault_compare (key : String) (op : CompareOp) (v : Value) :
    fault? (Condition.ofFilter e (EntityNames.resolve e q) (.compare key op v)) =
      (Filter.compare key op v).checks.findSome? (Check.failure? e) := by
  rw [Condition.ofFilter, Filter.checks, List.cons_append, List.findSome?_cons,
    ← fault_lookUp (q := q), fault?_bind (([Check.holds key v] ++ if op.needsOrder then
      [Check.ordered key op v] else []).findSome? (Check.failure? e)) ?_]
  · cases fault? (Condition.lookUp e (EntityNames.resolve e q) key) <;> rfl
  · rintro ⟨f, column⟩ hlook
    have hf : e.field? key = some f := Entity.field_eq_ok.1 (Condition.lookUp_eq_ok.1 hlook).1
    have hholds : (Check.holds key v).failure? e = fault? (f.converter.toStored v) := by
      rw [Check.failure?, hf]
      rfl
    rw [List.singleton_append, List.findSome?_cons, hholds]
    dsimp only
    cases hw : f.converter.toStored v with
    | error failure => rfl
    | ok w =>
      have hordered : (Check.ordered key op v).failure? e =
          if w.isNull then some (.invalidFilter s!"cannot compare '{key}' {op.sql} NULL")
          else none := by
        rw [Check.failure?, hf, Option.bind_some, hw]
      rw [ok_bind, fault?_bind_ok, fault_ofCompare]
      cases hop : op.needsOrder with
      | true =>
        simp only [Bool.true_and, if_true, fault?, List.findSome?_cons, hordered]
        cases w.isNull <;> rfl
      | false => rfl

theorem fault_among (key : String) (negated : Bool) (vs : List Value) :
    fault? (Condition.ofFilter e (EntityNames.resolve e q) (.among key negated vs)) =
      (Filter.among key negated vs).checks.findSome? (Check.failure? e) := by
  rw [Condition.ofFilter, Filter.checks, List.findSome?_cons, ← fault_lookUp (q := q),
    fault?_bind ((vs.map (Check.holds key)).findSome? (Check.failure? e)) ?_]
  · cases fault? (Condition.lookUp e (EntityNames.resolve e q) key) <;> rfl
  · rintro ⟨f, column⟩ hlook
    rw [← fault_storedList (Condition.lookUp_eq_ok.1 hlook).1]
    cases vs with
    | nil => rfl
    | cons v vs => exact fault?_bind_ok

mutual

/-- A filter fails with its first failed check. -/
theorem fault_ofFilter : ∀ f : Filter,
    fault? (Condition.ofFilter e (EntityNames.resolve e q) f) =
      f.checks.findSome? (Check.failure? e)
  | .compare key op v => fault_compare key op v
  | .among key negated vs => fault_among key negated vs
  | .matching key mode pattern => by
    rw [Condition.ofFilter, Filter.checks, List.findSome?_singleton, ← fault_lookUp (q := q)]
    exact fault?_bind_ok
  | .and fs => by
    rw [Condition.ofFilter, Filter.checks, ← fault_ofFilters fs]
    exact fault?_bind_ok
  | .or fs => by
    rw [Condition.ofFilter, Filter.checks, ← fault_ofFilters fs]
    exact fault?_bind_ok
  | .not f => by
    rw [Condition.ofFilter, Filter.checks, ← fault_ofFilter f]
    exact fault?_bind_ok
  | .raw parts => by
    rw [Condition.ofFilter, Filter.checks]
    rfl

theorem fault_ofFilters : ∀ fs : List Filter,
    fault? (Condition.ofFilters e (EntityNames.resolve e q) fs) =
      (Filter.checksAll fs).findSome? (Check.failure? e)
  | [] => by
    rw [Condition.ofFilters, Filter.checksAll]
    rfl
  | f :: fs => by
    rw [Condition.ofFilters, Filter.checksAll, List.findSome?_append, ← fault_ofFilter f,
      ← fault_ofFilters fs]
    exact fault?_bind _ fun c _ => fault?_bind_ok

end

end

/-! ## Raw filters -/

/-- Marks come in pairs, and between the two marks of a pair stands the number of a value. -/
structure RawText.IsWellFormed (r : RawText) : Prop where
  pairs : (Text.split rawMark r.text.toList).length % 2 = 1
  tokens : ∀ i part, (Text.split rawMark r.text.toList)[2 * i + 1]? = some part →
    ∃ n, readNat? part = some n ∧ n < r.values.length

/-- A token stands for a value exactly if it is the number of one. -/
theorem fault_tokenValue {values : List Value} {part : List Char} :
    fault? (tokenValue values part) = none ↔
      ∃ n, readNat? part = some n ∧ n < values.length := by
  rw [tokenValue]
  cases readNat? part with
  | none => simp [fault?]
  | some n =>
    rw [Option.bind_some]
    by_cases hn : n < values.length
    · rw [List.getElem?_eq_getElem hn]
      simp [fault?, hn]
    · rw [List.getElem?_eq_none (Nat.le_of_not_lt hn)]
      simp [fault?, hn]

/-- There are pieces exactly if every second part is a token for a value. -/
theorem fault_piecesOfParts {values : List Value} : ∀ {parts : List (List Char)},
    fault? (piecesOfParts values parts) = none ↔ ∀ i part, parts[2 * i + 1]? = some part →
      ∃ n, readNat? part = some n ∧ n < values.length
  | [] => by simp [piecesOfParts, fault?]
  | [part] => by simp [piecesOfParts, fault?]
  | part :: token :: rest => by
    have hrest : fault? (piecesOfParts values rest) = none ↔ _ := fault_piecesOfParts
    have hsplit : fault? (piecesOfParts values (part :: token :: rest)) =
        (fault? (tokenValue values token)).or (fault? (piecesOfParts values rest)) := by
      rw [piecesOfParts]
      exact fault?_bind _ fun v _ => fault?_bind_ok
    rw [hsplit, Option.or_eq_none_iff, fault_tokenValue, hrest]
    constructor
    · rintro ⟨htoken, hrest⟩ i part' hpart
      cases i with
      | zero =>
        cases hpart
        exact htoken
      | succ i => exact hrest i part' hpart
    · exact fun h => ⟨h 0 token rfl, fun i part' hpart => h (i + 1) part' hpart⟩

/-- A text has pieces exactly if it is well-formed. -/
theorem fault_piecesOf {r : RawText} : fault? (piecesOf r) = none ↔ r.IsWellFormed := by
  rw [piecesOf]
  split
  · next heven =>
    refine ⟨fun h => (nomatch h), fun h => ?_⟩
    rw [h.pairs] at heven
    cases heven
  · next hodd =>
    rw [fault_piecesOfParts]
    exact ⟨fun h => ⟨by omega, h⟩, fun h => h.tokens⟩

/-- A raw filter has a template exactly if it writes a well-formed text. -/
theorem fault_template {names : EntityNames} {parts : List RawPart} :
    fault? (RawPart.template names parts) = none ↔
      ∃ r, RawPart.write names parts = .ok r ∧ r.IsWellFormed := by
  rw [RawPart.template]
  cases RawPart.write names parts with
  | error failure => simp [fault?]
  | ok r => simp [fault_piecesOf]

namespace Condition

mutual

/-- The condition of a filter has its raw filters, in the same order. -/
theorem raws_of_ofFilter {e : Entity} {names : EntityNames} :
    ∀ {f : Filter} {c : Condition (List RawPart)}, ofFilter e names f = .ok c → c.raws = f.raws
  | .compare key op v, c, h => by
    obtain ⟨_, _, _, _, _, _, _, rfl⟩ := ofFilter_compare_eq_ok h
    rw [raws, Filter.raws]
  | .among key negated vs, c, h => by
    obtain ⟨_, _, _, ⟨_, rfl⟩ | ⟨_, _, _, _, rfl⟩⟩ := ofFilter_among_eq_ok h
    · cases negated <;> rw [Filter.raws] <;> rfl
    · rw [raws, Filter.raws]
  | .matching key mode pattern, c, h => by
    obtain ⟨_, _, _, rfl⟩ := ofFilter_matching_eq_ok h
    rw [raws, Filter.raws]
  | .and fs, c, h => by
    obtain ⟨cs, hcs, rfl⟩ := ofFilter_and_eq_ok h
    rw [raws, Filter.raws, rawsAll_of_ofFilters hcs]
  | .or fs, c, h => by
    obtain ⟨cs, hcs, rfl⟩ := ofFilter_or_eq_ok h
    rw [raws, Filter.raws, rawsAll_of_ofFilters hcs]
  | .not f, c, h => by
    obtain ⟨c', hc', rfl⟩ := ofFilter_not_eq_ok h
    rw [raws, Filter.raws, raws_of_ofFilter hc']
  | .raw parts, c, h => by
    rw [ofFilter] at h
    cases h
    rw [raws, Filter.raws]

theorem rawsAll_of_ofFilters {e : Entity} {names : EntityNames} :
    ∀ {fs : List Filter} {cs : List (Condition (List RawPart))},
      ofFilters e names fs = .ok cs → rawsAll cs = Filter.rawsAll fs
  | [], cs, h => by
    rw [ofFilters] at h
    cases h
    rw [rawsAll, Filter.rawsAll]
  | f :: fs, cs, h => by
    obtain ⟨c, rest, hc, hrest, rfl⟩ := ofFilters_cons_eq_ok h
    rw [rawsAll, Filter.rawsAll, raws_of_ofFilter hc, rawsAll_of_ofFilters hrest]

end

end Condition

/-- A filter fails with its first failed check, or else with the failure of the raw filter that is
found first. -/
theorem Filter.compile_eq_error {e : Entity} {q : Quoting} {f : Filter} {failure : Failure} :
    f.compile e (EntityNames.resolve e q) = .error failure ↔
      f.checks.findSome? (Check.failure? e) = some failure ∨
        f.checks.findSome? (Check.failure? e) = none ∧
          Job.IsFirstBy (Job.turnAmong f.raws.length)
            (f.raws.map (RawPart.build (EntityNames.resolve e q))) failure := by
  rw [← fault_ofFilter (q := q), compile, bind_eq_error, fault?_eq_some, fault?_eq_none]
  refine or_congr_right ⟨?_, ?_⟩
  · rintro ⟨c, hc, h⟩
    rw [bind_eq_error, Condition.await_eq_error, Condition.raws_of_ofFilter hc] at h
    rcases h with hfailure | ⟨_, _, h⟩
    · exact ⟨⟨c, hc⟩, hfailure⟩
    · cases h
  · rintro ⟨⟨c, hc⟩, h⟩
    refine ⟨c, hc, bind_eq_error.2 (.inl ?_)⟩
    rwa [Condition.await_eq_error, Condition.raws_of_ofFilter hc]

/-- A filter has a text exactly if no check fails and each raw filter comes to a template. -/
theorem Filter.exists_compile_iff {e : Entity} {q : Quoting} {f : Filter} :
    (∃ t, f.compile e (EntityNames.resolve e q) = .ok t) ↔
      f.checks.findSome? (Check.failure? e) = none ∧
        ∀ parts ∈ f.raws, fault? (RawPart.template (EntityNames.resolve e q) parts) = none := by
  simp only [compile_eq_ok_iff, ← fault_ofFilter (q := q), fault?_eq_none]
  constructor
  · rintro ⟨t, c, hc, d, hd, -⟩
    obtain ⟨ts, hts, -⟩ := Condition.exists_fill_of_resolve hd
    rw [Condition.raws_of_ofFilter hc] at hts
    refine ⟨⟨c, hc⟩, fun parts hparts => ?_⟩
    obtain ⟨t, -, ht⟩ := exists_of_forall₂ hts parts hparts
    exact ⟨t, ht⟩
  · rintro ⟨⟨c, hc⟩, h⟩
    rw [← Condition.raws_of_ofFilter hc] at h
    obtain ⟨d, hd⟩ := Condition.exists_resolve h
    exact ⟨_, c, hc, d, hd, rfl⟩

end EntitySql
