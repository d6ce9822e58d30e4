import EntitySql.Proofs.Awaited

/-!
# Stored values

Conditions and statements hold values as the database stores them. Conversion
can fail, but it neither makes NULL of a value nor a value of NULL.

- `Converter.stored`: the stored form of a value that a field can hold.
- `Converter.isNull_of_toStored`: NULL stays NULL, and nothing else becomes NULL.
- `Condition.storedList_eq`: the stored forms of a list, with NULL apart.
- `Condition.ofFilter_compare_eq_ok` and the like, one for each form of filter:
  what its condition is made of.
-/

namespace EntitySql

/-- The stored form of a value; NULL for a value that the field cannot hold. -/
def Converter.stored (c : Converter) (v : Value) : Value :=
  match c.toStored v with
  | .ok stored => stored
  | .error _ => .null

namespace Converter

/-- A value that was converted has that stored form. -/
theorem stored_of_toStored {c : Converter} {v w : Value} (h : c.toStored v = .ok w) :
    c.stored v = w := by
  rw [stored, h]

/-- What is found for a value is not NULL; NULL is not looked for. -/
theorem isNull_of_orMismatch {α : Type} {wanted : String} {v w : Value} {found : Option α}
    {make : α → Value} (hmake : ∀ a, (make a).isNull = false)
    (h : orMismatch wanted v (found.map make) = .ok w) : w.isNull = false := by
  cases found with
  | none => cases h
  | some a =>
    cases h
    exact hmake a

/-- An instant is found for every value that is converted, except for NULL. -/
theorem toInstant?_eq_ok {v : Value} {t? : Option Instant} (h : toInstant? v = .ok t?) :
    t?.isNone = v.isNull := by
  cases v with
  | null =>
    cases h
    rfl
  | timestamp t =>
    cases h
    rfl
  | text s =>
    simp only [toInstant?] at h
    split at h <;> cases h
    rfl
  | integer n =>
    simp only [toInstant?] at h
    split at h <;> cases h
    rfl
  | float x => cases h
  | boolean b => cases h
  | json j => cases h

/-- Conversion makes NULL of NULL and of nothing else. -/
theorem isNull_of_toStored {c : Converter} {v w : Value} (h : c.toStored v = .ok w) :
    w.isNull = v.isNull := by
  -- only texts, and floats for integers, are looked at; other values stay or fail
  cases c with
  | integer =>
    cases v with
    | float x => exact isNull_of_orMismatch (fun _ => rfl) h
    | text s => exact isNull_of_orMismatch (fun _ => rfl) h
    | _ => cases h <;> rfl
  | number =>
    cases v with
    | text s => exact isNull_of_orMismatch (fun _ => rfl) h
    | _ => cases h <;> rfl
  | text => cases v <;> cases h <;> rfl
  | boolean =>
    cases v with
    | text s => exact isNull_of_orMismatch (fun _ => rfl) h
    | _ => cases h <;> rfl
  | date =>
    simp only [toStored, bind_eq_ok] at h
    obtain ⟨t?, ht, h⟩ := h
    rw [← toInstant?_eq_ok ht]
    cases t? <;> cases h <;> rfl
  | json => cases v <;> cases h <;> rfl
  | jsonText => cases v <;> cases h <;> rfl
  | plain =>
    cases h
    rfl

end Converter

/-- The stored values of a list are the stored forms of its values, with NULL apart. -/
theorem Condition.storedList_eq {c : Converter} :
    ∀ {vs : List Value} {hasNull : Bool} {ws : List Value},
      Condition.storedList c vs = .ok (hasNull, ws) →
      hasNull = (vs.map c.stored).any Value.isNull ∧
        ws = (vs.map c.stored).filter fun w => !w.isNull
  | [], hasNull, ws, h => by
    simp only [Condition.storedList, Except.ok.injEq, Prod.mk.injEq] at h
    obtain ⟨rfl, rfl⟩ := h
    exact ⟨rfl, rfl⟩
  | v :: vs, hasNull, ws, h => by
    simp only [Condition.storedList, bind_eq_ok] at h
    obtain ⟨w, hw, ⟨restNull, rest⟩, hrest, heq⟩ := h
    obtain ⟨hn, hr⟩ := Condition.storedList_eq hrest
    have hv : c.stored v = w := Converter.stored_of_toStored hw
    simp only [Except.ok.injEq] at heq
    -- NULL sets the mark, any other value is kept
    cases hnull : w.isNull with
    | true =>
      rw [hnull] at heq
      obtain ⟨rfl, rfl⟩ := Prod.mk.injEq .. ▸ heq
      simp [hv, hnull, hr]
    | false =>
      rw [hnull] at heq
      obtain ⟨rfl, rfl⟩ := Prod.mk.injEq .. ▸ heq
      simp [hv, hnull, hr, hn]

/-! ## Fields that are found -/

/-- The name of a field is found where the field is. -/
theorem EntityNames.find?_resolveBy (e : Entity) (wrap : String → String) (key : String) :
    ((resolveBy e wrap).columns.find? fun c => c.1 == key) =
      (e.selected.find? fun f => f.key == key).map fun f => (f.key, fieldTextBy wrap f) := by
  rw [resolveBy, List.find?_map]
  rfl

theorem EntityNames.find?_resolve (e : Entity) (q : Quoting) (key : String) :
    ((resolve e q).columns.find? fun c => c.1 == key) =
      (e.selected.find? fun f => f.key == key).map fun f => (f.key, fieldText q f) :=
  find?_resolveBy e q.wrap key

/-- A key stands for a field that the database knows, or is refused for every way of wrapping
names. -/
theorem EntityNames.columnOf_resolveBy_cases (e : Entity) (key : String) :
    (∃ f ∈ e.selected, f.key = key ∧
      ∀ wrap, (resolveBy e wrap).columnOf key = .ok (fieldTextBy wrap f)) ∨
    ((¬ ∃ f ∈ e.selected, f.key = key) ∧
      ∀ wrap, (resolveBy e wrap).columnOf key = .error (.fieldNotFound e.key key)) := by
  cases hfound : e.selected.find? fun f => f.key == key with
  | none =>
    refine .inr ⟨fun ⟨f, hf, hkey⟩ => ?_, fun wrap => ?_⟩
    · exact List.find?_eq_none.1 hfound f hf (beq_iff_eq.2 hkey)
    · rw [columnOf, find?_resolveBy, hfound]
      rfl
  | some f =>
    refine .inl ⟨f, List.mem_of_find?_eq_some hfound, by simpa using List.find?_some hfound,
      fun wrap => ?_⟩
    rw [columnOf, find?_resolveBy, hfound]
    rfl

/-- The field that is found for a key. -/
theorem Entity.field_eq_ok {e : Entity} {key : String} {f : Field} :
    e.field key = .ok f ↔ e.field? key = some f := by
  rw [field]
  cases e.field? key <;> simp

/-- A field that is found is a field of the entity, of that key. -/
theorem Entity.mem_of_field {e : Entity} {key : String} {f : Field} (h : e.field key = .ok f) :
    f ∈ e.fields ∧ f.key = key := by
  have hfound := field_eq_ok.1 h
  exact ⟨List.mem_of_find?_eq_some hfound, by simpa using List.find?_some hfound⟩

theorem Condition.lookUp_eq_ok {e : Entity} {names : EntityNames} {key column : String}
    {f : Field} : Condition.lookUp e names key = .ok (f, column) ↔
      e.field key = .ok f ∧ names.columnOf key = .ok column := by
  simp only [Condition.lookUp, bind_eq_ok, Except.ok.injEq, Prod.mk.injEq]
  constructor
  · rintro ⟨_, hf, _, hcolumn, rfl, rfl⟩
    exact ⟨hf, hcolumn⟩
  · rintro ⟨hf, hcolumn⟩
    exact ⟨f, hf, column, hcolumn, rfl, rfl⟩

/-- A field that is looked up is one of the entity. -/
theorem Condition.mem_of_lookUp {e : Entity} {names : EntityNames} {key column : String}
    {f : Field} (h : Condition.lookUp e names key = .ok (f, column)) :
    f ∈ e.fields ∧ f.key = key :=
  Entity.mem_of_field (Condition.lookUp_eq_ok.1 h).1

/-! ## Conditions that are made

Each form of filter has one way to its condition. -/

namespace Condition

section

variable {e : Entity} {names : EntityNames} {c : Condition (List RawPart)}

/-- A comparison is made of a column and a stored value. -/
theorem ofFilter_compare_eq_ok {key : String} {op : CompareOp} {v : Value}
    (h : ofFilter e names (.compare key op v) = .ok c) :
    ∃ f column w p, lookUp e names key = .ok (f, column) ∧ f.converter.toStored v = .ok w ∧
      Predicate.ofCompare key column f.allowNull op w = .ok p ∧ c = .predicate p := by
  obtain ⟨⟨f, column⟩, hlook, h⟩ := bind_eq_ok.1 h
  obtain ⟨w, hw, h⟩ := bind_eq_ok.1 h
  obtain ⟨p, hp, hc⟩ := bind_eq_ok.1 h
  cases hc
  exact ⟨f, column, w, p, hlook, hw, hp, rfl⟩

/-- A test for a list is decided if the list is empty, or is made of its stored values. -/
theorem ofFilter_among_eq_ok {key : String} {negated : Bool} {vs : List Value}
    (h : ofFilter e names (.among key negated vs) = .ok c) :
    ∃ f column, lookUp e names key = .ok (f, column) ∧
      (vs = [] ∧ c = (if negated then .always else .never) ∨
        vs ≠ [] ∧ ∃ hasNull ws, storedList f.converter vs = .ok (hasNull, ws) ∧
          c = .predicate (if negated then .ofNoneOf column f.allowNull hasNull ws
            else .ofOneOf column hasNull ws)) := by
  obtain ⟨⟨f, column⟩, hlook, h⟩ := bind_eq_ok.1 h
  refine ⟨f, column, hlook, ?_⟩
  cases vs with
  | nil =>
    cases h
    exact .inl ⟨rfl, rfl⟩
  | cons v vs =>
    simp only [List.isEmpty_cons, Bool.false_eq_true, ↓reduceIte, bind_eq_ok] at h
    obtain ⟨⟨hasNull, ws⟩, hlist, hc⟩ := h
    cases hc
    exact .inr ⟨List.cons_ne_nil v vs, hasNull, ws, hlist, rfl⟩

/-- A match is made of a column and the text. -/
theorem ofFilter_matching_eq_ok {key text : String} {mode : MatchMode}
    (h : ofFilter e names (.matching key mode text) = .ok c) :
    ∃ f column, lookUp e names key = .ok (f, column) ∧
      c = .predicate (.ofMatch column f.allowNull mode text) := by
  obtain ⟨⟨f, column⟩, hlook, hc⟩ := bind_eq_ok.1 h
  cases hc
  exact ⟨f, column, hlook, rfl⟩

/-- A conjunction is made of the conditions of its members. -/
theorem ofFilter_and_eq_ok {fs : List Filter} (h : ofFilter e names (.and fs) = .ok c) :
    ∃ cs, ofFilters e names fs = .ok cs ∧ c = .and cs := by
  obtain ⟨cs, hcs, hc⟩ := bind_eq_ok.1 h
  cases hc
  exact ⟨cs, hcs, rfl⟩

theorem ofFilter_or_eq_ok {fs : List Filter} (h : ofFilter e names (.or fs) = .ok c) :
    ∃ cs, ofFilters e names fs = .ok cs ∧ c = .or cs := by
  obtain ⟨cs, hcs, hc⟩ := bind_eq_ok.1 h
  cases hc
  exact ⟨cs, hcs, rfl⟩

theorem ofFilter_not_eq_ok {f : Filter} (h : ofFilter e names (.not f) = .ok c) :
    ∃ c', ofFilter e names f = .ok c' ∧ c = .not c' := by
  obtain ⟨c', hc', hc⟩ := bind_eq_ok.1 h
  cases hc
  exact ⟨c', hc', rfl⟩

/-- The conditions of a list are made one by one. -/
theorem ofFilters_cons_eq_ok {f : Filter} {fs : List Filter}
    {cs : List (Condition (List RawPart))} (h : ofFilters e names (f :: fs) = .ok cs) :
    ∃ c rest, ofFilter e names f = .ok c ∧ ofFilters e names fs = .ok rest ∧ cs = c :: rest := by
  obtain ⟨c, hc, h⟩ := bind_eq_ok.1 h
  obtain ⟨rest, hrest, hcs⟩ := bind_eq_ok.1 h
  cases hcs
  exact ⟨c, rest, hc, hrest, rfl⟩

end

end Condition

end EntitySql
