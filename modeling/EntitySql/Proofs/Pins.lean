import EntitySql.Proofs.Built
import EntitySql.Proofs.Templates

/-!
# The row of an identity

A statement that is about one row asks for the value of each identity field.
What it asks for, and what an insert or update gives to the same field, are
found in different ways; this module says what each of them is.

- `Record.entries_ofPairs`: pairs in ascending order are the entries of their record.
- `Store.identityValues_complete`: an identity has a value for each identity field.
- `Store.storedValues_eq_ok`: what is stored of a record is what its fields are given.
- `Store.assigned`: what is written to a field.
- `Entity.pins`: what the filter of an identity asks for.
-/

namespace EntitySql

/-! ## Pairs in ascending order -/

/-- A key after all others is set at the end. -/
theorem insertEntry_of_gt {key : String} {value : Value} : ∀ {es : List (String × Value)},
    (∀ a ∈ es, a.1 < key) → insertEntry key value es = es ++ [(key, value)]
  | [], _ => rfl
  | (k, v) :: rest, h => by
    have hlt : k < key := h (k, v) List.mem_cons_self
    have hrest : insertEntry key value rest = rest ++ [(key, value)] :=
      insertEntry_of_gt fun a ha => h a (List.mem_cons_of_mem (k, v) ha)
    rw [insertEntry, if_neg (String.lt_asymm hlt), if_neg (Std.ne_of_lt hlt).symm, hrest]
    rfl

/-- Pairs in ascending order are the entries of their record. -/
theorem Record.entries_ofPairs {pairs : List (String × Value)}
    (h : pairs.Pairwise fun a b => a.1 < b.1) : (ofPairs pairs).entries = pairs := by
  have hfold : ∀ (pairs : List (String × Value)) (r : Record),
      (r.entries ++ pairs).Pairwise (fun a b => a.1 < b.1) →
      (pairs.foldl (fun r p => r.insert p.1 p.2) r).entries = r.entries ++ pairs := by
    intro pairs
    induction pairs with
    | nil => exact fun r _ => (List.append_nil _).symm
    | cons p pairs ih =>
      intro r hr
      -- the pairs ascend, so each one comes after all entries so far
      have hlast : (r.insert p.1 p.2).entries = r.entries ++ [p] := by
        refine insertEntry_of_gt fun a ha => ?_
        exact (List.pairwise_append.1 hr).2.2 a ha p List.mem_cons_self
      have hall := ih (r.insert p.1 p.2) (by rwa [hlast, List.append_assoc])
      rw [List.foldl_cons, hall, hlast, List.append_assoc]
      rfl
  exact hfold pairs Record.empty h

/-- An entry is what the record gives to its key. -/
theorem Record.get?_of_mem {r : Record} {key : String} {v : Value} (h : (key, v) ∈ r.entries) :
    r.get? key = some v := by
  have hfind : ∀ {es : List (String × Value)}, es.Pairwise (fun a b => a.1 < b.1) →
      (key, v) ∈ es → es.find? (fun a => a.1 == key) = some (key, v) := by
    intro es
    induction es with
    | nil => exact fun _ hmem => nomatch hmem
    | cons a es ih =>
      intro hes hmem
      rw [List.pairwise_cons] at hes
      rw [List.find?_cons]
      rcases List.mem_cons.1 hmem with rfl | hmem
      · simp
      · have hne : (a.1 == key) = false := beq_eq_false_iff_ne.2 (Std.ne_of_lt (hes.1 _ hmem))
        rw [hne]
        exact ih hes.2 hmem
  rw [get?, hfind r.ascending h]
  rfl

theorem Record.mem_of_get? {r : Record} {key : String} {v : Value} (h : r.get? key = some v) :
    (key, v) ∈ r.entries := by
  rw [get?, Option.map_eq_some_iff] at h
  obtain ⟨⟨k, w⟩, hfind, rfl⟩ := h
  obtain rfl : k = key := by simpa using List.find?_some hfind
  exact List.mem_of_find?_eq_some hfind

/-- Setting a key gives it the value and leaves the other keys as they are. -/
theorem Record.get?_insert (r : Record) (key k : String) (v : Value) :
    (r.insert key v).get? k = if k = key then some v else r.get? k := by
  have hfind : ∀ es : List (String × Value),
      ((insertEntry key v es).find? fun a => a.1 == k).map Prod.snd =
        if k = key then some v else (es.find? fun a => a.1 == k).map Prod.snd := by
    intro es
    induction es with
    | nil =>
      rw [insertEntry]
      by_cases hk : k = key
      · simp [hk]
      · simp [hk, Ne.symm hk]
    | cons a es ih =>
      rw [insertEntry]
      by_cases hk : k = key
      · subst hk
        -- the key is put before, replaces or comes after the first entry
        split
        · simp
        · split
          · simp
          · next hne =>
            rw [if_pos rfl] at ih ⊢
            rw [List.find?_cons, beq_eq_false_iff_ne.2 (Ne.symm hne)]
            exact ih
      · rw [if_neg hk] at ih ⊢
        split
        · rw [List.find?_cons, beq_eq_false_iff_ne.2 (Ne.symm hk)]
        · split
          · next heq =>
            rw [List.find?_cons, List.find?_cons, ← heq, beq_eq_false_iff_ne.2 (Ne.symm hk)]
          · rw [List.find?_cons, List.find?_cons]
            cases a.1 == k with
            | true => rfl
            | false => exact ih
  exact hfind r.entries

theorem Record.get?_ofPairs {value : String → Option Value} {pairs : List (String × Value)}
    (h : ∀ p ∈ pairs, value p.1 = some p.2) (key : String) :
    (ofPairs pairs).get? key = if key ∈ pairs.map Prod.fst then value key else none := by
  have hfold : ∀ (pairs : List (String × Value)) (r : Record),
      (∀ p ∈ pairs, value p.1 = some p.2) →
      (pairs.foldl (fun r p => r.insert p.1 p.2) r).get? key =
        if key ∈ pairs.map Prod.fst then value key else r.get? key := by
    intro pairs
    induction pairs with
    | nil => exact fun _ _ => rfl
    | cons p pairs ih =>
      intro r hp
      rw [List.foldl_cons, ih _ fun q hq => hp q (List.mem_cons_of_mem p hq), get?_insert]
      by_cases hkey : key = p.1
      · have hvalue := hp p List.mem_cons_self
        simp [hkey, hvalue]
      · rw [if_neg hkey, List.map_cons]
        simp only [List.mem_cons, hkey, false_or]
  exact hfold pairs Record.empty h

/-! ## Identities -/

/-- A record has a value that is not NULL for each identity field, and no other values. -/
structure Record.IsIdentity (r : Record) (e : Entity) : Prop where
  complete : ∀ key ∈ e.identity, ∃ v, r.get? key = some v
  only : ∀ key v, r.get? key = some v → key ∈ e.identity ∧ v.isNull = false

namespace Record.IsIdentity

variable {r : Record} {e : Entity}

theorem entries_ne_nil (h : r.IsIdentity e) (he : e.IsSound) : r.entries ≠ [] := by
  obtain ⟨key, hkey⟩ := he.exists_identity
  obtain ⟨v, hv⟩ := h.complete key hkey
  exact List.ne_nil_of_mem (mem_of_get? hv)

/-- The entries of an identity are not NULL. -/
theorem isNull_of_mem (h : r.IsIdentity e) {a : String × Value} (ha : a ∈ r.entries) :
    a.2.isNull = false :=
  (h.only a.1 a.2 (get?_of_mem ha)).2

end Record.IsIdentity

namespace Store

/-- The components of an identity are values of the record that are not NULL. -/
theorem componentsOf_eq_ok {e : Entity} {operation : String} {values : Record} :
    ∀ {keys : List String} {pairs : List (String × Value)},
      componentsOf e operation values keys = .ok pairs →
      pairs.map Prod.fst = keys ∧
        ∀ p ∈ pairs, values.get? p.1 = some p.2 ∧ p.2.isNull = false
  | [], pairs, h => by
    cases h
    exact ⟨rfl, fun p hp => nomatch hp⟩
  | key :: keys, pairs, h => by
    rw [componentsOf] at h
    cases hget : values.get? key with
    | none =>
      rw [hget] at h
      cases h
    | some v =>
      rw [hget] at h
      cases hnull : v.isNull with
      | true =>
        simp only [hnull, if_true] at h
        cases h
      | false =>
        simp only [hnull, Bool.false_eq_true, if_false, ok_bind, bind_eq_ok] at h
        obtain ⟨rest, hrest, heq⟩ := h
        cases heq
        obtain ⟨hkeys, hvalues⟩ := componentsOf_eq_ok hrest
        refine ⟨by rw [List.map_cons, hkeys], fun p hp => ?_⟩
        rcases List.mem_cons.1 hp with rfl | hp
        · exact ⟨hget, hnull⟩
        · exact hvalues p hp

theorem exists_componentsOf {e : Entity} {operation : String} {values : Record} :
    ∀ {keys : List String}, (∀ key ∈ keys, ∃ v, values.get? key = some v ∧ v.isNull = false) →
      ∃ pairs, componentsOf e operation values keys = .ok pairs
  | [], _ => ⟨[], rfl⟩
  | key :: keys, h => by
    obtain ⟨v, hv, hnull⟩ := h key List.mem_cons_self
    obtain ⟨rest, hrest⟩ : ∃ rest, componentsOf e operation values keys = .ok rest :=
      exists_componentsOf fun k hk => h k (List.mem_cons_of_mem key hk)
    refine ⟨(key, v) :: rest, ?_⟩
    simp only [componentsOf, hv, hnull, Bool.false_eq_true, if_false, ok_bind, hrest]

/-- The identity that is taken from a record. -/
theorem identityValues_compound {e : Entity} {operation : String} {values r : Record}
    (h : identityValues e operation (.compound values) = .ok r) :
    r.IsIdentity e ∧ ∀ key ∈ e.identity, r.get? key = values.get? key := by
  simp only [identityValues, bind_eq_ok] at h
  obtain ⟨pairs, hpairs, heq⟩ := h
  cases heq
  obtain ⟨hkeys, hvalues⟩ := componentsOf_eq_ok hpairs
  have hget := Record.get?_ofPairs fun p hp => (hvalues p hp).1
  rw [hkeys] at hget
  have hsome : ∀ key ∈ e.identity, ∃ v, values.get? key = some v ∧ v.isNull = false := by
    intro key hkey
    rw [← hkeys] at hkey
    obtain ⟨p, hp, rfl⟩ := List.mem_map.1 hkey
    exact ⟨p.2, hvalues p hp⟩
  refine ⟨⟨fun key hkey => ?_, fun key v hv => ?_⟩, fun key hkey => by rw [hget, if_pos hkey]⟩
  · obtain ⟨v, hv, _⟩ := hsome key hkey
    exact ⟨v, by rw [hget, if_pos hkey, hv]⟩
  · rw [hget] at hv
    split at hv
    · next hkey =>
      obtain ⟨w, hw, hnull⟩ := hsome key hkey
      rw [hw] at hv
      cases hv
      exact ⟨hkey, hnull⟩
    · cases hv

theorem identityValues_complete {e : Entity} {operation : String} {rowId : RowId} {r : Record}
    (h : identityValues e operation rowId = .ok r) : r.IsIdentity e := by
  cases rowId with
  | compound values => exact (identityValues_compound h).1
  | single v =>
    unfold identityValues at h
    cases hidentity : e.identity with
    | nil =>
      rw [hidentity] at h
      cases h
      refine ⟨fun key hkey => ?_, fun key v hv => nomatch hv⟩
      rw [hidentity] at hkey
      cases hkey
    | cons only others =>
      rw [hidentity] at h
      -- a single value is refused for an identity of several fields
      cases others with
      | cons second others => cases h
      | nil =>
        dsimp only at h
        split at h
        · cases h
        · next hnull =>
          cases h
          refine ⟨fun key hkey => ?_, fun key w hw => ?_⟩
          · rw [hidentity, List.mem_singleton] at hkey
            exact ⟨v, by rw [Record.get?_insert, if_pos hkey]⟩
          · rw [Record.get?_insert] at hw
            split at hw
            · next hkey =>
              cases hw
              exact ⟨hidentity ▸ List.mem_singleton.2 hkey, by simpa using hnull⟩
            · cases hw

end Store

/-! ## What is written -/

/-- What a record gives to a field, in its stored form; nothing for NULL if NULL is left out. -/
def Field.given (f : Field) (data : Record) (skipNulls : Bool) : Option Value :=
  ((data.get? f.key).map f.converter.stored).filter fun w => !(skipNulls && w.isNull)

/-- Nothing is left out unless NULL is. -/
theorem Field.given_false (f : Field) (data : Record) :
    f.given data false = (data.get? f.key).map f.converter.stored := by
  rw [given]
  cases data.get? f.key <;> rfl

/-- A field is given the stored form of the value that the record has for it, unless this is
left out. -/
theorem Field.given_of_get? {f : Field} {data : Record} {v : Value}
    (h : data.get? f.key = some v) (skipNulls : Bool) :
    f.given data skipNulls = if skipNulls && (f.converter.stored v).isNull then none
      else some (f.converter.stored v) := by
  rw [given, h, Option.map_some, Option.filter_some]
  cases skipNulls && (f.converter.stored v).isNull <;> rfl

namespace Store

/-- The fields that are given something, with what they are given. -/
def givenValues (data : Record) (skipNulls : Bool) (fs : List Field) : List (Field × Value) :=
  fs.filterMap fun f => (f.given data skipNulls).map fun stored => (f, stored)

section

variable {data : Record} {skipNulls : Bool} {fs : List Field}

/-- A field that is given nothing is not among them. -/
theorem givenValues_cons_none {f : Field} (h : f.given data skipNulls = none) :
    givenValues data skipNulls (f :: fs) = givenValues data skipNulls fs :=
  List.filterMap_cons_none (by rw [h, Option.map_none])

theorem givenValues_cons_some {f : Field} {stored : Value}
    (h : f.given data skipNulls = some stored) :
    givenValues data skipNulls (f :: fs) = (f, stored) :: givenValues data skipNulls fs :=
  List.filterMap_cons_some (by rw [h, Option.map_some])

/-- A field is among them with what it is given. -/
theorem mem_givenValues {f : Field} {stored : Value} :
    (f, stored) ∈ givenValues data skipNulls fs ↔
      f ∈ fs ∧ f.given data skipNulls = some stored := by
  simp only [givenValues, List.mem_filterMap, Option.map_eq_some_iff, Prod.mk.injEq]
  constructor
  · rintro ⟨_, hf, _, hgiven, rfl, rfl⟩
    exact ⟨hf, hgiven⟩
  · exact fun ⟨hf, hgiven⟩ => ⟨f, hf, stored, hgiven, rfl, rfl⟩

/-- The fields that are given something, in their order. -/
theorem map_fst_givenValues : ∀ fs : List Field, (givenValues data skipNulls fs).map Prod.fst =
    fs.filter fun f => (f.given data skipNulls).isSome
  | [] => rfl
  | f :: fs => by
    cases hgiven : f.given data skipNulls with
    | none =>
      rw [givenValues_cons_none hgiven, map_fst_givenValues fs,
        List.filter_cons_of_neg (by simp [hgiven])]
    | some stored =>
      rw [givenValues_cons_some hgiven, List.map_cons, map_fst_givenValues fs,
        List.filter_cons_of_pos (by simp [hgiven])]

/-- What is stored is what fields are given, and it is found exactly if every value that the record
has for them has a stored form. -/
theorem storedValues_eq_ok : ∀ {fs : List Field} {written : List (Field × Value)},
    storedValues data skipNulls fs = .ok written ↔
      (∀ f ∈ fs, ∀ v, data.get? f.key = some v →
        f.converter.toStored v = .ok (f.converter.stored v)) ∧
          written = givenValues data skipNulls fs
  | [], written => by simp [storedValues, givenValues, eq_comm]
  | f :: fs, written => by
    rw [storedValues, List.forall_mem_cons]
    cases hget : data.get? f.key with
    | none =>
      have hgiven : f.given data skipNulls = none := by rw [Field.given, hget]; rfl
      simp [storedValues_eq_ok, givenValues_cons_none hgiven]
    | some v =>
      have hgiven := Field.given_of_get? hget skipNulls
      have hcons : givenValues data skipNulls (f :: fs) =
          if skipNulls && (f.converter.stored v).isNull then givenValues data skipNulls fs
          else (f, f.converter.stored v) :: givenValues data skipNulls fs := by
        split at hgiven
        · next hnull => rw [givenValues_cons_none hgiven, if_pos hnull]
        · next hkept => rw [givenValues_cons_some hgiven, if_neg hkept]
      simp only [bind_eq_ok, storedValues_eq_ok, hcons]
      constructor
      · rintro ⟨stored, hstored, rest, ⟨hrest, rfl⟩, heq⟩
        cases heq
        obtain rfl := Converter.stored_of_toStored hstored
        refine ⟨⟨?_, hrest⟩, rfl⟩
        rintro _ ⟨⟩
        exact hstored
      · rintro ⟨⟨hstored, hrest⟩, rfl⟩
        exact ⟨_, hstored v rfl, _, ⟨hrest, rfl⟩, rfl⟩

end

/-- What is written to the field of a key. -/
def assigned (written : List (Field × Value)) (key : String) : Option Value :=
  (written.find? fun w => w.1.key == key).map Prod.snd

/-- What is written first to a key is what is written to it. -/
theorem assigned_cons (f : Field) (w : Value) (rest : List (Field × Value)) (key : String) :
    assigned ((f, w) :: rest) key = if f.key = key then some w else assigned rest key := by
  rw [assigned, assigned, List.find?_cons]
  by_cases hkey : f.key = key
  · simp [hkey]
  · rw [beq_eq_false_iff_ne.2 hkey, if_neg hkey]

theorem assigned_eq_none {written : List (Field × Value)} {key : String}
    (h : ∀ a ∈ written, a.1.key ≠ key) : assigned written key = none := by
  rw [assigned, List.find?_eq_none.2 fun a ha => by simpa using h a ha, Option.map_none]

theorem assigned_givenValues {data : Record} {skipNulls : Bool} {fs : List Field}
    (hdistinct : fs.Pairwise fun f g => f.key ≠ g.key) :
    ∀ f ∈ fs, assigned (givenValues data skipNulls fs) f.key = f.given data skipNulls := by
  induction fs with
  | nil => exact List.forall_mem_nil _
  | cons g fs ih =>
    intro f hf
    obtain ⟨hne, hdistinct⟩ := List.pairwise_cons.1 hdistinct
    cases hgiven : g.given data skipNulls with
    | none =>
      rw [givenValues_cons_none hgiven]
      rcases List.mem_cons.1 hf with rfl | hf
      · rw [hgiven]
        exact assigned_eq_none fun a ha => (hne a.1 (mem_givenValues.1 ha).1).symm
      · exact ih hdistinct f hf
    | some stored =>
      rw [givenValues_cons_some hgiven, assigned_cons]
      rcases List.mem_cons.1 hf with rfl | hf
      · rw [if_pos rfl, hgiven]
      · rw [if_neg (hne f hf)]
        exact ih hdistinct f hf

/-- Fields that statements may write are given what the record has for them; nothing is written
to other fields. -/
theorem assigned_writtenValues {e : Entity} (he : e.IsSound) {data : Record}
    {skipNulls : Bool} {written : List (Field × Value)}
    (h : writtenValues e data skipNulls = .ok written) {f : Field} (hf : f ∈ e.fields) :
    (f.isReadOnly = true → assigned written f.key = none) ∧
      (f.isReadOnly = false → assigned written f.key = f.given data skipNulls ∧
        ∀ v, data.get? f.key = some v → f.converter.toStored v = .ok (f.converter.stored v)) := by
  obtain ⟨hstored, rfl⟩ := storedValues_eq_ok.1 h
  refine ⟨fun hread => assigned_eq_none fun a ha hkey => ?_, fun hread => ?_⟩
  · obtain ⟨hg, hwritable⟩ := List.mem_filter.1 (mem_givenValues.1 ha).1
    rw [he.eq_of_key hg hf hkey, hread] at hwritable
    exact absurd hwritable (by decide)
  · have hwritable : f ∈ e.writable := List.mem_filter.2 ⟨hf, by rw [hread]; rfl⟩
    exact ⟨assigned_givenValues (he.keys.filter _) f hwritable, hstored f hwritable⟩

/-- An insert knows the columns of the fields that it writes. -/
theorem columnOf_of_insertStatement {e : Entity} {names : EntityNames} {d : Dialect}
    {data : Record} {written : List (Field × Value)} {t : Template}
    (hwritten : writtenValues e data true = .ok written)
    (h : insertStatement e names d data = .ok t) {key : String} {w : Value}
    (hkey : assigned written key = some w) : ∃ column, names.columnOf key = .ok column := by
  rw [assigned, Option.map_eq_some_iff] at hkey
  obtain ⟨⟨f, w'⟩, hfind, -⟩ := hkey
  obtain rfl : f.key = key := by simpa using List.find?_some hfind
  have hmem := List.mem_of_find?_eq_some hfind
  obtain ⟨others, hothers, _, hinsert, -⟩ := insertStatement_eq_ok.1 h
  cases hwritten.symm.trans hothers
  obtain ⟨hnil, -⟩ | ⟨-, columns, hcolumns, -⟩ := hinsert
  · exact absurd hnil (List.ne_nil_of_mem hmem)
  · obtain ⟨column, -, hcolumn⟩ := exists_of_forall₂ (columnTexts_eq_ok.1 hcolumns) f
      (List.mem_map_of_mem hmem)
    exact ⟨column, hcolumn⟩

end Store

/-! ## What a statement asks for -/

/-- The columns of entries, each with the stored form of its value. -/
def Entity.pins (e : Entity) (names : EntityNames) :
    List (String × Value) → Except Failure (List (String × Value))
  | [] => .ok []
  | (key, v) :: rest => do
    let (f, column) ← Condition.lookUp e names key
    let w ← f.converter.toStored v
    .ok ((column, w) :: (← e.pins names rest))

/-- A column is asked for a value. -/
def pinTest (p : String × Value) : Predicate := .one (.compare p.1 .eq p.2)

/-- The text that asks columns for their values. -/
def pinTemplate (pins : List (String × Value)) : Template :=
  Template.separated " and " (pins.map fun p => (pinTest p).template)

section

variable {e : Entity} {names : EntityNames}

/-- The condition of a comparison with a value that is not NULL. -/
theorem ofFilter_pin {a : String × Value} (hnull : a.2.isNull = false) :
    Condition.ofFilter e names (.compare a.1 .eq a.2) = (do
      let (f, column) ← Condition.lookUp e names a.1
      let w ← f.converter.toStored a.2
      .ok (.predicate (pinTest (column, w)))) := by
  rw [Condition.ofFilter]
  cases Condition.lookUp e names a.1 with
  | error failure => rfl
  | ok found =>
    obtain ⟨f, column⟩ := found
    cases hw : f.converter.toStored a.2 with
    | error failure => simp only [ok_bind, hw, error_bind]
    | ok w =>
      have hnull' : w.isNull = false := by rw [Converter.isNull_of_toStored hw, hnull]
      have hpin : Predicate.ofCompare a.1 column f.allowNull .eq w = .ok (pinTest (column, w)) := by
        simp [Predicate.ofCompare, hnull', pinTest]
      simp only [ok_bind, hw, hpin]

theorem ofFilters_pins : ∀ {entries : List (String × Value)},
    (∀ a ∈ entries, a.2.isNull = false) →
      Condition.ofFilters e names (entries.map fun a => .compare a.1 .eq a.2) = (do
        let pins ← e.pins names entries
        .ok (pins.map fun p => .predicate (pinTest p)))
  | [], _ => by
    rw [List.map_nil, Condition.ofFilters]
    rfl
  | a :: entries, h => by
    have hrest := ofFilters_pins fun b hb => h b (List.mem_cons_of_mem a hb)
    rw [List.map_cons, Condition.ofFilters, ofFilter_pin (h a List.mem_cons_self), hrest,
      Entity.pins]
    cases Condition.lookUp e names a.1 with
    | error failure => rfl
    | ok found =>
      cases hw : found.1.converter.toStored a.2 with
      | error failure => simp only [ok_bind, hw, error_bind]
      | ok w =>
        simp only [ok_bind, hw]
        cases e.pins names entries <;> rfl

/-- Tests have no raw text to work out. -/
theorem resolveAll_pins (pins : List (String × Value)) :
    Condition.resolveAll (RawPart.template names)
      (pins.map fun p => .predicate (pinTest p)) =
        .ok (pins.map fun p => .predicate (pinTest p)) := by
  induction pins with
  | nil =>
    rw [List.map_nil, Condition.resolveAll]
    rfl
  | cons p pins ih =>
    rw [List.map_cons, Condition.resolveAll, Condition.resolve, ok_bind, ih]
    rfl

/-- Nothing of a list of tests can be left out. -/
theorem conjuncts_pins (pins : List (String × Value)) :
    Condition.conjuncts (pins.map fun p => .predicate (pinTest p)) =
      some (pins.map fun p => .predicate (pinTest p)) := by
  induction pins with
  | nil =>
    rw [List.map_nil, Condition.conjuncts]
    rfl
  | cons p pins ih =>
    rw [List.map_cons, Condition.conjuncts, Condition.simplify, ih]
    rfl

/-- Tests stand in a conjunction as they are. -/
theorem memberTemplates_pins (pins : List (String × Value)) :
    Clause.memberTemplates (pins.map fun p => .predicate (pinTest p)) =
      pins.map fun p => (pinTest p).template := by
  induction pins with
  | nil => rfl
  | cons p pins ih =>
    rw [List.map_cons, Clause.memberTemplates, ih, Clause.template]
    rfl

theorem length_pins : ∀ {entries pins : List (String × Value)},
    e.pins names entries = .ok pins → pins.length = entries.length
  | [], pins, h => by
    cases h
    rfl
  | a :: entries, pins, h => by
    simp only [Entity.pins, bind_eq_ok] at h
    obtain ⟨⟨f, column⟩, _, w, _, rest, hrest, heq⟩ := h
    cases heq
    rw [List.length_cons, List.length_cons, length_pins hrest]

/-- What is asked for are the stored forms of the values, in the columns of the fields. -/
theorem mem_pins : ∀ {entries pins : List (String × Value)}, e.pins names entries = .ok pins →
    ∀ {column : String} {w : Value}, (column, w) ∈ pins ↔ ∃ a ∈ entries, ∃ f,
      Condition.lookUp e names a.1 = .ok (f, column) ∧ f.converter.toStored a.2 = .ok w
  | [], pins, h, column, w => by
    cases h
    simp
  | b :: entries, pins, h, column, w => by
    simp only [Entity.pins, bind_eq_ok] at h
    obtain ⟨⟨f, column'⟩, hlook, w', hw, rest, hrest, heq⟩ := h
    cases heq
    have ih : (column, w) ∈ rest ↔ _ := mem_pins hrest
    constructor
    · intro hmem
      rcases List.mem_cons.1 hmem with heq | hmem
      · cases heq
        exact ⟨b, List.mem_cons_self, f, hlook, hw⟩
      · obtain ⟨a, ha, hfound⟩ := ih.1 hmem
        exact ⟨a, List.mem_cons_of_mem b ha, hfound⟩
    · rintro ⟨a, ha, f', hlook', hw'⟩
      rcases List.mem_cons.1 ha with rfl | ha
      · rw [hlook] at hlook'
        cases hlook'
        rw [hw] at hw'
        cases hw'
        exact List.mem_cons_self
      · exact List.mem_cons_of_mem _ (ih.2 ⟨a, ha, f', hlook', hw'⟩)

/-- All fields that are asked for are known, and all values have stored forms. -/
theorem lookUp_of_pins : ∀ {entries pins : List (String × Value)},
    e.pins names entries = .ok pins → ∀ a ∈ entries, ∃ f column w,
      Condition.lookUp e names a.1 = .ok (f, column) ∧ f.converter.toStored a.2 = .ok w
  | b :: entries, pins, h, a, ha => by
    simp only [Entity.pins, bind_eq_ok] at h
    obtain ⟨⟨f, column⟩, hlook, w, hw, rest, hrest, _⟩ := h
    rcases List.mem_cons.1 ha with rfl | ha
    · exact ⟨f, column, w, hlook, hw⟩
    · exact lookUp_of_pins hrest a ha

theorem exists_pins : ∀ {entries : List (String × Value)},
    (∀ a ∈ entries, ∃ f column w, Condition.lookUp e names a.1 = .ok (f, column) ∧
      f.converter.toStored a.2 = .ok w) → ∃ pins, e.pins names entries = .ok pins
  | [], _ => ⟨[], rfl⟩
  | a :: entries, h => by
    obtain ⟨f, column, w, hlook, hw⟩ := h a List.mem_cons_self
    obtain ⟨rest, hrest⟩ := exists_pins fun b hb => h b (List.mem_cons_of_mem a hb)
    refine ⟨(column, w) :: rest, ?_⟩
    simp only [Entity.pins, hlook, hw, hrest, ok_bind]

/-- The text of a conjunction of tests. -/
theorem compile_and_pins {entries : List (String × Value)} (hlength : 2 ≤ entries.length)
    (hnull : ∀ a ∈ entries, a.2.isNull = false) :
    (Filter.and (entries.map fun a => .compare a.1 .eq a.2)).compile e names = (do
      .ok (some (pinTemplate (← e.pins names entries)))) := by
  rw [Filter.compile, Condition.ofFilter, ofFilters_pins hnull]
  cases hpins : e.pins names entries with
  | error failure => rfl
  | ok pins =>
    rw [← length_pins hpins] at hlength
    have hawait : Condition.await names (.and (pins.map fun p => .predicate (pinTest p))) =
        .ok (.and (pins.map fun p => .predicate (pinTest p))) := by
      rw [Condition.await_eq_ok, Condition.resolve, resolveAll_pins, ok_bind]
    simp only [ok_bind, hawait, Condition.simplify, conjuncts_pins]
    -- two tests or more stay a conjunction
    obtain ⟨p, q, rest, rfl⟩ : ∃ p q rest, pins = p :: q :: rest := by
      cases pins with
      | nil => exact absurd hlength (by decide)
      | cons p rest =>
        cases rest with
        | nil => exact absurd hlength (by simp)
        | cons q rest => exact ⟨p, q, rest, rfl⟩
    have hmembers := memberTemplates_pins (p :: q :: rest)
    simp only [List.map_cons] at hmembers
    simp only [List.map_cons, Simplified.ofAll, Simplified.template?, Clause.template, hmembers,
      pinTemplate]

theorem compile_pin {a : String × Value} (hnull : a.2.isNull = false) :
    (Filter.compare a.1 .eq a.2).compile e names = (do
      .ok (some (pinTemplate (← e.pins names [a])))) := by
  rw [Filter.compile, ofFilter_pin hnull, Entity.pins, Entity.pins]
  cases Condition.lookUp e names a.1 with
  | error failure => rfl
  | ok found =>
    cases hw : found.1.converter.toStored a.2 with
    | error failure => simp only [ok_bind, hw, error_bind]
    | ok w =>
      simp only [ok_bind, hw, Condition.await_predicate, Condition.simplify, Simplified.template?,
        Clause.template, pinTemplate, List.map_cons, List.map_nil, Template.separated]

/-- The filter of an identity asks each of its columns for the stored value. -/
theorem whereClause_identityFilter (he : e.IsSound) {r : Record} (hr : r.IsIdentity e) :
    (Store.identityFilter r).whereClause e names = (do
      .ok (.text " where " :: pinTemplate (← e.pins names r.entries))) := by
  have hnull : ∀ a ∈ r.entries, a.2.isNull = false := fun a ha => hr.isNull_of_mem ha
  have hcompile : (Store.identityFilter r).compile e names = (do
      .ok (some (pinTemplate (← e.pins names r.entries)))) := by
    unfold Store.identityFilter
    cases hentries : r.entries with
    | nil => exact absurd hentries (hr.entries_ne_nil he)
    | cons a rest =>
      rw [hentries] at hnull
      cases rest with
      | nil => exact compile_pin (hnull a List.mem_cons_self)
      | cons b rest => exact compile_and_pins (by simp) hnull
  rw [Filter.whereClause, hcompile]
  cases e.pins names r.entries <;> rfl

/-- The clause of an identity is made of what each of its columns is asked for. -/
theorem exists_pins_of_whereClause (he : e.IsSound) {r : Record} (hr : r.IsIdentity e)
    {clause : Template} (h : (Store.identityFilter r).whereClause e names = .ok clause) :
    ∃ pins, e.pins names r.entries = .ok pins ∧ clause = .text " where " :: pinTemplate pins := by
  rw [whereClause_identityFilter he hr] at h
  obtain ⟨pins, hpins, heq⟩ := bind_eq_ok.1 h
  cases heq
  exact ⟨pins, hpins, rfl⟩

end

end EntitySql
