import EntitySql.Proofs.TableTexts
import EntitySql.Store.Basic
import Mathlib.Data.List.Nodup

/-!
# Well-formed entities

An entity is built of fields with keys of their own, whose columns, if they have
any, are their own as well, and of an identity of fields that have a column.
Nothing else is asked for: the same field may be named twice in the identity.
Then the primary key of the table has the column twice, and a row cannot be
addressed by the value of its only identity field.

- `Entity.IsSound.primaryKeys`: a table has one primary key, over the identity.
- `Entity.IsSound.nodup_keyColumns_iff`: when no column is twice in it.
- `Entity.identityValues_single_iff`: when a single value addresses a row.
- `Entity.build_accepts_iff`: what is built, and what is known of it.
-/

namespace EntitySql

namespace Entity

variable {e : Entity}

/-! ## Identity fields -/

/-- The fields of the identity are those of its keys, in their order. -/
theorem IsSound.map_key_identityFields (he : e.IsSound) :
    e.identityFields.map Field.key = e.identity := by
  have hall : ∀ ids : List String, (∀ key ∈ ids, ∃ f, e.field key = .ok f ∧ f.hasColumn = true) →
      (ids.filterMap e.field?).map Field.key = ids := by
    intro ids hids
    induction ids with
    | nil => rfl
    | cons id ids ih =>
      obtain ⟨⟨f, hf, -⟩, hrest⟩ := List.forall_mem_cons.1 hids
      rw [List.filterMap_cons_some (field_eq_ok.1 hf), List.map_cons, ih hrest, (mem_of_field hf).2]
  exact hall e.identity he.identity_found

theorem IsSound.mem_identityFields (he : e.IsSound) {f : Field} (hf : f ∈ e.identityFields) :
    f ∈ e.fields ∧ f.hasColumn = true := by
  obtain ⟨key, hkey, hfound⟩ := List.mem_filterMap.1 hf
  obtain ⟨g, hg, hcolumn⟩ := he.identity_found key hkey
  obtain rfl : f = g := Option.some.inj (hfound.symm.trans (field_eq_ok.1 hg))
  exact ⟨List.mem_of_find?_eq_some hfound, hcolumn⟩

/-- The identity that the database numbers is the only identity field. -/
theorem IsSound.identityFields_of_auto (he : e.IsSound) {g : Field}
    (hauto : e.autoIdentity? = some g) : e.identityFields = [g] := by
  unfold autoIdentity? at hauto
  split at hauto
  · next only hidentity =>
    obtain ⟨f, hf, -⟩ := he.identity_found only (hidentity ▸ List.mem_singleton_self only)
    have hg : g ∈ e.fields := List.mem_of_find?_eq_some hauto
    have hkey : g.key = only := by
      have hfound := List.find?_some hauto
      simp only [Bool.and_eq_true, beq_iff_eq] at hfound
      exact hfound.1
    obtain ⟨hmem, hfkey⟩ := mem_of_field hf
    obtain rfl := he.eq_of_key hmem hg (hfkey.trans hkey.symm)
    rw [identityFields, hidentity, List.filterMap_cons_some (field_eq_ok.1 hf), List.filterMap_nil]
  · cases hauto

/-! ## The primary key -/

section

variable (wrap : String → String)

/-- The columns of a table are those of the fields that have one. -/
theorem columns_tableDefinition (e : Entity) : (e.tableDefinition wrap).columns =
    (e.fields.filter Field.hasColumn).map (e.tableColumn wrap) := by
  have hkeys : (if e.autoIdentity?.isSome then [] else [.key (e.keyColumns wrap)] :
      List TableItem).filterMap TableItem.column? = [] := by
    split <;> rfl
  rw [TableDefinition.columns, tableDefinition, List.filterMap_append, hkeys, List.append_nil,
    List.filterMap_map]
  exact congrFun List.filterMap_eq_map _

theorem names_tableDefinition (e : Entity) : (e.tableDefinition wrap).names =
    (e.fields.filter Field.hasColumn).map fun f => wrap f.column := by
  rw [TableDefinition.names, columns_tableDefinition, List.map_map]
  refine List.map_congr_left fun f _ => ?_
  rw [Function.comp_apply, tableColumn]
  split <;> rfl

/-- Of fields with keys of their own one has the key of a given one. -/
theorem filterMap_key {α : Type} (h : Field → α) {g : Field} : ∀ {fs : List Field},
    fs.Pairwise (fun f f' => f.key ≠ f'.key) → g ∈ fs →
      fs.filterMap (fun f => if f.key = g.key then some (h f) else none) = [h g]
  | f :: fs, hkeys, hmem => by
    obtain ⟨hdistinct, hkeys⟩ := List.pairwise_cons.1 hkeys
    rcases List.mem_cons.1 hmem with rfl | hmem
    · have hrest : fs.filterMap (fun f => if f.key = g.key then some (h f) else none) = [] :=
        List.filterMap_eq_nil_iff.2 fun f hf => if_neg (Ne.symm (hdistinct f hf))
      rw [List.filterMap_cons, if_pos rfl, hrest]
    · rw [List.filterMap_cons, if_neg (hdistinct g hmem)]
      exact filterMap_key h hkeys hmem

/-- A table has one primary key, over the columns of the identity. -/
theorem IsSound.primaryKeys (he : e.IsSound) :
    (e.tableDefinition wrap).primaryKeys = [e.keyColumns wrap] := by
  have hinline : ((e.fields.filter Field.hasColumn).map fun f =>
      TableItem.column (e.tableColumn wrap f)).filterMap TableItem.key? =
        (e.fields.filter Field.hasColumn).filterMap fun f =>
          if e.numbers f then some [wrap f.column] else none := by
    rw [List.filterMap_map]
    refine List.filterMap_congr fun f _ => ?_
    rw [Function.comp_apply, tableColumn]
    split <;> rfl
  rw [TableDefinition.primaryKeys, tableDefinition, List.filterMap_append, hinline]
  cases hauto : e.autoIdentity? with
  | none =>
    have hnone : ((e.fields.filter Field.hasColumn).filterMap fun f =>
        if e.numbers f then some [wrap f.column] else none) = [] :=
      List.filterMap_eq_nil_iff.2 fun f _ => if_neg fun hnumbers => by
        rw [numbers, hauto] at hnumbers
        cases hnumbers
    rw [hnone]
    rfl
  | some g =>
    have hfields := he.identityFields_of_auto hauto
    obtain ⟨hmem, hcolumn⟩ := he.mem_identityFields (hfields ▸ List.mem_singleton_self g)
    have hone := filterMap_key (fun f => [wrap f.column]) (he.keys.filter Field.hasColumn)
      (List.mem_filter.2 ⟨hmem, hcolumn⟩)
    have hnumbers : (fun f => if e.numbers f then some [wrap f.column] else none) =
        fun f : Field => if f.key = g.key then some [wrap f.column] else none := by
      funext f
      simp only [numbers, hauto, Option.map_some, Option.some.injEq, eq_comm]
    rw [hnumbers, hone, keyColumns, hfields]
    rfl

/-- A sound entity creates its table. -/
theorem IsSound.creates (he : e.IsSound) : e.Creates wrap (e.tableDefinition wrap) := by
  refine e.creates_tableDefinition wrap fun _ hnil => he.identity_ne ?_
  rw [← he.map_key_identityFields, hnil, List.map_nil]

/-- A way to wrap names tells the columns of an entity apart. -/
def KeepsApart (e : Entity) : Prop :=
  ∀ f ∈ e.fields, ∀ g ∈ e.fields, f.hasColumn = true → g.hasColumn = true →
    wrap f.column = wrap g.column → f.column = g.column

/-- The primary key has no column twice if the identity has no key twice, where wrapped names tell
the columns apart. -/
theorem IsSound.nodup_keyColumns_iff (he : e.IsSound)
    (hcolumns : ((e.fields.filter Field.hasColumn).map Field.column).Nodup)
    (hwrap : e.KeepsApart wrap) : (e.keyColumns wrap).Nodup ↔ e.identity.Nodup := by
  constructor
  · intro h
    rw [← he.map_key_identityFields]
    exact (List.Nodup.of_map _ h).map_on fun f hf g hg =>
      he.eq_of_key (he.mem_identityFields hf).1 (he.mem_identityFields hg).1
  · intro h
    rw [← he.map_key_identityFields] at h
    refine (List.Nodup.of_map _ h).map_on fun f hf g hg hsame => ?_
    obtain ⟨hf, hf'⟩ := he.mem_identityFields hf
    obtain ⟨hg, hg'⟩ := he.mem_identityFields hg
    exact List.inj_on_of_nodup_map hcolumns (List.mem_filter.2 ⟨hf, hf'⟩)
      (List.mem_filter.2 ⟨hg, hg'⟩) (hwrap f hf g hg hf' hg' hsame)

end

/-! ## Addresses -/

/-- A single value addresses a row of an entity with one identity field if this is named once. -/
theorem identityValues_single_iff {only : String} (hne : e.identity ≠ [])
    (honly : ∀ key ∈ e.identity, key = only) {v : Value} (hv : v.isNull = false)
    (operation : String) :
    (∃ r, Store.identityValues e operation (.single v) = .ok r) ↔ e.identity.Nodup := by
  rw [Store.identityValues]
  rcases hidentity : e.identity with _ | ⟨key, _ | ⟨second, rest⟩⟩
  · exact absurd hidentity hne
  · simp [hv]
  · have hsame : key = second := by
      rw [honly key (by simp [hidentity]), honly second (by simp [hidentity])]
    simp [hsame]

/-! ## What is built -/

/-- The first field is the identity unless others are named, and is named once. -/
theorem nodup_declaredIdentity_iff {fields : List Field} {identity : List String} :
    (declaredIdentity fields identity).Nodup ↔ identity.Nodup := by
  rw [declaredIdentity]
  cases identity with
  | nil => rcases fields with _ | ⟨f, fields⟩ <;> simp
  | cons id ids => rfl

/-- An entity is built if its parts are well-formed, and exactly then. It has the declared identity,
which is not empty. No key is twice in it if none is twice among those that were named, and exactly
then no column is twice in the primary key of its table, where wrapped names tell its columns apart,
and a single value addresses a row if there is one identity field. -/
theorem build_accepts_iff (key : String) (table : Option String) (fields : List Field)
    (identity : List String) :
    ((∃ e, build key table fields identity = .ok e) ↔ IsWellFormed fields identity) ∧
    ∀ e, build key table fields identity = .ok e →
      e.fields = fields ∧ e.identity = declaredIdentity fields identity ∧ e.identity ≠ [] ∧
      (e.identity.Nodup ↔ identity.Nodup) ∧
      (∀ wrap, e.KeepsApart wrap → ∃ d columns, e.Creates wrap d ∧ d.primaryKeys = [columns] ∧
        (columns.Nodup ↔ identity.Nodup)) ∧
      ∀ only, (∀ id ∈ e.identity, id = only) → ∀ operation v, v.isNull = false →
        ((∃ r, Store.identityValues e operation (.single v) = .ok r) ↔ identity.Nodup) := by
  refine ⟨⟨fun ⟨e, he⟩ => (build_eq_ok_iff.1 he).1, fun h => ⟨_, build_eq_ok_iff.2 ⟨h, rfl⟩⟩⟩,
    fun e he => ?_⟩
  have hsound := isSound_of_build he
  have hcolumns := nodup_columns_of_build he true
  have hparts := (build_eq_ok_iff.1 he).2
  have hidentity : e.identity = declaredIdentity fields identity := by rw [hparts]
  have hnodup : e.identity.Nodup ↔ identity.Nodup := hidentity ▸ nodup_declaredIdentity_iff
  refine ⟨by rw [hparts], hidentity, hsound.identity_ne, hnodup, fun wrap hwrap =>
    ⟨_, _, hsound.creates wrap, hsound.primaryKeys wrap, ?_⟩, fun only honly operation v hv => ?_⟩
  · exact (hsound.nodup_keyColumns_iff wrap hcolumns hwrap).trans hnodup
  · exact (identityValues_single_iff hsound.identity_ne honly hv operation).trans hnodup

/-- An entity that names its field twice as its identity. -/
def twice : Entity := ⟨"pair", "pair", [.ofType "a" .integer], ["a", "a"]⟩

/-- A field that is named twice in the identity passes the checks. The primary key has its column
twice, and its value does not address a row. -/
theorem twice_is_built : build "pair" none [.ofType "a" .integer] ["a", "a"] = .ok twice ∧
    ¬ twice.identity.Nodup ∧
    twice.createTable .bare =
      "create table if not exists pair (a integer default 0 not null, primary key (a, a))" ∧
    Store.identityValues twice "find" (.single (.integer 1)) =
      .error (.missingIdentity "pair" "find" "a") :=
  ⟨rfl, by decide, by decide, rfl⟩

end Entity

end EntitySql
