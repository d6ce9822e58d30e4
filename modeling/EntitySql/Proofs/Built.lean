import EntitySql.Proofs.Stored
import Mathlib.Data.List.Nodup
import Mathlib.Data.List.Pairwise

/-!
# Entities that were built

An entity is checked when it is built: its fields have keys of their own, and
its identity names fields that have a column. Documents that are stored as text
change nothing about that.

- `Entity.IsSound`: what the checks are for.
- `Entity.IsWellFormed`, `Entity.build_eq_ok_iff`: what an entity is built of.
- `Entity.isSound_of_build`, `Entity.IsSound.storedAs`: entities that were built
  are sound, however they are stored.
- `BuiltEntity`: entities that were built.
-/

namespace EntitySql

namespace Entity

/-- The fields have keys of their own, and some of them with a column are the identity. -/
structure IsSound (e : Entity) : Prop where
  keys : e.fields.Pairwise fun f g => f.key ≠ g.key
  identity_ne : e.identity ≠ []
  identity_found : ∀ key ∈ e.identity, ∃ f, e.field key = .ok f ∧ f.hasColumn = true

/-- The field of a key is the only one with that key. -/
theorem IsSound.eq_of_key {e : Entity} (h : e.IsSound) {f g : Field} (hf : f ∈ e.fields)
    (hg : g ∈ e.fields) (hkey : f.key = g.key) : f = g := by
  have : Std.Symm fun f g : Field => f.key ≠ g.key := ⟨fun _ _ => Ne.symm⟩
  exact Classical.byContradiction fun hne => List.Pairwise.forall h.keys hf hg hne hkey

/-- A field is found by its key, among all fields or some of them. -/
theorem IsSound.find?_key {e : Entity} (h : e.IsSound) {fs : List Field} (hfs : fs ⊆ e.fields)
    {f : Field} (hf : f ∈ fs) : fs.find? (fun g => g.key == f.key) = some f := by
  cases hfound : fs.find? fun g => g.key == f.key with
  | none => exact absurd (by simp) (List.find?_eq_none.1 hfound f hf)
  | some g =>
    have hg : g ∈ fs := List.mem_of_find?_eq_some hfound
    have hkey : g.key = f.key := by simpa using List.find?_some hfound
    rw [h.eq_of_key (hfs hg) (hfs hf) hkey]

theorem IsSound.field_of_mem {e : Entity} (h : e.IsSound) {f : Field} (hf : f ∈ e.fields) :
    e.field f.key = .ok f := by
  rw [field, field?, h.find?_key (List.Subset.refl _) hf]

/-- Among the names of an entity is the text for each field that the database knows. -/
theorem IsSound.columnOf_resolveBy {e : Entity} (he : e.IsSound) (wrap : String → String)
    {f : Field} (hf : f ∈ e.selected) :
    (EntityNames.resolveBy e wrap).columnOf f.key = .ok (EntityNames.fieldTextBy wrap f) := by
  have hfind : e.selected.find? (fun g => g.key == f.key) = some f :=
    he.find?_key List.filter_sublist.subset hf
  rw [EntityNames.columnOf, EntityNames.find?_resolveBy, hfind, Option.map_some]

theorem IsSound.exists_identity {e : Entity} (h : e.IsSound) : ∃ key, key ∈ e.identity :=
  List.exists_mem_of_ne_nil _ h.identity_ne

/-! ## The checks -/

/-- Fields that pass the check have keys of their own, and none of the keys before them. -/
theorem checkFields_keys {entity : String} : ∀ {fs : List Field} {keys columns : List String},
    checkFields entity keys columns fs = .ok () →
      fs.Pairwise (fun f g => f.key ≠ g.key) ∧ ∀ f ∈ fs, f.key ∉ keys
  | [], _, _, _ => ⟨.nil, fun f hf => nomatch hf⟩
  | f :: fs, keys, columns, h => by
    rw [checkFields] at h
    split at h
    · cases h
    · next hkey =>
      -- whatever its column, the field is checked against by its key from now on
      have hrest : ∃ columns, checkFields entity (f.key :: keys) columns fs = .ok () := by
        split at h
        · split at h
          · cases h
          · exact ⟨_, h⟩
        · exact ⟨_, h⟩
      obtain ⟨columns', hrest⟩ := hrest
      obtain ⟨hdistinct, hnew⟩ := checkFields_keys hrest
      refine ⟨List.pairwise_cons.2 ⟨fun g hg heq => ?_, hdistinct⟩, fun g hg => ?_⟩
      · exact hnew g hg (heq ▸ List.mem_cons_self)
      · rcases List.mem_cons.1 hg with rfl | hg
        · simpa using hkey
        · exact fun hmem => hnew g hg (List.mem_cons_of_mem _ hmem)

theorem checkFields_columns {entity : String} : ∀ {fs : List Field} {keys columns : List String},
    checkFields entity keys columns fs = .ok () →
      ((fs.filter Field.hasColumn).map Field.column).Nodup ∧
        ∀ f ∈ fs, f.hasColumn = true → f.column ∉ columns
  | [], _, _, _ => ⟨.nil, fun _ hf => nomatch hf⟩
  | f :: fs, keys, columns, h => by
    rw [checkFields] at h
    split at h
    · cases h
    · split at h
      · next hcolumn =>
        split at h
        · cases h
        · next hnew =>
          obtain ⟨hdistinct, hrest⟩ := checkFields_columns h
          rw [List.filter_cons_of_pos hcolumn, List.map_cons, List.nodup_cons]
          refine ⟨⟨fun hmem => ?_, hdistinct⟩, fun g hg hg' => ?_⟩
          · obtain ⟨g, hg, hsame⟩ := List.mem_map.1 hmem
            obtain ⟨hg, hg'⟩ := List.mem_filter.1 hg
            exact hrest g hg hg' (hsame ▸ List.mem_cons_self)
          · rcases List.mem_cons.1 hg with rfl | hg
            · simpa using hnew
            · exact fun hmem => hrest g hg hg' (List.mem_cons_of_mem _ hmem)
      · next hcolumn =>
        obtain ⟨hdistinct, hrest⟩ := checkFields_columns h
        rw [List.filter_cons_of_neg hcolumn]
        refine ⟨hdistinct, fun g hg hg' => ?_⟩
        rcases List.mem_cons.1 hg with rfl | hg
        · exact absurd hg' hcolumn
        · exact hrest g hg hg'

/-- An identity that passes the check names fields with a column. -/
theorem checkIdentity_found {e : Entity} : ∀ {ids : List String}, checkIdentity e ids = .ok () →
    ∀ key ∈ ids, ∃ f, e.field key = .ok f ∧ f.hasColumn = true
  | id :: ids, h, key, hkey => by
    simp only [checkIdentity, bind_eq_ok] at h
    obtain ⟨f, hf, h⟩ := h
    split at h
    · next hcolumn =>
      rcases List.mem_cons.1 hkey with rfl | hkey
      · exact ⟨f, hf, hcolumn⟩
      · exact checkIdentity_found h key hkey
    · cases h

/-- Fields pass the check if they have keys and columns of their own, and none of those before
them. -/
theorem checkFields_eq_ok {entity : String} : ∀ {fs : List Field} {keys columns : List String},
    (fs.map Field.key).Nodup → (∀ f ∈ fs, f.key ∉ keys) →
      ((fs.filter Field.hasColumn).map Field.column).Nodup →
        (∀ f ∈ fs, f.hasColumn = true → f.column ∉ columns) →
          checkFields entity keys columns fs = .ok ()
  | [], _, _, _, _, _, _ => rfl
  | f :: fs, keys, columns, hkeys, hnew, hcolumns, hfree => by
    obtain ⟨hkey, hkeys⟩ := List.nodup_cons.1 hkeys
    obtain ⟨hnewKey, hnew⟩ := List.forall_mem_cons.1 hnew
    obtain ⟨hfreeColumn, hfree⟩ := List.forall_mem_cons.1 hfree
    have hnew : ∀ g ∈ fs, g.key ∉ f.key :: keys := fun g hg hmem => by
      rcases List.mem_cons.1 hmem with heq | hmem
      · exact hkey (List.mem_map.2 ⟨g, hg, heq⟩)
      · exact hnew g hg hmem
    rw [checkFields, if_neg (by simpa using hnewKey)]
    by_cases hcolumn : f.hasColumn = true
    · rw [List.filter_cons_of_pos hcolumn, List.map_cons, List.nodup_cons] at hcolumns
      rw [if_pos hcolumn, if_neg (by simpa using hfreeColumn hcolumn)]
      refine checkFields_eq_ok hkeys hnew hcolumns.2 fun g hg hg' hmem => ?_
      rcases List.mem_cons.1 hmem with heq | hmem
      · exact hcolumns.1 (List.mem_map.2 ⟨g, List.mem_filter.2 ⟨hg, hg'⟩, heq⟩)
      · exact hfree g hg hg' hmem
    · rw [List.filter_cons_of_neg hcolumn] at hcolumns
      rw [if_neg hcolumn]
      exact checkFields_eq_ok hkeys hnew hcolumns hfree

theorem checkIdentity_eq_ok {e : Entity} : ∀ {ids : List String},
    (∀ key ∈ ids, ∃ f, e.field key = .ok f ∧ f.hasColumn = true) → checkIdentity e ids = .ok ()
  | [], _ => rfl
  | id :: ids, h => by
    obtain ⟨⟨f, hf, hcolumn⟩, hrest⟩ := List.forall_mem_cons.1 h
    simp only [checkIdentity, hf, ok_bind, hcolumn, if_true]
    exact checkIdentity_eq_ok hrest

/-- The identity that an entity is declared with: the first field unless others are named. -/
def declaredIdentity (fields : List Field) (identity : List String) : List String :=
  if identity.isEmpty then (fields.take 1).map Field.key else identity

/-- At least one field, with keys of their own and with columns of their own, and an identity of
fields that have a column. -/
structure IsWellFormed (fields : List Field) (identity : List String) : Prop where
  fields_ne : fields ≠ []
  keys : (fields.map Field.key).Nodup
  columns : ((fields.filter Field.hasColumn).map Field.column).Nodup
  identity_found : ∀ id ∈ declaredIdentity fields identity,
    ∃ f ∈ fields, f.key = id ∧ f.hasColumn = true

/-- Among fields with keys of their own a field is found by its key. -/
theorem field_of_nodup {e : Entity} (h : (e.fields.map Field.key).Nodup) {f : Field}
    (hf : f ∈ e.fields) : e.field f.key = .ok f := by
  rw [field_eq_ok, field?]
  cases hfound : e.fields.find? fun g => g.key == f.key with
  | none => exact absurd (beq_self_eq_true f.key) (List.find?_eq_none.1 hfound f hf)
  | some g =>
    have hkey : g.key = f.key := by simpa using List.find?_some hfound
    rw [List.inj_on_of_nodup_map h (List.mem_of_find?_eq_some hfound) hf hkey]

/-- An entity is built of parts that are well-formed. -/
theorem build_eq_ok_iff {key : String} {table : Option String} {fields : List Field}
    {identity : List String} {e : Entity} : build key table fields identity = .ok e ↔
      IsWellFormed fields identity ∧
        e = ⟨key, table.getD key, fields, declaredIdentity fields identity⟩ := by
  cases fields with
  | nil => exact ⟨fun h => (nomatch h), fun h => absurd rfl h.1.fields_ne⟩
  | cons first rest =>
    have hdeclared : (if identity.isEmpty then [first.key] else identity) =
        declaredIdentity (first :: rest) identity := rfl
    simp only [build, bind_eq_ok, Except.ok.injEq, hdeclared]
    constructor
    · rintro ⟨⟨⟩, hfields, ⟨⟩, hidentity, rfl⟩
      refine ⟨⟨List.cons_ne_nil _ _, List.pairwise_map.2 (checkFields_keys hfields).1,
        (checkFields_columns hfields).1, fun id hid => ?_⟩, rfl⟩
      obtain ⟨f, hf, hcolumn⟩ := checkIdentity_found hidentity id hid
      exact ⟨f, (mem_of_field hf).1, (mem_of_field hf).2, hcolumn⟩
    · rintro ⟨h, rfl⟩
      refine ⟨(), checkFields_eq_ok h.keys (fun _ _ => List.not_mem_nil) h.columns
        (fun _ _ _ => List.not_mem_nil), (), checkIdentity_eq_ok fun id hid => ?_, rfl⟩
      obtain ⟨f, hf, rfl, hcolumn⟩ := h.identity_found id hid
      exact ⟨f, field_of_nodup h.keys hf, hcolumn⟩

/-- An entity that was built is sound. -/
theorem isSound_of_build {key : String} {table : Option String} {fields : List Field}
    {identity : List String} {e : Entity} (h : build key table fields identity = .ok e) :
    e.IsSound := by
  obtain ⟨hparts, rfl⟩ := build_eq_ok_iff.1 h
  refine ⟨List.pairwise_map.1 hparts.keys, ?_, fun id hid => ?_⟩
  · obtain ⟨f, fs, rfl⟩ := List.exists_cons_of_ne_nil hparts.fields_ne
    cases identity <;> exact List.cons_ne_nil _ _
  · obtain ⟨f, hf, rfl, hcolumn⟩ := hparts.identity_found id hid
    exact ⟨f, field_of_nodup hparts.keys hf, hcolumn⟩

/-! ## Documents as text -/

/-- A field as it is stored, where the documents of the given keys are stored as text. -/
def storeField (keys : List String) (f : Field) : Field :=
  if f.key ∈ keys then { f with converter := .jsonText } else f

/-- A field keeps its key and its column however documents are stored. -/
theorem storeField_key (keys : List String) (f : Field) :
    (storeField keys f).key = f.key ∧ (storeField keys f).hasColumn = f.hasColumn := by
  unfold storeField
  split <;> exact ⟨rfl, rfl⟩

/-- Converters replaced one after the other are replaced at once. -/
theorem foldl_withConverter : ∀ (keys : List String) (e : Entity),
    keys.foldl (fun e key => e.withConverter key .jsonText) e =
      { e with fields := e.fields.map (storeField keys) }
  | [], e => by
    have hsame : storeField [] = id := funext fun f => by simp [storeField]
    rw [hsame, List.map_id, List.foldl_nil]
  | key :: keys, e => by
    rw [List.foldl_cons, foldl_withConverter keys, withConverter, List.map_map]
    congr 2
    funext f
    by_cases hkey : f.key = key <;> simp [storeField, hkey]

/-- Where there are no columns for documents, they are stored as text in the fields of their
keys. -/
theorem storedAs_false (e : Entity) :
    e.storedAs false = { e with fields := e.fields.map (storeField e.documentKeys) } :=
  foldl_withConverter e.documentKeys e

/-- The field of a key is the same one, however documents are stored. -/
theorem field_map_storeField {e : Entity} {key : String} {f : Field} (keys : List String)
    (h : e.field key = .ok f) :
    ({ e with fields := e.fields.map (storeField keys) } : Entity).field key =
      .ok (storeField keys f) := by
  have hkey : ((fun f => f.key == key) ∘ storeField keys) = fun f : Field => f.key == key :=
    funext fun f => by rw [Function.comp_apply, (storeField_key keys f).1]
  have hfind := field_eq_ok.1 h
  rw [field?] at hfind
  rw [field, field?, List.find?_map, hkey, hfind]
  rfl

/-- A sound entity is sound however documents are stored. -/
theorem IsSound.storedAs {e : Entity} (h : e.IsSound) (hasJsonColumns : Bool) :
    (e.storedAs hasJsonColumns).IsSound := by
  cases hasJsonColumns with
  | true => exact h
  | false =>
    rw [storedAs_false]
    refine ⟨List.pairwise_map.2 (h.keys.imp ?_), h.identity_ne, fun key hkey => ?_⟩
    · intro f g hfg
      rwa [(storeField_key _ f).1, (storeField_key _ g).1]
    · obtain ⟨f, hf, hcolumn⟩ := h.identity_found key hkey
      exact ⟨_, field_map_storeField _ hf, by rw [(storeField_key _ f).2, hcolumn]⟩

/-- The names of an entity are the same however documents are stored. -/
theorem resolveBy_storedAs (e : Entity) (hasJsonColumns : Bool) (wrap : String → String) :
    EntityNames.resolveBy (e.storedAs hasJsonColumns) wrap = .resolveBy e wrap := by
  cases hasJsonColumns with
  | true => rfl
  | false =>
    have hknown : (fun f => !f.isServerExpression) ∘ storeField e.documentKeys =
        fun f : Field => !f.isServerExpression := by
      funext f
      rw [Function.comp_apply, storeField]
      split <;> rfl
    have htext : (fun f => (f.key, EntityNames.fieldTextBy wrap f)) ∘ storeField e.documentKeys =
        fun f => (f.key, EntityNames.fieldTextBy wrap f) := by
      funext f
      rw [Function.comp_apply, storeField]
      split <;> rfl
    rw [storedAs_false, EntityNames.resolveBy, EntityNames.resolveBy, selected, selected,
      List.filter_map, List.map_map, hknown, htext]

/-- The columns of an entity that was built are its fields' own, however documents are stored. -/
theorem nodup_columns_of_build {key : String} {table : Option String} {fields : List Field}
    {identity : List String} {e : Entity} (h : build key table fields identity = .ok e)
    (hasJsonColumns : Bool) :
    (((e.storedAs hasJsonColumns).fields.filter Field.hasColumn).map Field.column).Nodup := by
  have hbuilt : ((e.fields.filter Field.hasColumn).map Field.column).Nodup := by
    obtain ⟨hparts, rfl⟩ := build_eq_ok_iff.1 h
    exact hparts.columns
  cases hasJsonColumns with
  | true => exact hbuilt
  | false =>
    have hhas : Field.hasColumn ∘ storeField e.documentKeys = Field.hasColumn :=
      funext fun f => (storeField_key _ f).2
    have hcolumn : Field.column ∘ storeField e.documentKeys = Field.column := by
      funext f
      rw [Function.comp_apply, storeField]
      split <;> rfl
    rw [storedAs_false, List.filter_map, hhas, List.map_map, hcolumn]
    exact hbuilt

end Entity

/-! ## What was built -/

/-- An entity that was built. -/
structure BuiltEntity extends Entity where
  /-- What it was built of passed the checks. -/
  isBuilt : ∃ key table fields identity, Entity.build key table fields identity = .ok toEntity

namespace BuiltEntity

instance : Coe BuiltEntity Entity := ⟨toEntity⟩

variable (e : BuiltEntity)

theorem isSound : e.toEntity.IsSound := by
  obtain ⟨_, _, _, _, hbuild⟩ := e.isBuilt
  exact Entity.isSound_of_build hbuild

theorem nodup_columns (hasJsonColumns : Bool) :
    (((e.storedAs hasJsonColumns).fields.filter Field.hasColumn).map Field.column).Nodup := by
  obtain ⟨_, _, _, _, hbuild⟩ := e.isBuilt
  exact Entity.nodup_columns_of_build hbuild hasJsonColumns

end BuiltEntity

end EntitySql
