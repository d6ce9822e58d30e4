import EntitySql.Proofs.BulkRows
import EntitySql.Proofs.Preparation

/-!
# The columns that are written

A record may have values for fields that statements do not write: fields that
SQL or the application computes, columns that the database writes or numbers,
and keys that are no fields at all. An insert and an update pass over these and
write what is left, each column with the stored form of its own value. They part
over NULL, which an insert leaves to the default of the column and an update
sets.

- `Store.IsWrittenOf`: what is written of a record.
- `Store.InsertsRow`, `Store.UpdatesRow`, `Store.ReadsRow`: statements about one
  row, with their texts and parameters.
- `Store.insert_sends`, `Store.update_sends`: the statements that are sent.
- `Store.insert_congr`, `Store.update_congr`: keys that make no difference.
- `Store.writes_writable_columns`: all of this.
-/

namespace EntitySql

/-! ## Fields that statements may write -/

namespace Entity

/-- Statements may write the fields with a column of their own that the database neither writes nor
numbers. -/
theorem mem_writable_iff {e : Entity} {f : Field} : f ∈ e.writable ↔
    f ∈ e.fields ∧ f.hasColumn = true ∧ f.dbReadOnly = false ∧ f.autoIncrement = false := by
  rw [writable, List.mem_filter, Field.isReadOnly]
  simp [and_left_comm, and_assoc]

/-- The fields that statements may write are among those with columns, in their order. -/
theorem writable_sublist (e : Entity) : e.writable.Sublist (e.fields.filter Field.hasColumn) := by
  have hfilter : e.writable = (e.fields.filter Field.hasColumn).filter fun f => !f.isReadOnly := by
    rw [writable, List.filter_filter]
    refine List.filter_congr fun f _ => ?_
    cases hcolumn : f.hasColumn <;> simp [Field.isReadOnly, hcolumn]
  exact hfilter ▸ List.filter_sublist

end Entity

namespace Store

/-! ## What is written of a record -/

/-- What is written of a record: the fields with a column of their own that the database neither
writes nor numbers and that the record gives a value to, in the order of their declarations and each
column once, with the stored forms of these values. Where NULLs are skipped, fields whose stored
form is NULL are left out. -/
structure IsWrittenOf (e : Entity) (data : Record) (skipNulls : Bool)
    (w : List (Field × Value)) : Prop where
  ordered : (w.map Prod.fst).Sublist e.fields
  once : ((w.map Prod.fst).map Field.column).Nodup
  mem_iff : ∀ f stored, (f, stored) ∈ w ↔
    f ∈ e.fields ∧ f.hasColumn = true ∧ f.dbReadOnly = false ∧ f.autoIncrement = false ∧
      ∃ v, data.get? f.key = some v ∧ f.converter.toStored v = .ok stored ∧
        (skipNulls = true → stored.isNull = false)

section

variable {e : Entity} {data : Record} {skipNulls : Bool}

/-- A field is given the stored form of the value that the record has for it, unless this is NULL
and NULLs are skipped. -/
theorem given_eq_some_iff {f : Field} {stored : Value}
    (hconverts : ∀ v, data.get? f.key = some v → ∃ w, f.converter.toStored v = .ok w) :
    f.given data skipNulls = some stored ↔ ∃ v, data.get? f.key = some v ∧
      f.converter.toStored v = .ok stored ∧ (skipNulls = true → stored.isNull = false) := by
  cases hget : data.get? f.key with
  | none => simp [Field.given, hget]
  | some v =>
    obtain ⟨w, hw⟩ := hconverts v hget
    have hgiven := Field.given_of_get? hget skipNulls
    rw [Converter.stored_of_toStored hw] at hgiven
    constructor
    · intro h
      rw [hgiven] at h
      split at h
      · cases h
      · next hkept =>
        cases h
        exact ⟨v, rfl, hw, by simpa using hkept⟩
    · rintro ⟨u, hu, hstored, hkept⟩
      cases hu
      cases hw.symm.trans hstored
      rw [hgiven, if_neg (by simpa using hkept)]

/-- The stored values of fields are what the fields are given, if everything has a stored form. -/
theorem storedValues_of_converts {fs : List Field}
    (h : ∀ f ∈ fs, ∀ v, data.get? f.key = some v → ∃ w, f.converter.toStored v = .ok w) :
    storedValues data skipNulls fs = .ok (givenValues data skipNulls fs) := by
  refine storedValues_eq_ok.2 ⟨fun f hf v hv => ?_, rfl⟩
  obtain ⟨w, hw⟩ := h f hf v hv
  rw [hw, Converter.stored_of_toStored hw]

/-- Something is written of a record whose values have stored forms. -/
theorem exists_isWrittenOf (he : e.IsSound)
    (hcolumns : ((e.fields.filter Field.hasColumn).map Field.column).Nodup)
    (hconverts : data.Converts e) (skipNulls : Bool) :
    ∃ w, writtenValues e data skipNulls = .ok w ∧ IsWrittenOf e data skipNulls w := by
  have hstored : ∀ f ∈ e.writable, ∀ v, data.get? f.key = some v →
      ∃ stored, f.converter.toStored v = .ok stored := fun f hf v hv =>
    hconverts f.key v hv f (he.field_of_mem (List.mem_of_mem_filter hf))
  have hw : storedValues data skipNulls e.writable = .ok _ := storedValues_of_converts hstored
  have hordered := sublist_storedValues hw
  refine ⟨_, hw, hordered.trans List.filter_sublist, ?_, fun f stored => ?_⟩
  · exact hcolumns.sublist ((hordered.trans e.writable_sublist).map Field.column)
  · rw [mem_givenValues, and_congr_right fun hf => given_eq_some_iff (hstored f hf),
      Entity.mem_writable_iff, and_assoc, and_assoc, and_assoc]

end

/-! ## Statements about one row -/

/-- The text of the columns of a row and of a token for each of them, or of no columns. -/
def rowText (style : TokenStyle) (columns : List String) : String :=
  if columns.isEmpty then " default values"
  else " (" ++ String.intercalate ", " columns ++ ") values (" ++
    String.intercalate ", " ((List.range' 1 columns.length).map style.token) ++ ")"

/-- A statement inserts one row: it lists the columns of the row, with a token for each, and its
parameters are the values of the row in the same order. -/
structure InsertsRow (st : Store) (names : EntityNames) (row : List (String × Value))
    (x : Statement) : Prop where
  text : ∃ returning, AsksForRows st.entity names returning ∧
    x.sql = "insert into " ++ names.table ++ rowText st.database.dialect.style (row.map Prod.fst) ++
      returning
  params : x.params = row.map Prod.snd

/-- A statement sets the columns of the row of an identity: it has an equation for each of them and
then one for each identity field, and its parameters are the values in the same order. -/
structure UpdatesRow (st : Store) (names : EntityNames) (id : RowId) (row : List (String × Value))
    (x : Statement) : Prop where
  asks : ∃ pins returning, id.IsAskedBy st.entity names pins ∧
    AsksForRows st.entity names returning ∧
    x.sql = "update " ++ names.table ++ " set " ++
      String.intercalate ", " (equations st.database.dialect.style 1 (row.map Prod.fst)) ++
      " where " ++ String.intercalate " and "
        (equations st.database.dialect.style (row.length + 1) (pins.map Prod.fst)) ++ returning ∧
    x.params = row.map Prod.snd ++ pins.map Prod.snd

/-- A statement reads the row of an identity. -/
structure ReadsRow (st : Store) (names : EntityNames) (id : RowId) (x : Statement) : Prop where
  asks : ∃ pins columns, id.IsAskedBy st.entity names pins ∧
    selectList st.entity names = .ok columns ∧
    x.sql = "select " ++ columns ++ " from " ++ names.table ++ " where " ++
      String.intercalate " and " (equations st.database.dialect.style 1 (pins.map Prod.fst)) ∧
    x.params = pins.map Prod.snd

section

variable {st : Store} {names : EntityNames} {row : List (String × Value)} {x : Statement}
  {id : RowId} {r : Record} {data : Record} {w : List (Field × Value)}

/-- A statement that inserts a single row. -/
theorem Inserts.insertsRow (h : st.Inserts names [row] x) : st.InsertsRow names row x := by
  generalize hrows : [row] = rows at h
  cases h with
  | defaults hasks =>
    cases hrows
    exact ⟨⟨_, hasks, by simp [rowText]⟩, rfl⟩
  | @values columns tuples returning hne hwidth hasks =>
    obtain ⟨vs, rfl, hrow⟩ := List.map_eq_singleton_iff.1 hrows.symm
    have hlength : vs.length = columns.length := hwidth vs List.mem_cons_self
    have hfst : row.map Prod.fst = columns := by
      rw [← hrow, List.map_fst_zip (Nat.le_of_eq hlength.symm)]
    have hsnd : row.map Prod.snd = vs := by rw [← hrow, List.map_snd_zip (Nat.le_of_eq hlength)]
    refine ⟨⟨returning, hasks, ?_⟩, by simp [hsnd]⟩
    have hbracket (rest : String) : ") values " ++ ("(" ++ rest) = ") values (" ++ rest := by
      rw [← String.append_assoc]
      rfl
    rw [hfst, rowText, if_neg (by simpa using hne)]
    delta insertHead
    simp [tupleTexts, hlength, hbracket, String.append_assoc]

/-- The statement of an update sets the columns of what is written. -/
theorem IsUpdate.updatesRow (he : st.entity.IsSound) {q : Quoting}
    (hw : writtenValues st.entity data false = .ok w)
    (h : st.IsUpdate (.resolve st.entity q) id data x) :
    st.UpdatesRow (.resolve st.entity q) id (columnValues q w) x := by
  obtain ⟨written, columns, pins, returning, hwritten, hcolumns, hasked, hreturning, hsql,
    hparams⟩ := h.asks
  cases hw.symm.trans hwritten
  cases (columnTexts_written he q hw).symm.trans hcolumns
  refine ⟨pins, returning, hasked, hreturning, ?_, ?_⟩
  · simpa [columnValues, Function.comp_def] using hsql
  · simpa [columnValues, Function.comp_def] using hparams

/-- The row of an identity can be read by a statement if its values have stored forms. -/
theorem exists_readsRow (he : st.entity.IsSound) (q : Quoting) (hr : r.IsIdentity st.entity)
    (hcomponent : ∀ key ∈ st.entity.identity, r.get? key = id.component key)
    (hconverts : r.Converts st.entity) :
    ∃ t, selectStatement st.entity (.resolve st.entity q) (identityFilter r) = .ok t ∧
      st.ReadsRow (.resolve st.entity q) id (t.statement st.database.dialect.style) := by
  obtain ⟨pins, hpins⟩ := (exists_pins_iff he q hr).2 hconverts
  have hcolumns := selectList_resolve he q
  refine ⟨_, selectStatement_identityFilter he hr hpins hcolumns, pins, _,
    RowId.isAskedBy_pins he hr hcomponent hpins, hcolumns, ?_, ?_⟩
  · simp [Template.statement, Template.sql, readTemplate, Template.render, pinTemplate_eq,
      render_equations, String.append_assoc]
  · simp [Template.statement, readTemplate, Template.values, pinTemplate_eq, values_equations]

theorem exists_updateStatement (he : st.entity.IsSound) (q : Quoting) (hr : r.IsIdentity st.entity)
    (hcomponent : ∀ key ∈ st.entity.identity, r.get? key = id.component key)
    (hconverts : r.Converts st.entity) (hw : writtenValues st.entity data false = .ok w) :
    ∃ t, updateStatement st.entity (.resolve st.entity q) st.database.dialect r w = .ok t ∧
      st.UpdatesRow (.resolve st.entity q) id (columnValues q w)
        (t.statement st.database.dialect.style) := by
  obtain ⟨clause, hclause⟩ := (exists_whereClause_iff he q hr).2 hconverts
  obtain ⟨returning, hreturning⟩ := exists_returningClause he q
  obtain ⟨t, ht⟩ : ∃ t,
      updateStatement st.entity (.resolve st.entity q) st.database.dialect r w = .ok t := by
    rw [updateStatement, columnTexts_written he q hw, ok_bind, hclause, ok_bind, hreturning]
    exact ⟨_, rfl⟩
  exact ⟨t, ht, (isUpdate_of_updateStatement he hr hcomponent hw ht).updatesRow he hw⟩

end

end Store

/-! ## What is sent -/

/-- A statement is sent by an open handle, and then what is done with the answer is sent. -/
theorem Action.exists_more {α : Type} {db : Database} {P : Statement → Prop} {s : Session}
    (hopen : s.isOpen db.scope = true) (t : Template) {f : RowSet → Action α}
    (hf : ∀ result, Through db P true (f result)) :
    ∃ more, ((db.send t >>= f) s).2.statements =
      s.statements ++ t.statement db.dialect.style :: more ∧ ∀ x ∈ more, P x := by
  have hsent := Database.statements_send hopen t
  cases hresult : db.send t s with
  | mk answer u =>
    rw [hresult] at hsent
    cases answer with
    | error failure =>
      rw [bind_of_error hresult]
      exact ⟨[], hsent, fun _ hx => nomatch hx⟩
    | ok result =>
      obtain ⟨more, hmore⟩ := (hf result).exchanges u
      rw [bind_of_ok hresult]
      exact ⟨more, by rw [hmore.statements, hsent, List.append_assoc]; rfl, hmore.property⟩

namespace Store

section

variable {st : Store} {q : Quoting} {s named : Session} {data : Record} {w : List (Field × Value)}
  (he : st.entity.IsSound)
  (hnames : st.database.names st.entity s = (.ok (.resolve st.entity q), named))
  (hopen : s.isOpen st.database.scope = true)

include he hnames hopen

/-- An insert sends a statement that inserts a row with what is written of the record, and reads
rows afterwards at most. -/
theorem insert_sends (hw : writtenValues st.entity data true = .ok w) :
    ∃ x more, st.InsertsRow (.resolve st.entity q) (columnValues q w) x ∧
      (st.insert data s).2.statements = s.statements ++ x :: more ∧
        ∀ y ∈ more, y.isQuery = true := by
  obtain ⟨t, ht, hx⟩ := exists_insertStatement he q hw
  obtain ⟨hquiet, hscope⟩ := Database.quiet_names hnames
  have hafter : ∀ result, Action.Through st.database (fun y => y.isQuery = true) true
      (st.afterInsert data (t.sql st.database.dialect.style) result) := fun _ =>
    afterInsert_through fun _ _ _ h => beq_iff_eq.2 (leadingKeyword_selectStatement h _)
  obtain ⟨more, hmore, hqueries⟩ := Action.exists_more (hscope.trans hopen) t hafter
  rw [insert_eq, Action.bind_of_ok hnames, Action.bind_of_ok (Action.lift_of_ok ht), ← hquiet]
  exact ⟨_, more, hx.insertsRow, hmore, hqueries⟩

/-- An update sends a statement that sets what is written of the record, and reads rows afterwards
at most. If nothing is written, it only reads the row. -/
theorem update_sends {id : RowId} {before : Record}
    (hbefore : identityValues st.entity "update" id = .ok before)
    (hconverts : before.Converts st.entity) (hw : writtenValues st.entity data false = .ok w) :
    (w = [] → ∃ x, st.ReadsRow (.resolve st.entity q) id x ∧
      (st.update id data s).2.statements = s.statements ++ [x]) ∧
    (w ≠ [] → ∃ x more, st.UpdatesRow (.resolve st.entity q) id (columnValues q w) x ∧
      (st.update id data s).2.statements = s.statements ++ x :: more ∧
        ∀ y ∈ more, y.isQuery = true) := by
  have hr := identityValues_complete hbefore
  have hcomponent := get?_of_identityValues hbefore
  obtain ⟨hquiet, hscope⟩ := Database.quiet_names hnames
  rw [update_eq, Action.bind_of_ok (Action.lift_of_ok hbefore), Action.bind_of_ok hnames,
    updateWith, Action.bind_of_ok (Action.lift_of_ok hw), ← hquiet]
  constructor
  · rintro rfl
    obtain ⟨t, ht, hx⟩ := exists_readsRow he q hr hcomponent hconverts
    have hknown := (knows_of_names hnames).names_eq
    exact ⟨_, hx, (findOne_of_known hknown (hscope.trans hopen) ht "update").1⟩
  · intro hne
    obtain ⟨t, ht, hx⟩ := exists_updateStatement he q hr hcomponent hconverts hw
    have hafter : ∀ result, Action.Through st.database (fun y => y.isQuery = true) true
        (st.afterUpdate before data result) := fun _ =>
      afterUpdate_through fun _ _ _ h => beq_iff_eq.2 (leadingKeyword_selectStatement h _)
    obtain ⟨more, hmore, hqueries⟩ := Action.exists_more (hscope.trans hopen) t hafter
    rw [if_neg (by simpa using hne), Action.bind_of_ok (Action.lift_of_ok ht)]
    exact ⟨_, more, hx, hmore, hqueries⟩

end

/-! ## Keys without a field -/

section

variable {e : Entity} {data data' : Record}

/-- What is stored of a record depends on the values for the fields alone. -/
theorem storedValues_congr {skipNulls : Bool} : ∀ {fs : List Field},
    (∀ f ∈ fs, data'.get? f.key = data.get? f.key) →
      storedValues data' skipNulls fs = storedValues data skipNulls fs
  | [], _ => rfl
  | f :: fs, h => by
    obtain ⟨hf, hfs⟩ := List.forall_mem_cons.1 h
    simp only [storedValues, hf, storedValues_congr hfs]

theorem componentsOf_congr {operation : String} : ∀ {keys : List String},
    (∀ key ∈ keys, data'.get? key = data.get? key) →
      componentsOf e operation data' keys = componentsOf e operation data keys
  | [], _ => rfl
  | key :: keys, h => by
    obtain ⟨hkey, hkeys⟩ := List.forall_mem_cons.1 h
    simp only [componentsOf, hkey, componentsOf_congr hkeys]

variable (he : e.IsSound) (hsame : ∀ f ∈ e.fields, data'.get? f.key = data.get? f.key)

include hsame

theorem writtenValues_congr (skipNulls : Bool) :
    writtenValues e data' skipNulls = writtenValues e data skipNulls :=
  storedValues_congr fun f hf => hsame f (List.mem_of_mem_filter hf)

include he

theorem get?_identity_congr : ∀ key ∈ e.identity, data'.get? key = data.get? key := by
  intro key hkey
  obtain ⟨f, hf, -⟩ := he.identity_found key hkey
  obtain ⟨hmem, rfl⟩ := Entity.mem_of_field hf
  exact hsame f hmem

theorem currentIdentity_congr {before : Record} (hbefore : before.IsIdentity e) :
    currentIdentity before data' = currentIdentity before data := by
  have hkeys := get?_identity_congr he hsame
  refine congrArg Record.ofPairs (List.map_congr_left fun (key, v) ha => ?_)
  simp only [hkeys key (hbefore.only key v (Record.get?_of_mem ha)).1]

end

section

variable {st : Store} {data data' : Record} (he : st.entity.IsSound)
  (hsame : ∀ f ∈ st.entity.fields, data'.get? f.key = data.get? f.key)

include he hsame

/-- An insert does not see values for keys without a field. -/
theorem insert_congr : st.insert data' = st.insert data := by
  have hcomponents : componentsOf st.entity "insert" data' st.entity.identity =
      componentsOf st.entity "insert" data st.entity.identity :=
    componentsOf_congr (get?_identity_congr he hsame)
  simp only [insert, insertStatement, writtenValues_congr hsame, insertedFilter, identityValues,
    hcomponents]

/-- What an update does with its names does not depend on values for keys without a field. -/
theorem updateWith_congr {before : Record} (hbefore : before.IsIdentity st.entity) :
    st.updateWith before data' = st.updateWith before data := by
  have hidentity := currentIdentity_congr he hsame hbefore
  funext names
  simp only [updateWith, writtenValues_congr hsame, afterUpdate, hidentity]

theorem update_congr (id : RowId) : st.update id data' = st.update id data := by
  funext s
  rw [update_eq, update_eq]
  cases hbefore : identityValues st.entity "update" id with
  | error failure =>
    rw [Action.bind_of_error (Action.lift_of_error rfl),
      Action.bind_of_error (Action.lift_of_error rfl)]
  | ok before =>
    rw [Action.bind_of_ok (Action.lift_of_ok rfl), Action.bind_of_ok (Action.lift_of_ok rfl),
      updateWith_congr he hsame (identityValues_complete hbefore)]

end

/-! ## Inserts and updates -/

/-- An insert of a record whose values have stored forms sends a statement with exactly the columns
that may be written and for which the record has a value that is not NULL once it is stored, each
with this stored form; without such columns it inserts the defaults. An update sends a statement
that sets the same columns and those that become NULL; without such columns it only reads the row.
All that comes after these statements are queries. Values for keys without a field make no
difference. -/
theorem writes_writable_columns {e : BuiltEntity}
    {db : Database} {s named : Session} {names : EntityNames}
    (hown : db.KnowsOwn (db.store e).entity s)
    (hnames : db.names (db.store e).entity s = (.ok names, named))
    (hopen : s.isOpen db.scope = true) {data : Record}
    (hconverts : data.Converts (db.store e).entity) :
    (∃ w x more, IsWrittenOf (db.store e).entity data true w ∧
      (db.store e).InsertsRow names (columnValues db.dialect.quoting w) x ∧
      ((db.store e).insert data s).2.statements = s.statements ++ x :: more ∧
      ∀ y ∈ more, y.isQuery = true) ∧
    (∀ id before, identityValues (db.store e).entity "update" id = .ok before →
      before.Converts (db.store e).entity →
      ∃ w, IsWrittenOf (db.store e).entity data false w ∧
        (w = [] → ∃ x, (db.store e).ReadsRow names id x ∧
          ((db.store e).update id data s).2.statements = s.statements ++ [x]) ∧
        (w ≠ [] → ∃ x more,
          (db.store e).UpdatesRow names id (columnValues db.dialect.quoting w) x ∧
          ((db.store e).update id data s).2.statements = s.statements ++ x :: more ∧
          ∀ y ∈ more, y.isQuery = true)) ∧
    ∀ data', (∀ f ∈ (db.store e).entity.fields, data'.get? f.key = data.get? f.key) →
      (db.store e).insert data' = (db.store e).insert data ∧
        ∀ id, (db.store e).update id data' = (db.store e).update id data := by
  have he : (db.store e).entity.IsSound := e.isSound.storedAs _
  have hwritten := exists_isWrittenOf he (e.nodup_columns _) hconverts
  obtain rfl := hown.eq_resolve hnames
  refine ⟨?_, fun id before hbefore hid => ?_, fun data' hsame => ?_⟩
  · obtain ⟨w, hw, hexact⟩ := hwritten true
    obtain ⟨x, more, hx, hmore, hqueries⟩ := insert_sends he hnames hopen hw
    exact ⟨w, x, more, hexact, hx, hmore, hqueries⟩
  · obtain ⟨w, hw, hexact⟩ := hwritten false
    exact ⟨w, hexact, update_sends he hnames hopen hbefore hid hw⟩
  · exact ⟨insert_congr he hsame, update_congr he hsame⟩

/-- Invoices, with columns that the database numbers or writes and a field without a column. -/
def invoice : Entity :=
  { key := "invoice", table := "invoice"
    fields := [{ Field.ofType "id" .integer with autoIncrement := true },
      .ofType "total" .integer,
      { Field.ofType "remark" .text with allowNull := true },
      { Field.ofType "changed" .text with dbReadOnly := true },
      { Field.ofType "overdue" .boolean with isServerExpression := true }]
    identity := ["id"] }

/-- A database with them. -/
def invoiceDatabase : Database := .root .plain .off

/-- An invoice with values for fields that are not written, and for a key without a field. -/
def invoiceData : Record :=
  .ofPairs [("total", .text "12"), ("remark", .null), ("changed", .text "now"),
    ("overdue", .boolean true), ("colour", .text "red")]

/-- The total of an invoice is inserted. An update sets the total and the missing remark. -/
theorem writes_writable_columns_invoice :
    (∃ w, IsWrittenOf (invoiceDatabase.store invoice).entity invoiceData true w ∧
      (invoiceDatabase.store invoice).InsertsRow (.resolve invoice .bare) (columnValues .bare w)
        ⟨"insert into invoice (total) values (?) returning id, total, remark, changed",
          [.integer 12]⟩) ∧
    ∃ w, IsWrittenOf (invoiceDatabase.store invoice).entity invoiceData false w ∧
      (invoiceDatabase.store invoice).UpdatesRow (.resolve invoice .bare) (.single (.integer 7))
        (columnValues .bare w)
        ⟨"update invoice set total = ?, remark = ? where id = ? " ++
          "returning id, total, remark, changed", [.integer 12, .null, .integer 7]⟩ := by
  have hconverts : invoiceData.Converts (invoiceDatabase.store invoice).entity := by
    intro key v hv f hf
    have hmem : (key, v) ∈ [("changed", .text "now"), ("colour", .text "red"),
        ("overdue", .boolean true), ("remark", .null), ("total", Value.text "12")] :=
      Record.mem_of_get? hv
    simp only [List.mem_cons, List.not_mem_nil, or_false, Prod.mk.injEq] at hmem
    rcases hmem with ⟨rfl, rfl⟩ | ⟨rfl, rfl⟩ | ⟨rfl, rfl⟩ | ⟨rfl, rfl⟩ | ⟨rfl, rfl⟩ <;>
      cases hf <;> exact ⟨_, rfl⟩
  have hid : (Record.empty.insert "id" (.integer 7)).Converts
      (invoiceDatabase.store invoice).entity := by
    intro key v hv f hf
    rw [Record.get?_insert] at hv
    split at hv
    · next hkey =>
      cases hv
      cases hkey
      cases hf
      exact ⟨_, rfl⟩
    · cases hv
  obtain ⟨hinsert, hupdate, -⟩ := @writes_writable_columns
    ⟨invoice, "invoice", none, invoice.fields, ["id"], rfl⟩ invoiceDatabase Session.fresh _ _
    (fun n hn => nomatch hn) rfl rfl invoiceData hconverts
  have hinserted :
      ((invoiceDatabase.store invoice).insert invoiceData Session.fresh).2.statements =
        [⟨"insert into invoice (total) values (?) returning id, total, remark, changed",
          [.integer 12]⟩] := rfl
  have hupdated : ((invoiceDatabase.store invoice).update (.single (.integer 7)) invoiceData
      Session.fresh).2.statements =
        [⟨"update invoice set total = ?, remark = ? where id = ? " ++
          "returning id, total, remark, changed", [.integer 12, .null, .integer 7]⟩] := rfl
  constructor
  · obtain ⟨w, x, more, hw, hx, hmore, -⟩ := hinsert
    obtain ⟨rfl, -⟩ := List.cons_eq_cons.1 (hinserted.symm.trans hmore)
    exact ⟨w, hw, hx⟩
  · dsimp only at hupdate
    obtain ⟨w, hw, -, hsome⟩ := hupdate (.single (.integer 7)) _ rfl hid
    -- the total is among what is written
    have htotal := (hw.mem_iff (.ofType "total" .integer) (.integer 12)).2
      ⟨by decide, rfl, rfl, rfl, .text "12", rfl, rfl, nofun⟩
    obtain ⟨x, more, hx, hmore, -⟩ := hsome (List.ne_nil_of_mem htotal)
    obtain ⟨rfl, -⟩ := List.cons_eq_cons.1 (hupdated.symm.trans hmore)
    exact ⟨w, hw, hx⟩

end Store

end EntitySql
