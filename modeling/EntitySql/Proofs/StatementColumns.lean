import EntitySql.Proofs.StatementForms
import EntitySql.Proofs.WellFormedEntities
import EntitySql.Proofs.WrittenColumns

/-!
# The columns of a table and those of statements

Four parts of the library decide which fields have a column: the statement that
creates the table, the names of the entity, the fields that statements select,
and those that they write. They agree. A statement reads columns that the table
defines and expressions of fields, and writes columns that the table defines.

- `Entity.HasTable`, `Entity.IsSound.hasTable`: the table of an entity.
- `Store.Form.Fits`, `Store.Purpose.fits_form`: statements read what the names
  know, and write fields with a column.
- `Entity.statements_fit_table`: tables and statements together.
-/

namespace EntitySql

/-! ## The table of an entity -/

namespace Entity

/-- A column is that of a field. It has the wrapped name of the field's column. It is the primary
key if the database numbers rows in it. It may not hold NULL if the field is part of the identity,
unless it holds documents or is the primary key. -/
structure DefinedFor (e : Entity) (wrap : String → String) (f : Field) (c : TableColumn) :
    Prop where
  name : c.name = wrap f.column
  isKey : c.isKey = true ↔ e.numbers f
  notNull : f.key ∈ e.identity → c.type ≠ "json".toList → c.isKey = false → c.notNull = true

/-- A table is that of an entity: it has a column for each field that has one, in their order, and
no other, and one primary key, over the columns of the identity, which is a column or comes after
all columns. No two columns have the same name if wrapped names tell the columns apart, and exactly
then. -/
structure HasTable (e : Entity) (wrap : String → String) (d : TableDefinition) : Prop where
  created : e.Creates wrap d
  table : d.table = wrap e.table
  columns : List.Forall₂ (e.DefinedFor wrap) (e.fields.filter Field.hasColumn) d.columns
  primaryKeys : d.primaryKeys = [e.keyColumns wrap]
  items : d.items = d.columns.map .column ++
    if e.autoIdentity?.isSome then [] else [.key (e.keyColumns wrap)]
  once : d.names.Nodup ↔ e.KeepsApart wrap

variable {e : Entity} (wrap : String → String)

/-- The clause for columns that may not hold NULL is missing for documents only. -/
theorem isSome_required {t : FieldType} (h : (ColumnType.ofFieldType t).name ≠ "json") :
    (ColumnType.ofFieldType t).required.isSome = true := by
  cases t with
  | json => exact absurd rfl h
  | _ => rfl

theorem definedFor_tableColumn (e : Entity) (f : Field) :
    e.DefinedFor wrap f (e.tableColumn wrap f) := by
  rw [tableColumn]
  split
  · next hnumbers =>
    exact ⟨rfl, iff_of_true rfl hnumbers, fun _ _ hkey => absurd hkey.symm Bool.false_ne_true⟩
  · next hnumbers =>
    refine ⟨rfl, iff_of_false Bool.false_ne_true hnumbers, fun hidentity htype _ => ?_⟩
    have hrequires : e.requires f = true := by
      rw [requires, List.contains_iff_mem.2 hidentity, Bool.or_true]
    have hrequired : (ColumnType.ofField f).required.isSome = true :=
      isSome_required fun hname => htype (congrArg String.toList hname)
    rw [hrequires, hrequired, Bool.and_self]

/-- A sound entity whose fields have columns of their own has its table. -/
theorem IsSound.hasTable (he : e.IsSound)
    (hcolumns : ((e.fields.filter Field.hasColumn).map Field.column).Nodup) :
    e.HasTable wrap (e.tableDefinition wrap) where
  created := he.creates wrap
  table := rfl
  columns := by
    rw [columns_tableDefinition]
    exact List.forall₂_map_right_iff.2
      (List.forall₂_same.2 fun f _ => e.definedFor_tableColumn wrap f)
  primaryKeys := he.primaryKeys wrap
  items := by
    rw [columns_tableDefinition, List.map_map]
    rfl
  once := by
    rw [names_tableDefinition]
    constructor
    · intro h f hf g hg hf' hg' hsame
      rw [List.inj_on_of_nodup_map h (List.mem_filter.2 ⟨hf, hf'⟩) (List.mem_filter.2 ⟨hg, hg'⟩)
        hsame]
    · intro h
      refine (List.Nodup.of_map _ hcolumns).map_on fun f hf g hg hsame => ?_
      obtain ⟨hf', hfcolumn⟩ := List.mem_filter.1 hf
      obtain ⟨hg', hgcolumn⟩ := List.mem_filter.1 hg
      exact List.inj_on_of_nodup_map hcolumns hf hg (h f hf' g hg' hfcolumn hgcolumn hsame)

/-! ## What stands for a field -/

/-- A text is the expression of a field, in parentheses. -/
def Computes (e : Entity) (text : String) : Prop :=
  ∃ f ∈ e.fields, ∃ expression, f.expression = some expression ∧ text = "(" ++ expression ++ ")"

variable {wrap} {d : TableDefinition}

/-- The wrapped column of a field is one of its table. -/
theorem HasTable.mem_names (h : e.HasTable wrap d) {f : Field} (hf : f ∈ e.fields)
    (hcolumn : f.hasColumn = true) : wrap f.column ∈ d.names := by
  obtain ⟨c, hc, hdefined⟩ :=
    exists_of_forall₂ h.columns f (List.mem_filter.2 ⟨hf, hcolumn⟩)
  exact List.mem_map.2 ⟨c, hc, hdefined.name⟩

/-- A text that stands for a field is a column of the table or an expression. -/
theorem HasTable.defines_or_computes (h : e.HasTable wrap d) {text : String}
    (htext : (EntityNames.resolveBy e wrap).Knows text) : text ∈ d.names ∨ e.Computes text := by
  obtain ⟨key, hkey⟩ := htext
  rcases EntityNames.columnOf_resolveBy_cases e key with ⟨f, hf, -, hfound⟩ | ⟨-, hmissing⟩
  · obtain rfl := Except.ok.inj ((hfound wrap).symm.trans hkey)
    obtain ⟨hmem, hknown⟩ := List.mem_filter.1 hf
    cases hexpression : f.expression with
    | some expression =>
      exact .inr ⟨f, hmem, expression, hexpression, by rw [EntityNames.fieldTextBy, hexpression]⟩
    | none =>
      have hcolumn : f.hasColumn = true := by
        rw [Field.hasColumn, hknown, hexpression]
        rfl
      rw [EntityNames.fieldTextBy, hexpression]
      exact .inl (h.mem_names hmem hcolumn)
  · rw [hmissing wrap] at hkey
    cases hkey

theorem HasTable.defines (he : e.IsSound) (h : e.HasTable wrap d) {f : Field} (hf : f ∈ e.fields)
    (hcolumn : f.hasColumn = true) {text : String}
    (htext : (EntityNames.resolveBy e wrap).columnOf f.key = .ok text) : text ∈ d.names := by
  have hboth : f.isServerExpression = false ∧ f.expression = none := by
    simpa [Field.hasColumn] using hcolumn
  have hselected : f ∈ e.selected := List.mem_filter.2 ⟨hf, by rw [hboth.1]; rfl⟩
  obtain rfl := Except.ok.inj ((he.columnOf_resolveBy wrap hselected).symm.trans htext)
  rw [EntityNames.fieldTextBy, hboth.2]
  exact h.mem_names hf hcolumn

end Entity

namespace Store

variable {e : Entity} {names : EntityNames} {d : Dialect}

/-! ## Forms fit their entity -/

/-- A statement of the form reads what the names know, and writes what they know for fields with a
column. -/
structure Form.Fits (names : EntityNames) (e : Entity) (form : Form) : Prop where
  reads : ∀ text ∈ form.reads names, names.Knows text
  writes : ∀ text ∈ form.writes names,
    ∃ f ∈ e.fields, f.hasColumn = true ∧ names.columnOf f.key = .ok text

/-- The columns of the condition of a filter are known. -/
theorem knows_columns {f : Filter} {c : Condition (List RawPart)}
    (h : Condition.ofFilter e names f = .ok c) : ∀ text ∈ c.columns names, names.Knows text :=
  Condition.known_columns_ofFilter (fun key _ _ hcolumn => ⟨key, hcolumn⟩) h

theorem knows_optionalCondition {f? : Option Filter} {c? : Option (Condition (List RawPart))}
    (h : optionalCondition e names f? = .ok c?) :
    ∀ text ∈ c?.elim [] (Condition.columns names), names.Knows text := by
  cases f? with
  | none =>
    cases h
    exact List.forall_mem_nil _
  | some f =>
    obtain ⟨c, hc, heq⟩ := bind_eq_ok.1 h
    cases heq
    exact knows_columns hc

/-- The texts that stand for fields are those of the fields. -/
theorem columnOf_of_mem_columnTexts {fs : List Field} {columns : List String}
    (h : columnTexts names fs = .ok columns) :
    ∀ text ∈ columns, ∃ f ∈ fs, names.columnOf f.key = .ok text :=
  exists_of_forall₂ (columnTexts_eq_ok.1 h).flip

theorem knows_columnTexts {fs : List Field} {columns : List String}
    (h : columnTexts names fs = .ok columns) : ∀ text ∈ columns, names.Knows text := by
  intro text htext
  obtain ⟨f, -, hfound⟩ := columnOf_of_mem_columnTexts h text htext
  exact ⟨f.key, hfound⟩

/-- The columns that are given back are known. -/
theorem knows_returnedColumns {returned : Option (List String)}
    (h : returnedColumns e names d = .ok returned) :
    ∀ text ∈ returned.getD [], names.Knows text := by
  rw [returnedColumns] at h
  split at h
  · obtain ⟨columns, hcolumns, heq⟩ := bind_eq_ok.1 h
    cases heq
    exact knows_columnTexts hcolumns
  · cases h
    exact List.forall_mem_nil _

theorem knows_terms {order : RowOrder} {nullsSmallest : Bool} {ts : List OrderTerm}
    (h : order.terms names nullsSmallest = .ok ts) :
    ∀ text ∈ ts.map OrderTerm.column, names.Knows text :=
  List.forall_mem_map.2 fun t ht => by
    obtain ⟨s, -, -, hcolumn⟩ := RowOrder.exists_segment h ht
    exact ⟨s.field, hcolumn⟩

/-- The columns that are written stand for fields with a column. -/
theorem owned_columnTexts {fs : List Field} {columns : List String}
    (hfs : ∀ f ∈ fs, f ∈ e.writable) (h : columnTexts names fs = .ok columns) :
    ∀ text ∈ columns, ∃ f ∈ e.fields, f.hasColumn = true ∧ names.columnOf f.key = .ok text := by
  intro text htext
  obtain ⟨f, hf, hfound⟩ := columnOf_of_mem_columnTexts h text htext
  obtain ⟨hmem, hcolumn, -⟩ := Entity.mem_writable_iff.1 (hfs f hf)
  exact ⟨f, hmem, hcolumn, hfound⟩

theorem owned_writtenValues {data : Record} {skipNulls : Bool} {written : List (Field × Value)}
    {columns : List String} (hwritten : writtenValues e data skipNulls = .ok written)
    (h : columnTexts names (written.map Prod.fst) = .ok columns) :
    ∀ text ∈ columns, ∃ f ∈ e.fields, f.hasColumn = true ∧ names.columnOf f.key = .ok text :=
  owned_columnTexts (List.forall_mem_map.2 fun _ ha => mem_writable hwritten ha) h

/-- The keys in the filter for a row are those of its identity. -/
theorem keys_identityFilter (r : Record) :
    (identityFilter r).keys = r.entries.map Prod.fst := by
  have hall : ∀ entries : List (String × Value),
      Filter.allKeys (entries.map fun v => Filter.compare v.1 .eq v.2) = entries.map Prod.fst := by
    intro entries
    induction entries with
    | nil => rfl
    | cons a entries ih =>
      rw [List.map_cons, Filter.allKeys, ih, Filter.keys]
      rfl
  rw [identityFilter, ← hall]
  split
  · next f hone => rw [hone, Filter.allKeys, Filter.allKeys, List.append_nil]
  · rw [Filter.keys]

/-- The condition for a row is about columns of the identity. -/
theorem owned_identity (he : e.IsSound) {operation : String} {id : RowId} {r : Record}
    (hr : identityValues e operation id = .ok r) {c : Condition (List RawPart)}
    (h : Condition.ofFilter e names (identityFilter r) = .ok c) :
    ∀ text ∈ c.columns names,
      ∃ f ∈ e.fields, f.hasColumn = true ∧ names.columnOf f.key = .ok text := by
  refine Condition.known_columns_ofFilter (fun key hkey column hcolumn => ?_) h
  rw [keys_identityFilter] at hkey
  obtain ⟨a, ha, rfl⟩ := List.mem_map.1 hkey
  have hidentity := ((identityValues_complete hr).only _ _ (Record.get?_of_mem ha)).1
  obtain ⟨f, hf, hown⟩ := he.identity_found a.1 hidentity
  obtain ⟨hmem, hsame⟩ := Entity.mem_of_field hf
  exact ⟨f, hmem, hown, by rw [hsame, hcolumn]⟩

/-- The form of a statement fits the entity. -/
theorem Purpose.fits_form (he : e.IsSound) {p : Purpose} {form : Form}
    (h : p.form e names d = .ok form) : form.Fits names e := by
  cases Purpose.hasForm_of_form h with
  | count hc => exact ⟨knows_columns hc, List.forall_mem_nil _⟩
  | find hcolumns hc horder =>
    have hqueried := List.forall_mem_append.2
      ⟨knows_columnTexts hcolumns, knows_optionalCondition hc⟩
    exact ⟨List.forall_mem_append.2 ⟨hqueried, knows_terms horder⟩, List.forall_mem_nil _⟩
  | select hcolumns hc =>
    exact ⟨List.forall_mem_append.2 ⟨knows_columnTexts hcolumns, knows_columns hc⟩,
      List.forall_mem_nil _⟩
  | insertDefaults _ hreturned =>
    exact ⟨knows_returnedColumns hreturned, List.forall_mem_nil _⟩
  | insert hwritten hcolumns hreturned =>
    exact ⟨knows_returnedColumns hreturned, owned_writtenValues hwritten hcolumns⟩
  | update hidentity hwritten hcolumns hc hreturned =>
    exact ⟨knows_returnedColumns hreturned, List.forall_mem_append.2
      ⟨owned_writtenValues hwritten hcolumns, owned_identity he hidentity hc⟩⟩
  | delete hidentity hc => exact ⟨List.forall_mem_nil _, owned_identity he hidentity hc⟩
  | bulk hrows hcolumns =>
    exact ⟨List.forall_mem_nil _, owned_columnTexts
      (mem_writable_of_bulkFields he (mem_writable_of_rows hrows)) hcolumns⟩

end Store

/-! ## Tables and statements -/

namespace Entity

/-- An entity that was built has its table, however names are wrapped and documents are stored. Each
statement of a store is made of its form, which reads columns of this table and expressions of
fields, and writes columns of the table. -/
theorem statements_fit_table (e : BuiltEntity) (hasJsonColumns : Bool) (wrap : String → String) :
    ∃ d, (e.storedAs hasJsonColumns).HasTable wrap d ∧ ∀ names dialect p t,
      names = .resolveBy (e.storedAs hasJsonColumns) wrap →
      Store.Purpose.statement (e.storedAs hasJsonColumns) names dialect p = .ok t →
        ∃ form, p.form (e.storedAs hasJsonColumns) names dialect = .ok form ∧
          form.template names = .ok t ∧
          (∀ text ∈ form.reads names, text ∈ d.names ∨ (e.storedAs hasJsonColumns).Computes text) ∧
          ∀ text ∈ form.writes names, text ∈ d.names := by
  have he := e.isSound.storedAs hasJsonColumns
  have htable := he.hasTable wrap (e.nodup_columns hasJsonColumns)
  refine ⟨_, htable, ?_⟩
  rintro names dialect p t rfl hstatement
  obtain ⟨form, hform, htemplate⟩ := Store.Purpose.exists_form hstatement
  have hfits := Store.Purpose.fits_form he hform
  refine ⟨form, hform, htemplate, fun text htext => ?_, fun text htext => ?_⟩
  · exact htable.defines_or_computes (hfits.reads text htext)
  · obtain ⟨f, hf, hcolumn, hfound⟩ := hfits.writes text htext
    exact htable.defines he hf hcolumn hfound

/-- An entity with a field that SQL computes. -/
def album : Entity :=
  ⟨"album", "album",
    [{ Field.ofType "id" .integer with autoIncrement := true },
     Field.ofType "title" .text,
     { Field.ofType "length" .integer with expression := some "length(title)" }], ["id"]⟩

/-- Albums with a title, those with a long one first. -/
def titledAlbums : Store.Purpose :=
  .find { filter := some (.compare "title" .ne (.text ""))
          order := some [⟨"length", true⟩], limit := none, page := none }

/-- The table of albums has the columns that a search reads, apart from the length of titles. -/
theorem statements_fit_table_albums :
    build "album" none album.fields [] = .ok album ∧
    ∃ d, album.HasTable Quoting.bare.wrap d ∧ ∃ form,
      titledAlbums.form album (.resolve album .bare) .plain = .ok form ∧
      form.template (.resolve album .bare) = .ok
        [.text "select id, title, (length(title)) from album", .text " where ",
         .text "title <> ", .param (.text ""), .text " order by (length(title)) desc"] ∧
      ∀ text ∈ form.reads (.resolve album .bare), text ∈ d.names ∨ album.Computes text := by
  have hbuild : build "album" none album.fields [] = .ok album := rfl
  obtain ⟨d, htable, hstatements⟩ :=
    statements_fit_table ⟨album, _, _, _, _, hbuild⟩ true Quoting.bare.wrap
  obtain ⟨form, hform, htemplate, hreads, -⟩ :=
    hstatements (.resolve album .bare) .plain titledAlbums _ rfl rfl
  exact ⟨hbuild, d, htable, form, hform, htemplate, hreads⟩

/-- An entity with a column whose name is that of another one between quotes. -/
def contact : Entity :=
  ⟨"contact", "contact",
    [Field.ofType "id" .integer,
     Field.ofType "name" .text,
     { Field.ofType "alias" .text with column := "\"name\"" }], ["id"]⟩

/-- Where names are left as they are if they are between quotes already, the table of contacts has
two columns of one name. -/
theorem contact_has_column_twice : build "contact" none contact.fields [] = .ok contact ∧
    contact.createTable .keepQuoted =
      "create table if not exists \"contact\" (\"id\" integer default 0 not null, " ++
        "\"name\" text default '' not null, \"name\" text default '' not null, " ++
        "primary key (\"id\"))" ∧
    ∃ d, contact.Creates Quoting.keepQuoted.wrap d ∧ ¬ d.names.Nodup := by
  have hbuild : build "contact" none contact.fields [] = .ok contact := rfl
  refine ⟨hbuild, by decide, _, (isSound_of_build hbuild).creates Quoting.keepQuoted.wrap, ?_⟩
  rw [names_tableDefinition]
  decide

end Entity

end EntitySql
