import EntitySql.Entity.Table
import EntitySql.Proofs.Built
import EntitySql.Proofs.CommaLists

/-!
# The table that a text defines

The statement that creates a table lists the columns, each with its type and
its clauses, and may end with a primary key over some of them. Here it is taken
apart, with the wrapped names of the table and of its columns as units,
whatever characters they are made of.

- `TableDefinition`, `TableDefinition.read?`: tables as they are read.
- `Entity.tableDefinition`: the table of an entity.
- `Entity.creates_tableDefinition`: it is what is read of the statement that creates it.
-/

namespace EntitySql

open Mark (ofText)

/-! ## Tables as they are read -/

/-- A column that a table defines. -/
structure TableColumn where
  name : String
  type : List Char
  /-- The column is the primary key and numbers new rows. -/
  isKey : Bool
  notNull : Bool
deriving DecidableEq

/-- An item in the definition of a table. -/
inductive TableItem where
  | column (c : TableColumn)
  /-- A primary key over some columns. -/
  | key (columns : List String)
deriving DecidableEq

/-- A table as it is defined. -/
structure TableDefinition where
  table : String
  items : List TableItem
deriving DecidableEq

namespace TableItem

/-- The column that an item defines. -/
def column? : TableItem → Option TableColumn
  | .column c => some c
  | .key _ => none

/-- The primary key that an item declares. -/
def key? : TableItem → Option (List String)
  | .column c => if c.isKey then some [c.name] else none
  | .key columns => some columns

end TableItem

namespace TableDefinition

/-- The columns of a table, in their order. -/
def columns (d : TableDefinition) : List TableColumn := d.items.filterMap TableItem.column?

/-- The names of the columns. -/
def names (d : TableDefinition) : List String := d.columns.map TableColumn.name

/-- The primary keys of a table. -/
def primaryKeys (d : TableDefinition) : List (List String) := d.items.filterMap TableItem.key?

end TableDefinition

/-! ## Reading -/

/-- A column with the clauses that come after its type. -/
def TableColumn.withClauses? (c : TableColumn) : List Symbol → Option TableColumn
  | [] => some c
  | .not :: .null :: rest => withClauses? { c with notNull := true } rest
  | .other w :: .zero :: rest => if w = "default".toList then withClauses? c rest else none
  | .other w :: .quoted _ :: rest => if w = "default".toList then withClauses? c rest else none
  | .other w :: .other x :: .other y :: rest =>
    if w = "primary".toList ∧ x = "key".toList ∧ y = "autoincrement".toList then
      withClauses? { c with isKey := true } rest
    else none
  | _ => none

/-- The column of symbols: its name, its type and its clauses. -/
def TableColumn.read? : List Symbol → Option TableColumn
  | .column name :: .other type :: clauses => withClauses? ⟨name, type, false, false⟩ clauses
  | _ => none

/-- The columns of a key up to its closing parenthesis, with which it ends. -/
def TableItem.keyColumns? : List Symbol → Option (List String)
  | [.column c, .closing] => some [c]
  | .column c :: .comma :: rest => (keyColumns? rest).map (c :: ·)
  | _ => none

/-- The item of symbols. -/
def TableItem.read? : List Symbol → Option TableItem
  | .other w :: .other x :: .opening :: rest =>
    if w = "primary".toList ∧ x = "key".toList then (keyColumns? rest).map .key else none
  | symbols => (TableColumn.read? symbols).map .column

/-- The table of symbols. -/
def TableDefinition.read? : List Symbol → Option TableDefinition
  | .other c :: .other t :: .other i :: .not :: .other e :: .column table :: .opening :: rest =>
    if c = "create".toList ∧ t = "table".toList ∧ i = "if".toList ∧ e = "exists".toList then
      match rest.reverse with
      | .closing :: body => (readItems? TableItem.read? body.reverse).map (⟨table, ·⟩)
      | _ => none
    else none
  | _ => none

/-! ## Columns -/

namespace ColumnType

/-- The symbols of the clause for columns that may not hold NULL. -/
def requiredSymbols : FieldType → List Symbol
  | .integer | .number | .boolean => [.other "default".toList, .zero, .not, .null]
  | .text => [.other "default".toList, .quoted [], .not, .null]
  | .date => [.not, .null]
  | .json => []

theorem readsAs_name : ∀ t : FieldType,
    Mark.ReadsAs (ofText (" " ++ (ofFieldType t).name)) [.other (ofFieldType t).name.toList]
  | .integer | .boolean => .of_word [] "integer".toList fun ms =>
    (rfl : scanFrom .nothing (ofText " integer" ++ ms) = _)
  | .number => .of_word [] "numeric".toList fun ms =>
    (rfl : scanFrom .nothing (ofText " numeric" ++ ms) = _)
  | .text | .date => .of_word [] "text".toList fun ms =>
    (rfl : scanFrom .nothing (ofText " text" ++ ms) = _)
  | .json => .of_word [] "json".toList fun ms =>
    (rfl : scanFrom .nothing (ofText " json" ++ ms) = _)

/-- The text of the clause for columns that may not hold NULL, with a blank before it. -/
def requiredText (type : ColumnType) : String := type.required.elim "" fun clause => " " ++ clause

/-- The clause for columns that may not hold NULL is read as its symbols. -/
theorem readsAs_required : ∀ t : FieldType,
    Mark.ReadsAs (ofText (ofFieldType t).requiredText) (requiredSymbols t)
  | .integer | .number | .boolean => .of_word [.other "default".toList, .zero, .not] "null".toList
    fun ms => (rfl : scanFrom .nothing (ofText " default 0 not null" ++ ms) = _)
  | .text => .of_word [.other "default".toList, .quoted [], .not] "null".toList
    fun ms => (rfl : scanFrom .nothing (ofText " default '' not null" ++ ms) = _)
  | .date => .of_word [.not] "null".toList
    fun ms => (rfl : scanFrom .nothing (ofText " not null" ++ ms) = _)
  | .json => .nil

theorem stops_required {ms : List Mark} (hms : Stops ms) : ∀ t : FieldType,
    Stops (ofText (ofFieldType t).requiredText ++ ms)
  | .integer | .number | .boolean =>
    (stops_char (.inl rfl) _ : Stops (ofText " default 0 not null" ++ ms))
  | .text => (stops_char (.inl rfl) _ : Stops (ofText " default '' not null" ++ ms))
  | .date => (stops_char (.inl rfl) _ : Stops (ofText " not null" ++ ms))
  | .json => hms

/-- What comes after the name of a column: its type, and the clause for columns that may not hold
NULL if it is one of them. -/
def clauses (type : ColumnType) (required : Bool) : List Mark :=
  ofText (" " ++ type.name) ++ (if required then ofText type.requiredText else [])

/-- A column with its type is an item. -/
theorem itemOf_clauses (t : FieldType) (required : Bool) (name : String) :
    Mark.ItemOf TableItem.read? (.column name :: (ofFieldType t).clauses required)
      (.column ⟨name, (ofFieldType t).name.toList, false,
        required && (ofFieldType t).required.isSome⟩) := by
  refine ⟨.column name :: ([.other (ofFieldType t).name.toList] ++
    (if required then requiredSymbols t else [])), List.cons_ne_nil _ _,
    .column (.append (readsAs_name t) ?_ ?_) name, .of_forall_isPlain ?_, ?_⟩
  · intro ms hms
    cases required with
    | false => exact hms
    | true => exact stops_required hms t
  · cases required with
    | false => exact .nil
    | true => exact readsAs_required t
  · cases required <;> cases t <;> simp [requiredSymbols, Symbol.isPlain]
  · cases required <;> cases t <;> rfl

end ColumnType

/-! ## Primary keys -/

/-- The text of a primary key over some columns, with these set apart. -/
def TableItem.keyMarks (columns : List String) : List Mark :=
  ofText "primary key (" ++
    ((ofText ", ").intercalate (columns.map fun c => [.column c]) ++ ofText ")")

/-- The columns of a key are read up to its end. -/
theorem TableItem.keyColumns?_intercalate : ∀ {columns : List String}, columns ≠ [] →
    keyColumns? ([Symbol.comma].intercalate (columns.map fun c => [.column c]) ++ [.closing]) =
      some columns
  | [], h => absurd rfl h
  | [c], _ => rfl
  | c :: c' :: columns, _ => by
    have hrest := keyColumns?_intercalate (List.cons_ne_nil c' columns)
    rw [List.map_cons] at hrest
    rw [List.map_cons, List.map_cons, List.intercalate_cons_cons, List.append_assoc,
      List.append_assoc, List.singleton_append, List.singleton_append, keyColumns?, hrest]
    rfl

/-- A primary key over some columns is an item. -/
theorem TableItem.itemOf_keyMarks {columns : List String} (h : columns ≠ []) :
    Mark.ItemOf read? (keyMarks columns) (.key columns) := by
  have hcolumns : List.Forall₂ Mark.ReadsAs (columns.map fun c => [.column c])
      (columns.map fun c => [.column c]) :=
    forall₂_map_map fun c _ => .column .nil c
  have hhead : ∀ ms, scanFrom .nothing (ofText "primary key (" ++ ms) =
      .other "primary".toList :: .other "key".toList :: .opening :: scanFrom .nothing ms :=
    fun _ => rfl
  refine ⟨[.other "primary".toList, .other "key".toList] ++ (.opening ::
    [Symbol.comma].intercalate (columns.map fun c => [.column c]) ++ [.closing]),
    List.cons_ne_nil _ _, fun ms _ => ?_, (IsItem.of_forall_isPlain ?_).append (.enclosed ?_), ?_⟩
  · rw [keyMarks, List.append_assoc, List.append_assoc, hhead,
      Mark.ReadsAs.intercalate hcolumns (by simpa using h) _ (stops_closing ms), scan_closing]
    simp
  · simp [Symbol.isPlain]
  · simp only [List.forall_mem_map]
    exact fun c _ => .of_isPlain rfl
  · have hread : ∀ rest,
        read? (.other "primary".toList :: .other "key".toList :: .opening :: rest) =
          (keyColumns? rest).map .key := fun _ => by rw [read?, if_pos ⟨rfl, rfl⟩]
    exact (hread _).trans (congrArg (Option.map TableItem.key) (keyColumns?_intercalate h))

/-- The text of a primary key is that of its marks. -/
theorem TableItem.spells_keyMarks (columns : List String) :
    Mark.Spells (keyMarks columns) ("primary key (" ++ String.intercalate ", " columns ++ ")") := by
  have hcolumns : List.Forall₂ Mark.Spells (columns.map fun c => [.column c]) columns := by
    refine List.forall₂_map_left_iff.2 (List.forall₂_same.2 fun c _ => ?_)
    have h := (Mark.spells_ofText "").column c
    rwa [String.append_empty] at h
  rw [String.append_assoc]
  exact (Mark.spells_ofText _).append ((Mark.Spells.intercalate ", " hcolumns).append
    (Mark.spells_ofText _))

namespace Entity

variable (e : Entity) (wrap : String → String)

/-- The database numbers rows in the column of a field, which is the identity. -/
def numbers (f : Field) : Prop := e.autoIdentity?.map Field.key = some f.key

instance (f : Field) : Decidable (e.numbers f) := inferInstanceAs (Decidable (_ = _))

/-- The column of a field may not hold NULL. -/
def requires (f : Field) : Bool := !f.allowNull || e.identity.contains f.key

/-- The text that defines the column of a field, with its name set apart. -/
def columnMarks (f : Field) : List Mark :=
  .column (wrap f.column) ::
    if e.numbers f then ofText " integer primary key autoincrement"
    else (ColumnType.ofField f).clauses (e.requires f)

/-- The column of a field. -/
def tableColumn (f : Field) : TableColumn :=
  if e.numbers f then ⟨wrap f.column, "integer".toList, true, false⟩
  else ⟨wrap f.column, (ColumnType.ofField f).name.toList, false,
    e.requires f && (ColumnType.ofField f).required.isSome⟩

/-- The text that defines a column is that of its marks. -/
theorem spells_columnMarks (f : Field) :
    Mark.Spells (e.columnMarks wrap f) (e.columnDefinition wrap f) := by
  have htail : Mark.Spells ((ColumnType.ofField f).clauses (e.requires f))
      (" " ++ (ColumnType.ofField f).name ++
        if e.requires f then (ColumnType.ofField f).requiredText else "") := by
    refine (Mark.spells_ofText _).append ?_
    cases e.requires f with
    | false => exact Mark.spells_ofText ""
    | true => exact Mark.spells_ofText _
  rw [columnMarks, columnDefinition]
  by_cases hnumbers : e.numbers f
  · have hauto : e.autoIdentity?.map Field.key = some f.key := hnumbers
    rw [if_pos hnumbers, if_pos hauto]
    exact (Mark.spells_ofText _).column _
  · have hauto : ¬ e.autoIdentity?.map Field.key = some f.key := hnumbers
    rw [if_neg hnumbers, if_neg hauto]
    refine cast (congrArg _ ?_) (htail.column (wrap f.column))
    have hrequires : (!f.allowNull || e.identity.contains f.key) = e.requires f := rfl
    simp only [ColumnType.requiredText, hrequires]
    cases (ColumnType.ofField f).required <;> cases e.requires f <;> simp [String.append_assoc]

theorem itemOf_columnMarks (f : Field) :
    Mark.ItemOf TableItem.read? (e.columnMarks wrap f) (.column (e.tableColumn wrap f)) := by
  rw [columnMarks, tableColumn]
  by_cases hnumbers : e.numbers f
  · rw [if_pos hnumbers, if_pos hnumbers]
    exact ⟨_, List.cons_ne_nil _ _, .column (.of_word [.other "integer".toList,
      .other "primary".toList, .other "key".toList] "autoincrement".toList fun _ => rfl) _,
      .of_forall_isPlain (by simp [Symbol.isPlain, Symbol.ofWord]), rfl⟩
  · rw [if_neg hnumbers, if_neg hnumbers]
    exact ColumnType.itemOf_clauses _ _ _

/-! ## The statement -/

/-- The columns of the primary key. -/
def keyColumns : List String := e.identityFields.map fun f => wrap f.column

/-- The text of the statement that creates the table, with the names of the table and of its columns
set apart. -/
def tableMarks : List Mark :=
  ofText "create table if not exists " ++ .column (wrap e.table) :: (ofText " (" ++
    ((ofText ", ").intercalate ((e.fields.filter Field.hasColumn).map (e.columnMarks wrap) ++
      if e.autoIdentity?.isSome then [] else [TableItem.keyMarks (e.keyColumns wrap)]) ++
    ofText ")"))

/-- The table of an entity: a column for each field that has one, and a primary key at the end
unless a column is the key. -/
def tableDefinition : TableDefinition :=
  ⟨wrap e.table, ((e.fields.filter Field.hasColumn).map fun f => .column (e.tableColumn wrap f)) ++
    if e.autoIdentity?.isSome then [] else [.key (e.keyColumns wrap)]⟩

/-- The statement that creates the table has the text of its marks. -/
theorem spells_tableMarks : Mark.Spells (e.tableMarks wrap) (e.createTableBy wrap) := by
  have hkey : List.Forall₂ Mark.Spells
      (if e.autoIdentity?.isSome then [] else [TableItem.keyMarks (e.keyColumns wrap)])
      (e.keyClause wrap) := by
    rw [keyClause]
    cases e.autoIdentity? with
    | some f => exact .nil
    | none => exact .cons (TableItem.spells_keyMarks _) .nil
  have hcolumns : List.Forall₂ Mark.Spells
      ((e.fields.filter Field.hasColumn).map (e.columnMarks wrap))
      ((e.fields.filter Field.hasColumn).map (e.columnDefinition wrap)) :=
    forall₂_map_map fun f _ => e.spells_columnMarks wrap f
  have hitems := Mark.Spells.intercalate ", " (List.rel_append hcolumns hkey)
  have hbody := (Mark.spells_ofText " (").append (hitems.append (Mark.spells_ofText ")"))
  have hall :=
    (Mark.spells_ofText "create table if not exists ").append (hbody.column (wrap e.table))
  simp only [← String.append_assoc] at hall
  exact hall

/-- The statement that creates the table is read as the table. -/
theorem read?_tableMarks (h : e.autoIdentity? = none → e.identityFields ≠ []) :
    TableDefinition.read? (scan (e.tableMarks wrap)) = some (e.tableDefinition wrap) := by
  have hkey : List.Forall₂ (Mark.ItemOf TableItem.read?)
      (if e.autoIdentity?.isSome then [] else [TableItem.keyMarks (e.keyColumns wrap)])
      (if e.autoIdentity?.isSome then [] else [.key (e.keyColumns wrap)]) := by
    cases hauto : e.autoIdentity? with
    | some f => exact .nil
    | none => exact .cons (TableItem.itemOf_keyMarks (by simpa [keyColumns] using h hauto)) .nil
  have hcolumns : List.Forall₂ (Mark.ItemOf TableItem.read?)
      ((e.fields.filter Field.hasColumn).map (e.columnMarks wrap))
      ((e.fields.filter Field.hasColumn).map fun f => .column (e.tableColumn wrap f)) :=
    forall₂_map_map fun f _ => e.itemOf_columnMarks wrap f
  have hitems : List.Forall₂ (Mark.ItemOf TableItem.read?)
      ((e.fields.filter Field.hasColumn).map (e.columnMarks wrap) ++
        if e.autoIdentity?.isSome then [] else [TableItem.keyMarks (e.keyColumns wrap)])
      (e.tableDefinition wrap).items := List.rel_append hcolumns hkey
  obtain ⟨symbols, hreads, hread⟩ := exists_readItems? hitems
  have hhead : ∀ table ms, scanFrom .nothing
      (ofText "create table if not exists " ++ .column table :: (ofText " (" ++ ms)) =
      .other "create".toList :: .other "table".toList :: .other "if".toList :: .not ::
        .other "exists".toList :: .column table :: .opening :: scanFrom .nothing ms :=
    fun _ _ => rfl
  have hclosing : scanFrom .nothing (ofText ")") = [.closing] := rfl
  have hsymbols : scan (e.tableMarks wrap) = .other "create".toList :: .other "table".toList ::
      .other "if".toList :: .not :: .other "exists".toList :: .column (wrap e.table) :: .opening ::
        (symbols ++ [.closing]) := by
    rw [scan, tableMarks, hhead, hreads (ofText ")") (stops_closing []), hclosing]
  rw [hsymbols, TableDefinition.read?, if_pos ⟨rfl, rfl, rfl, rfl⟩, List.reverse_append]
  have hbody : (readItems? TableItem.read? symbols.reverse.reverse).map
      (TableDefinition.mk (wrap e.table)) = some (e.tableDefinition wrap) := by
    rw [List.reverse_reverse, hread]
    rfl
  exact hbody

/-- A name of the entity as it stands in statements: that of the table or of a column. -/
def IsName (text : String) : Prop := text = wrap e.table ∨ ∃ f ∈ e.fields, text = wrap f.column

/-- What is set apart in the statement that creates the table are names of the entity. -/
theorem allKnown_tableMarks : Mark.AllKnown (e.IsName wrap) (e.tableMarks wrap) := by
  have hcolumn : ∀ f ∈ e.fields, Mark.AllKnown (e.IsName wrap) (e.columnMarks wrap f) := by
    intro f hf
    rw [columnMarks, Mark.allKnown_column]
    refine ⟨.inr ⟨f, hf, rfl⟩, ?_⟩
    split
    · exact Mark.allKnown_ofText _
    · rw [ColumnType.clauses, Mark.allKnown_append]
      refine ⟨Mark.allKnown_ofText _, ?_⟩
      split
      · exact Mark.allKnown_ofText _
      · exact Mark.allKnown_nil
  have hkey : Mark.AllKnown (e.IsName wrap) (TableItem.keyMarks (e.keyColumns wrap)) := by
    rw [TableItem.keyMarks, Mark.allKnown_append, Mark.allKnown_append]
    refine ⟨Mark.allKnown_ofText _, Mark.allKnown_intercalate ", " ?_, Mark.allKnown_ofText _⟩
    simp only [keyColumns, List.map_map, List.forall_mem_map, Function.comp_apply,
      Mark.allKnown_column, Mark.allKnown_nil, and_true]
    intro f hf
    obtain ⟨key, -, hfound⟩ := List.mem_filterMap.1 hf
    exact .inr ⟨f, List.mem_of_find?_eq_some hfound, rfl⟩
  rw [tableMarks, Mark.allKnown_append, Mark.allKnown_column, Mark.allKnown_append,
    Mark.allKnown_append]
  refine ⟨Mark.allKnown_ofText _, .inl rfl, Mark.allKnown_ofText _,
    Mark.allKnown_intercalate ", " fun ms hms => ?_, Mark.allKnown_ofText _⟩
  rcases List.mem_append.1 hms with hms | hms
  · obtain ⟨f, hf, rfl⟩ := List.mem_map.1 hms
    exact hcolumn f (List.mem_filter.1 hf).1
  · split at hms
    · cases hms
    · exact List.mem_singleton.1 hms ▸ hkey

/-- The statement that creates the table of an entity, with its names set apart, is read as a
table. -/
def Creates (d : TableDefinition) : Prop :=
  ∃ ms, (∀ style, (Mark.template ms).sql style = e.createTableBy wrap) ∧
    Mark.AllKnown (e.IsName wrap) ms ∧ TableDefinition.read? (scan ms) = some d

/-- An entity creates its table. -/
theorem creates_tableDefinition (h : e.autoIdentity? = none → e.identityFields ≠ []) :
    e.Creates wrap (e.tableDefinition wrap) :=
  ⟨e.tableMarks wrap, (e.spells_tableMarks wrap).sql, e.allKnown_tableMarks wrap,
    e.read?_tableMarks wrap h⟩

end Entity

end EntitySql
