import EntitySql.Entity.Names

/-!
# The table of an entity

The statement that creates the table of an entity has one column for each
field with a column of its own, and one primary key: inside the column that
the database numbers, or else at the end over the identity.

- `ColumnType.ofField`: the type of a column.
- `Entity.createTable`, `Entity.createTableBy`: the statement, for a way of quoting and
  for any function that wraps names.
-/

namespace EntitySql

/-- The type of a column and the clause it has unless it may hold NULL. -/
structure ColumnType where
  name : String
  required : Option String
deriving DecidableEq, Repr

namespace ColumnType

/-- The type of columns for a type of fields. -/
def ofFieldType : FieldType → ColumnType
  | .integer => ⟨"integer", some "default 0 not null"⟩
  | .number => ⟨"numeric", some "default 0 not null"⟩
  | .boolean => ⟨"integer", some "default 0 not null"⟩
  | .text => ⟨"text", some "default '' not null"⟩
  | .date => ⟨"text", some "not null"⟩
  | .json => ⟨"json", none⟩

/-- The type that the hint of a converter names. -/
def hinted? (hint : Option String) : Option FieldType :=
  if hint = some "integer" then some .integer
  else if hint = some "text" then some .text
  else if hint = some "json" then some .json
  else none

/-- The type of the column of a field: what its converter stores, else what it is. -/
def ofField (f : Field) : ColumnType :=
  ofFieldType ((hinted? f.converter.typeHint).getD f.type)

end ColumnType

namespace Entity

section

variable (e : Entity) (wrap : String → String)

/-- A column as it is defined: the name, the type, and whether it may hold NULL. -/
def columnDefinition (f : Field) : String :=
  let name := wrap f.column
  if e.autoIdentity?.map Field.key = some f.key then
    name ++ " integer primary key autoincrement"
  else
    let type := ColumnType.ofField f
    match type.required with
    | some clause =>
      if !f.allowNull || e.identity.contains f.key then
        name ++ " " ++ type.name ++ " " ++ clause
      else name ++ " " ++ type.name
    | none => name ++ " " ++ type.name

/-- The primary key at the end of a table, unless a column already declares it. -/
def keyClause : List String :=
  match e.autoIdentity? with
  | some _ => []
  | none =>
    let columns := e.identityFields.map fun f => wrap f.column
    ["primary key (" ++ String.intercalate ", " columns ++ ")"]

/-- The statement that creates the table, with names wrapped by a function. -/
def createTableBy : String :=
  let columns := (e.fields.filter Field.hasColumn).map (e.columnDefinition wrap)
  "create table if not exists " ++ wrap e.table ++ " (" ++
    String.intercalate ", " (columns ++ e.keyClause wrap) ++ ")"

end

/-- The statement that creates the table, with quoted names. -/
def createTable (e : Entity) (q : Quoting) : String := e.createTableBy q.wrap

end Entity

end EntitySql
