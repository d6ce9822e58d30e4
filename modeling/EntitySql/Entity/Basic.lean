import EntitySql.Converter

/-!
# Entities

An entity describes how the rows of one table look to an application: its
fields with their types and converters, and which of them identify a row. A
field has a column of its own, or is computed by an SQL expression, or is
computed by the application and unknown to the database.

- `Field`, `Entity`: the description.
- `Field.hasColumn`, `Field.isReadOnly`: what statements may do with a field.
- `Entity.build`: an entity from its parts, if they fit together.
- `Entity.storedAs`: an entity for databases without a type for documents.
-/

namespace EntitySql

/-- The types of fields. -/
inductive FieldType where
  | integer
  | number
  | text
  | boolean
  | date
  | json
deriving DecidableEq, Repr

/-- The converter of a type. -/
def FieldType.converter : FieldType → Converter
  | .integer => .integer
  | .number => .number
  | .text => .text
  | .boolean => .boolean
  | .date => .date
  | .json => .json

/-- A field of an entity. -/
structure Field where
  /-- The name that the application uses. -/
  key : String
  /-- The name of the column. -/
  column : String
  type : FieldType
  converter : Converter
  /-- The SQL expression that computes the field. -/
  expression : Option String
  /-- The application computes the field; the database does not know it. -/
  isServerExpression : Bool
  /-- The database writes the column; statements only read it. -/
  dbReadOnly : Bool
  /-- The column may hold NULL. -/
  allowNull : Bool
  /-- The database numbers new rows in this column. -/
  autoIncrement : Bool
deriving DecidableEq, Repr

namespace Field

/-- A field whose column has its name, with the converter of its type. -/
def ofType (key : String) (type : FieldType) : Field :=
  { key, column := key, type, converter := type.converter, expression := none
    isServerExpression := false, dbReadOnly := false, allowNull := false
    autoIncrement := false }

/-- The field has a column of its own. -/
def hasColumn (f : Field) : Bool := !f.isServerExpression && f.expression.isNone

/-- Statements never write the field. -/
def isReadOnly (f : Field) : Bool := f.dbReadOnly || !f.hasColumn || f.autoIncrement

end Field

/-- How the rows of one table look to an application. -/
structure Entity where
  key : String
  /-- The name of the table. -/
  table : String
  fields : List Field
  /-- The keys of the fields that identify a row. -/
  identity : List String
deriving DecidableEq, Repr

namespace Entity

/-- The field of the given key. -/
def field? (e : Entity) (key : String) : Option Field := e.fields.find? fun f => f.key == key

/-- The field of the given key, or the failure for an unknown one. -/
def field (e : Entity) (key : String) : Except Failure Field :=
  match e.field? key with
  | some f => .ok f
  | none => .error (.fieldNotFound e.key key)

/-- The fields that identify a row. -/
def identityFields (e : Entity) : List Field := e.identity.filterMap e.field?

/-- The identity, if it is one field that the database numbers. -/
def autoIdentity? (e : Entity) : Option Field :=
  match e.identity with
  | [only] => e.fields.find? fun f => f.key == only && f.autoIncrement
  | _ => none

/-- The fields that the database knows, in declaration order. -/
def selected (e : Entity) : List Field := e.fields.filter fun f => !f.isServerExpression

/-- The fields that statements may write, in declaration order. -/
def writable (e : Entity) : List Field := e.fields.filter fun f => !f.isReadOnly

/-! ## Building -/

/-- Checks fields from left to right against the keys and columns already seen. -/
def checkFields (entity : String) : (keys columns : List String) → List Field →
    Except Failure Unit
  | _, _, [] => .ok ()
  | keys, columns, f :: fs =>
    if keys.contains f.key then
      .error (.invalidMetadata s!"duplicate field '{f.key}' in entity '{entity}'")
    else if f.hasColumn then
      if columns.contains f.column then
        .error (.invalidMetadata s!"duplicate column '{f.column}' in entity '{entity}'")
      else checkFields entity (f.key :: keys) (f.column :: columns) fs
    else checkFields entity (f.key :: keys) columns fs

/-- Checks that the keys of an identity name fields with columns, from left to right. -/
def checkIdentity (e : Entity) : List String → Except Failure Unit
  | [] => .ok ()
  | id :: ids => do
    let f ← e.field id
    if f.hasColumn then checkIdentity e ids
    else .error (.invalidMetadata s!"identity field '{id}' of entity '{e.key}' has no column")

/-- The entity of the given parts. The table has the name of the entity unless it is given one,
and the first field identifies rows unless others are named. -/
def build (key : String) (table : Option String) (fields : List Field)
    (identity : List String) : Except Failure Entity :=
  match fields with
  | [] => .error (.invalidMetadata s!"entity '{key}' has no fields")
  | first :: _ => do
    checkFields key [] [] fields
    let e : Entity :=
      { key, table := table.getD key, fields
        identity := if identity.isEmpty then [first.key] else identity }
    checkIdentity e e.identity
    .ok e

/-! ## Storage without documents -/

/-- The entity with another converter for a field. -/
def withConverter (e : Entity) (key : String) (c : Converter) : Entity :=
  { e with fields := e.fields.map fun f => if f.key = key then { f with converter := c } else f }

/-- The keys of the fields that hold documents in columns of their own type. -/
def documentKeys (e : Entity) : List String :=
  (e.fields.filter fun f => f.converter.typeHint == some "json").map Field.key

/-- The entity as it is stored: where the database has no type for documents, they become text,
one field after the other. -/
def storedAs (e : Entity) (hasJsonColumns : Bool) : Entity :=
  if hasJsonColumns then e
  else e.documentKeys.foldl (fun e key => e.withConverter key .jsonText) e

end Entity

end EntitySql
