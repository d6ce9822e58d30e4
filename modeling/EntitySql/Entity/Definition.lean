import EntitySql.Entity.Basic

/-!
# Entity definitions

Entities can be written down as JSON documents. A definition is such a
document read: it has the parts of an entity before they are checked against
each other. The types of fields are written by their names in small letters.

- `FieldDefinition`, `EntityDefinition`: the parts.
- `EntityDefinition.toJson`: the document of a definition.
- `EntityDefinition.toEntity`: the entity, if its parts fit together.
-/

namespace EntitySql

namespace FieldType

/-- The name of a type in documents. -/
def name : FieldType → String
  | .integer => "integer"
  | .number => "number"
  | .text => "text"
  | .boolean => "boolean"
  | .date => "date"
  | .json => "json"

/-- All types, in the order in which messages list them. -/
def all : List FieldType := [.integer, .number, .text, .boolean, .date, .json]

/-- The type of the given name. -/
def ofName? (s : String) : Option FieldType := all.find? fun t => t.name == s

theorem ofName?_name (t : FieldType) : ofName? t.name = some t := by
  cases t <;> decide

end FieldType

/-- A field as it is written down. -/
structure FieldDefinition where
  key : String
  type : FieldType
  /-- The name of the column, if it is not the key. -/
  dbName : Option String
  allowNull : Bool
  autoIncrement : Bool
  dbReadOnly : Bool
  serverExpression : Bool
  sqlExpression : Option String
deriving DecidableEq, Repr

/-- An entity as it is written down. -/
structure EntityDefinition where
  key : String
  /-- The name of the table, if it is not the key. -/
  dbName : Option String
  fields : List FieldDefinition
  /-- The keys of the identity; the first field if there are none. -/
  id : List String
deriving DecidableEq, Repr

/-- An optional text as a document. -/
def optionalText : Option String → Json
  | none => .null
  | some s => .text s

namespace FieldDefinition

/-- The document of a field. -/
def toJson (d : FieldDefinition) : Json :=
  .object
    [("key", .text d.key), ("type", .text d.type.name), ("dbName", optionalText d.dbName),
     ("allowNull", .bool d.allowNull), ("autoIncrement", .bool d.autoIncrement),
     ("dbReadOnly", .bool d.dbReadOnly), ("serverExpression", .bool d.serverExpression),
     ("sqlExpression", optionalText d.sqlExpression)]

/-- The field that is written down. -/
def toField (d : FieldDefinition) : Field :=
  { Field.ofType d.key d.type with
    column := d.dbName.getD d.key
    expression := d.sqlExpression
    allowNull := d.allowNull
    autoIncrement := d.autoIncrement
    dbReadOnly := d.dbReadOnly
    isServerExpression := d.serverExpression }

end FieldDefinition

namespace EntityDefinition

/-- The document of a definition. -/
def toJson (d : EntityDefinition) : Json :=
  .object
    [("key", .text d.key), ("dbName", optionalText d.dbName),
     ("fields", .array (d.fields.map FieldDefinition.toJson)),
     ("id", .array (d.id.map .text))]

/-- The entity that is written down, if its parts fit together. -/
def toEntity (d : EntityDefinition) : Except Failure Entity :=
  Entity.build d.key d.dbName (d.fields.map FieldDefinition.toField) d.id

end EntityDefinition

end EntitySql
