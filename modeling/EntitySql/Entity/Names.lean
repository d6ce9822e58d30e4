import EntitySql.Entity.Basic
import EntitySql.Identifier

/-!
# Names in statements

Statements refer to a field by its quoted column, or by its SQL expression in
parentheses. All names of an entity are settled together, once for a way of
quoting.

- `EntityNames.resolve`, `EntityNames.resolveBy`: the names of an entity, for a way of
  quoting and for any function that wraps names.
- `EntityNames.columnOf`: the text that stands for a field.
-/

namespace EntitySql

/-- The names of one entity in statements. -/
structure EntityNames where
  /-- The entity that the names belong to. -/
  entityKey : String
  /-- The quoted table. -/
  table : String
  /-- The text for each field that the database knows, by key. -/
  columns : List (String × String)
deriving DecidableEq, Repr

namespace EntityNames

/-- The text that stands for a field that the database knows. -/
def fieldTextBy (wrap : String → String) (f : Field) : String :=
  match f.expression with
  | some expression => "(" ++ expression ++ ")"
  | none => wrap f.column

/-- The names of an entity, wrapped by a function. -/
def resolveBy (e : Entity) (wrap : String → String) : EntityNames :=
  { entityKey := e.key
    table := wrap e.table
    columns := e.selected.map fun f => (f.key, fieldTextBy wrap f) }

/-- The text that stands for a field, with quoted names. -/
def fieldText (q : Quoting) : Field → String := fieldTextBy q.wrap

/-- The names of an entity, quoted. -/
def resolve (e : Entity) (q : Quoting) : EntityNames := resolveBy e q.wrap

/-- The text that stands for a field; none for unknown fields and for those that only the
application knows. -/
def columnOf (names : EntityNames) (key : String) : Except Failure String :=
  match names.columns.find? fun c => c.1 == key with
  | some c => .ok c.2
  | none => .error (.fieldNotFound names.entityKey key)

end EntityNames

end EntitySql
