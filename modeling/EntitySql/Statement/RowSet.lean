import EntitySql.Value.Basic

/-!
# Results of statements

- `RowSet`: what a database answers to a statement.
-/

namespace EntitySql

/-- What a database answers to a statement. -/
structure RowSet where
  columns : List String
  /-- Rows with their cells in the order of the columns. -/
  rows : List (List Value)
  /-- How many rows a statement has changed, if the database says so. -/
  affected : Option Nat
  /-- The number given to the last new row, if the database says so. -/
  lastId : Option Int64

namespace RowSet

/-- No rows, and nothing said about changes. -/
def empty : RowSet := ⟨[], [], none, none⟩

instance : Inhabited RowSet := ⟨empty⟩

/-- No rows, and one row changed. -/
def oneChanged : RowSet := { empty with affected := some 1 }

/-- The name of the column at a place. -/
def columnName? (r : RowSet) (place : Nat) : Option String := r.columns[place]?

end RowSet

end EntitySql
