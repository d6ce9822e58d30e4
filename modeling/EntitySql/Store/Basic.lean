import EntitySql.RowOrder
import EntitySql.Session.Database
import EntitySql.Value.Record

/-!
# Stores

A store gives access to the rows of one entity through a database handle. This
module has what its operations share: the list of columns that they select,
the reading of rows, and the identity by which one row is addressed.

- `Store`: an entity as it is stored, with a handle.
- `Store.decodeRow`, `Store.decodeSingle`: rows as records.
- `RowId`, `Store.identityValues`, `Store.identityFilter`: one row.
- `Store.writtenValues`: what statements write of a record.
-/

namespace EntitySql

/-- Access to the rows of an entity. -/
structure Store where
  /-- The entity as the database stores it. -/
  entity : Entity
  database : Database

/-- The store of an entity. -/
def Database.store (db : Database) (e : Entity) : Store := ⟨db.stored e, db⟩

/-- The identity of a row. -/
inductive RowId where
  /-- The value of the only identity field. -/
  | single (v : Value)
  /-- The values of identity fields by key. -/
  | compound (values : Record)

/-- Identities are the same if their values are. -/
def RowId.same : RowId → RowId → Bool
  | .single v, .single w => v.same w
  | .compound r, .compound s => r.same s
  | _, _ => false

namespace Store

/-! ## Columns and rows -/

/-- The texts that stand for fields. -/
def columnTexts (names : EntityNames) : List Field → Except Failure (List String)
  | [] => .ok []
  | f :: fs => do
    let column ← names.columnOf f.key
    .ok (column :: (← columnTexts names fs))

/-- The list of all columns that the database knows, as statements select them. -/
def selectList (e : Entity) (names : EntityNames) : Except Failure String := do
  .ok (String.intercalate ", " (← columnTexts names e.selected))

/-- The value of a field in the cell at a place of a row. -/
def decodeCell (e : Entity) (f : Field) (place : Nat) (row : List Value) :
    Except Failure Value :=
  match row[place]? with
  | none => .error (.decode e.key f.key s!"result has no column at position {place}")
  | some cell =>
    match f.converter.ofStored cell with
    | .ok v => .ok v
    | .error failure => .error (.decode e.key f.key failure.message)

/-- The values of fields in the cells of a row from a place on. -/
def decodeCells (e : Entity) (row : List Value) : (place : Nat) → List Field →
    Except Failure (List (String × Value))
  | _, [] => .ok []
  | place, f :: fs => do
    let v ← decodeCell e f place row
    .ok ((f.key, v) :: (← decodeCells e row (place + 1) fs))

/-- A row as a record; cells after those of the fields are passed over. -/
def decodeRow (e : Entity) (row : List Value) : Except Failure Record := do
  .ok (Record.ofPairs (← decodeCells e row 0 e.selected))

/-- Rows as records. -/
def decodeRows (e : Entity) : List (List Value) → Except Failure (List Record)
  | [] => .ok []
  | row :: rows => do
    let r ← decodeRow e row
    .ok (r :: (← decodeRows e rows))

/-- The only row of a result as a record. -/
def decodeSingle (e : Entity) (operation : String) (result : RowSet) : Except Failure Record :=
  match result.rows with
  | [row] => decodeRow e row
  | rows => .error (.cardinality e.key operation 1 rows.length)

/-! ## Identity -/

/-- The values of identity fields, each of which has to be there and not NULL. -/
def componentsOf (e : Entity) (operation : String) (values : Record) : List String →
    Except Failure (List (String × Value))
  | [] => .ok []
  | key :: keys => do
    let missing : Failure := .missingIdentity e.key operation key
    let v ← match values.get? key with
      | some v => if v.isNull then .error missing else .ok v
      | none => .error missing
    .ok ((key, v) :: (← componentsOf e operation values keys))

/-- The values that identify a row, one for each identity field. -/
def identityValues (e : Entity) (operation : String) (id : RowId) : Except Failure Record :=
  match id with
  | .single v =>
    match e.identity with
    | [] => .ok Record.empty
    | [key] =>
      if v.isNull then .error (.missingIdentity e.key operation key)
      else .ok (Record.empty.insert key v)
    | _ :: second :: _ => .error (.missingIdentity e.key operation second)
  | .compound values => do
    .ok (Record.ofPairs (← componentsOf e operation values e.identity))

/-- The filter for the row with the given identity. -/
def identityFilter (values : Record) : Filter :=
  match values.entries.map fun v => Filter.compare v.1 .eq v.2 with
  | [f] => f
  | fs => .and fs

/-! ## Written values -/

/-- The stored values of the fields that a record gives values to. -/
def storedValues (data : Record) (skipNulls : Bool) : List Field →
    Except Failure (List (Field × Value))
  | [] => .ok []
  | f :: fs =>
    match data.get? f.key with
    | none => storedValues data skipNulls fs
    | some v => do
      let stored ← f.converter.toStored v
      let rest ← storedValues data skipNulls fs
      .ok (if skipNulls && stored.isNull then rest else (f, stored) :: rest)

/-- What statements write of a record: the values of writable fields, in declaration order. -/
def writtenValues (e : Entity) (data : Record) (skipNulls : Bool) :
    Except Failure (List (Field × Value)) :=
  storedValues data skipNulls e.writable

end Store

end EntitySql
