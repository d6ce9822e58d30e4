import EntitySql.Store.Statements

/-!
# The operations of a store

Rows are counted, searched, inserted, updated and deleted. Where the database
gives the rows that it writes, an insert or update takes its result from
there; elsewhere the row is read again: by the number that the database gave
it, or by its identity.

- `Store.count`, `Store.find`.
- `Store.insert`, `Store.update`, `Store.delete`.
- `Store.bulkInsert`: many rows with few statements.
-/

namespace EntitySql.Store

/-- The number in the first cell of a result; negative numbers count as zero. -/
def countOf (e : Entity) (result : RowSet) : Except Failure Nat :=
  match (result.rows.head?.bind List.head?).bind Value.toInt64? with
  | some n => .ok n.toInt.toNat
  | none => .error (.decode e.key "count" "count query returned no number")

/-- Counts the rows that pass a filter. -/
def count (st : Store) (f : Filter) : Action Nat := do
  let names ← st.database.names st.entity
  let statement ← countStatement st.entity names f
  let result ← st.database.send statement
  countOf st.entity result

/-- Searches rows. -/
def find (st : Store) (o : FindOptions) : Action (List Record) := do
  let names ← st.database.names st.entity
  let statement ← findStatement st.entity names st.database.dialect o
  let result ← st.database.send statement
  decodeRows st.entity result.rows

/-- Reads the only row that passes a filter. -/
def findOne (st : Store) (operation : String) (f : Filter) : Action Record := do
  let names ← st.database.names st.entity
  let statement ← selectStatement st.entity names f
  let result ← st.database.send statement
  decodeSingle st.entity operation result

/-! ## Insert -/

/-- The filter for the row that was just inserted: by the number that the database gave it, or
by the identity in the record. -/
def insertedFilter (st : Store) (data : Record) (sql : String) (result : RowSet) :
    Except Failure Filter :=
  match st.entity.autoIdentity? with
  | some f =>
    match result.lastId with
    | some n => .ok (.compare f.key .eq (.integer n))
    | none =>
      .error (.execution
        s!"insert into '{st.entity.key}' did not report the generated '{f.key}'" sql [])
  | none => do
    .ok (identityFilter (← identityValues st.entity "insert" (.compound data)))

/-- Inserts a row; gives it as the database has it. -/
def insert (st : Store) (data : Record) : Action Record := do
  let names ← st.database.names st.entity
  let statement ← insertStatement st.entity names st.database.dialect data
  let result ← st.database.send statement
  if st.database.dialect.capabilities.returning then
    let row ← decodeSingle st.entity "insert" result
    st.database.signalChange
    return row
  else
    st.database.signalChange
    let filter ← insertedFilter st data (statement.sql st.database.dialect.style) result
    st.findOne "insert" filter

/-! ## Update -/

/-- The identity of a row after an update with a record. -/
def currentIdentity (before data : Record) : Record :=
  Record.ofPairs (before.entries.map fun (key, v) =>
    match data.get? key with
    | some changed => if changed.isNull then (key, v) else (key, changed)
    | none => (key, v))

/-- Refuses an update that changed more or less than one row. -/
def expectOneChanged (e : Entity) (result : RowSet) : Except Failure Unit :=
  match result.affected with
  | some n => if n = 1 then .ok () else .error (.cardinality e.key "update" 1 n)
  | none => .ok ()

/-- Updates the row of an identity; gives it as the database has it. If nothing of the record
can be written the row is only read. -/
def update (st : Store) (id : RowId) (data : Record) : Action Record := do
  let before ← identityValues st.entity "update" id
  let names ← st.database.names st.entity
  let written ← writtenValues st.entity data false
  if written.isEmpty then st.findOne "update" (identityFilter before)
  else
    let statement ← updateStatement st.entity names st.database.dialect before written
    let result ← st.database.send statement
    if st.database.dialect.capabilities.returning then
      let row ← decodeSingle st.entity "update" result
      st.database.signalChange
      return row
    else
      expectOneChanged st.entity result
      st.database.signalChange
      st.findOne "update" (identityFilter (currentIdentity before data))

/-! ## Delete -/

/-- Deletes the row of an identity. -/
def delete (st : Store) (id : RowId) : Action Unit := do
  let identity ← identityValues st.entity "delete" id
  let names ← st.database.names st.entity
  let statement ← deleteStatement st.entity names identity
  let _ ← st.database.send statement
  st.database.signalChange

/-! ## Many rows -/

/-- Pieces of at most `size + 1` members. -/
def chunks {α : Type} (size : Nat) : List α → List (List α)
  | [] => []
  | x :: xs => (x :: xs.take size) :: chunks size (xs.drop size)
termination_by xs => xs.length
decreasing_by
  simp only [List.length_drop, List.length_cons]
  omega

/-- Inserts a row of defaults for each record of a list. -/
def insertDefaults (st : Store) : List Record → Action Unit
  | [] => return ()
  | _ :: rest => do
    let _ ← st.insert Record.empty
    st.insertDefaults rest

/-- Inserts the rows of one statement; gives their number. Rows that give no value to any column
are inserted one by one. -/
def insertChunk (st : Store) (names : EntityNames) (chunk : List Record) : Action Nat := do
  let rows ← writtenRows st.entity chunk
  let fields := bulkFields st.entity rows
  if fields.isEmpty then
    st.insertDefaults chunk
    return chunk.length
  else
    let statement ← bulkStatement names fields rows
    let result ← st.database.send statement
    st.database.signalChange
    return result.affected.getD chunk.length

/-- Inserts pieces of a list; gives the number of rows. -/
def insertChunks (st : Store) (names : EntityNames) : List (List Record) → Action Nat
  | [] => return 0
  | chunk :: rest => do
    let inserted ← st.insertChunk names chunk
    let others ← st.insertChunks names rest
    return inserted + others

/-- Inserts many rows; gives their number. -/
def bulkInsert (st : Store) (rows : List Record) : Action Nat := do
  let names ← st.database.names st.entity
  st.insertChunks names (chunks (bulkSize - 1) rows)

end EntitySql.Store
