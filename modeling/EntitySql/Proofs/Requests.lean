import EntitySql.Proofs.Operations
import EntitySql.Proofs.Through
import EntitySql.Script.Basic

/-!
# Requests

What can be asked of a database is asked through a handle: the operations of
stores, the conditions of filters and hand-written statements. Each of them
reaches the session through that handle only.

- `Database.Request`, `Database.Request.perform`: what can be asked through a handle.
- `Store.count_through` and the like, one for each operation: what it sends.
- `Database.Request.perform_through`: a request goes through its handle.
-/

namespace EntitySql

/-! ## Operations -/

namespace Action.Through

variable {db : Database} {P : Statement → Prop} {sent : Bool} {α β : Type}

theorem of_pure (a : α) : Through db P sent (pure a : Action α) :=
  .found (x := .ok a) fun _ => FailsAs.of_ok a

/-- After a statement was sent, anything may be found out. -/
theorem found_after (x : Except Failure α) : Through db P true (liftM x : Action α) :=
  .found fun h => nomatch h

theorem build {x : Except Failure α} {f : α → Action β} (hx : FailsStructurally x)
    (hf : ∀ a, x = .ok a → Through db P sent (f a)) :
    Through db P sent ((liftM x : Action α) >>= f) :=
  .bind (.found fun _ => hx) fun a _ _ h => hf a (Prod.ext_iff.1 h).1

/-- An action that does not depend on the way to it. -/
theorem andThen {m : Action α} {f : α → Action β} (hm : Through db P sent m)
    (hf : ∀ a, Through db P sent (f a)) : Through db P sent (m >>= f) :=
  .bind hm fun a _ _ _ => hf a

theorem send {t : Template} {f : RowSet → Action α} (hsent : P (t.statement db.dialect.style))
    (hf : ∀ result, Through db P true (f result)) : Through db P sent (db.send t >>= f) :=
  .execute hsent hf

end Action.Through

open Action.Through

namespace Store

variable {st : Store} {P : Statement → Prop} {sent : Bool}

/-- Rows are counted through the handle of the store. -/
theorem count_through {f : Filter} (hsent : ∀ names t, countStatement st.entity names f = .ok t →
    P (t.statement st.database.dialect.style)) :
    Action.Through st.database P sent (st.count f) := by
  refine .andThen (.names _) fun names => ?_
  refine .build (countStatement_failsAs .structural f) fun t ht => ?_
  exact .send (hsent names t ht) fun result => .found_after _

theorem find_through {o : FindOptions} (hsent : ∀ names t,
    findStatement st.entity names st.database.dialect o = .ok t →
      P (t.statement st.database.dialect.style)) :
    Action.Through st.database P sent (st.find o) := by
  refine .andThen (.names _) fun names => ?_
  refine .build (findStatement_failsAs .structural o) fun t ht => ?_
  exact .send (hsent names t ht) fun result => .found_after _

theorem findOne_through {operation : String} {f : Filter} (hsent : ∀ names t,
    selectStatement st.entity names f = .ok t → P (t.statement st.database.dialect.style)) :
    Action.Through st.database P sent (st.findOne operation f) := by
  refine .andThen (.names _) fun names => ?_
  refine .build (selectStatement_failsAs .structural f) fun t ht => ?_
  exact .send (hsent names t ht) fun result => .found_after _

/-- What an insert does with the answer to its statement. -/
def afterInsert (st : Store) (data : Record) (sql : String) (result : RowSet) : Action Record :=
  if st.database.dialect.capabilities.returning then do
    let row ← decodeSingle st.entity "insert" result
    st.database.signalChange
    return row
  else do
    st.database.signalChange
    let filter ← insertedFilter st data sql result
    st.findOne "insert" filter

/-- An insert sends its statement and does the rest with the answer. -/
theorem insert_eq (st : Store) (data : Record) :
    st.insert data = (do
      let names ← st.database.names st.entity
      let statement ← insertStatement st.entity names st.database.dialect data
      let result ← st.database.send statement
      st.afterInsert data (statement.sql st.database.dialect.style) result : Action Record) := rfl

/-- A row that was inserted is read through the handle of the store. -/
theorem afterInsert_through {data : Record} {sql : String} {result : RowSet}
    (hread : ∀ names f t, selectStatement st.entity names f = .ok t →
      P (t.statement st.database.dialect.style)) :
    Action.Through st.database P true (st.afterInsert data sql result) := by
  rw [afterInsert]
  split
  · refine .andThen (.found_after _) fun row => ?_
    exact .andThen .signal fun _ => .of_pure row
  · refine .andThen .signal fun _ => ?_
    exact .andThen (.found_after _) fun f => findOne_through fun names t ht => hread names f t ht

theorem insert_through {data : Record}
    (hsent : ∀ names t, insertStatement st.entity names st.database.dialect data = .ok t →
      P (t.statement st.database.dialect.style))
    (hreread : ∀ names f t, selectStatement st.entity names f = .ok t →
      P (t.statement st.database.dialect.style)) :
    Action.Through st.database P sent (st.insert data) := by
  refine .andThen (.names _) fun names => ?_
  refine .build (insertStatement_failsAs .structural data) fun t ht => ?_
  exact .send (hsent names t ht) fun result => afterInsert_through hreread

/-- What an update does with the answer to its statement. -/
def afterUpdate (st : Store) (before data : Record) (result : RowSet) : Action Record :=
  if st.database.dialect.capabilities.returning then do
    let row ← decodeSingle st.entity "update" result
    st.database.signalChange
    return row
  else do
    expectOneChanged st.entity result
    st.database.signalChange
    st.findOne "update" (identityFilter (currentIdentity before data))

/-- What an update does once its names are known. -/
def updateWith (st : Store) (before data : Record) (names : EntityNames) : Action Record := do
  let written ← writtenValues st.entity data false
  if written.isEmpty then st.findOne "update" (identityFilter before)
  else
    let statement ← updateStatement st.entity names st.database.dialect before written
    let result ← st.database.send statement
    st.afterUpdate before data result

/-- An update looks up the names of its entity and does the rest with them. -/
theorem update_eq (st : Store) (id : RowId) (data : Record) :
    st.update id data = (do
      let before ← identityValues st.entity "update" id
      let names ← st.database.names st.entity
      st.updateWith before data names : Action Record) := rfl

theorem afterUpdate_through {before data : Record} {result : RowSet}
    (hread : ∀ names f t, selectStatement st.entity names f = .ok t →
      P (t.statement st.database.dialect.style)) :
    Action.Through st.database P true (st.afterUpdate before data result) := by
  rw [afterUpdate]
  split
  · refine .andThen (.found_after _) fun row => ?_
    exact .andThen .signal fun _ => .of_pure row
  · refine .andThen (.found_after _) fun _ => .andThen .signal fun _ => ?_
    exact findOne_through fun names t ht => hread names _ t ht

theorem updateWith_through {before data : Record} {names : EntityNames}
    (hsent : ∀ written t, writtenValues st.entity data false = .ok written →
      updateStatement st.entity names st.database.dialect before written = .ok t →
        P (t.statement st.database.dialect.style))
    (hread : ∀ names f t, selectStatement st.entity names f = .ok t →
      P (t.statement st.database.dialect.style)) :
    Action.Through st.database P sent (st.updateWith before data names) := by
  refine .build ((writtenValues_failsAs data false).imp fun _ h => h.kind_eq)
    fun written hwritten => ?_
  split
  · exact findOne_through fun names t ht => hread names _ t ht
  · refine .build (updateStatement_failsAs .structural before written) fun t ht => ?_
    exact .send (hsent written t hwritten ht) fun result => afterUpdate_through hread

/-- What a deletion does once its names are known. -/
def deleteWith (st : Store) (identity : Record) (names : EntityNames) : Action Unit := do
  let statement ← deleteStatement st.entity names identity
  let _ ← st.database.send statement
  st.database.signalChange

theorem delete_eq (st : Store) (id : RowId) :
    st.delete id = (do
      let identity ← identityValues st.entity "delete" id
      let names ← st.database.names st.entity
      st.deleteWith identity names : Action Unit) := rfl

theorem deleteWith_through {identity : Record} {names : EntityNames}
    (hsent : ∀ t, deleteStatement st.entity names identity = .ok t →
      P (t.statement st.database.dialect.style)) :
    Action.Through st.database P sent (st.deleteWith identity names) := by
  refine .build (deleteStatement_failsAs .structural identity) fun t ht => ?_
  exact .send (hsent t ht) fun _ => .signal

theorem insertDefaults_through
    (hinsert : Action.Through st.database P sent (st.insert Record.empty)) :
    ∀ rows : List Record, Action.Through st.database P sent (st.insertDefaults rows)
  | [] => .of_pure ()
  | _ :: rest => .andThen hinsert fun _ => insertDefaults_through hinsert rest

theorem insertChunks_through {names : EntityNames}
    (hinsert : Action.Through st.database P sent (st.insert Record.empty))
    (hsent : ∀ fields rows t, bulkStatement names fields rows = .ok t →
      P (t.statement st.database.dialect.style)) :
    ∀ pieces : List (List Record), Action.Through st.database P sent (st.insertChunks names pieces)
  | [] => .of_pure 0
  | chunk :: rest => by
    refine .andThen ?_ fun inserted =>
      .andThen (insertChunks_through hinsert hsent rest) fun others => .of_pure _
    refine .build ((writtenRows_failsAs chunk).imp fun _ h => h.kind_eq) fun rows _ => ?_
    dsimp only
    split
    · exact .andThen (insertDefaults_through hinsert chunk) fun _ => .of_pure _
    · refine .build (bulkStatement_failsAs (e := st.entity) .structural _ _) fun t ht => ?_
      refine .send (hsent _ _ t ht) fun result => ?_
      exact .andThen .signal fun _ => .of_pure _

end Store

/-! ## Requests -/

open Script (Reply)

/-- An operation of a store as an action. -/
def Operation.perform (st : Store) : Operation → Action Reply
  | .count f => return .number (← st.count f)
  | .find o => return .records (← st.find o)
  | .insert data => return .record (← st.insert data)
  | .update id data => return .record (← st.update id data)
  | .delete id => do
    st.delete id
    return .nothing
  | .bulkInsert rows => return .number (← st.bulkInsert rows)

/-- What can be asked through a handle. -/
inductive Database.Request where
  /-- An operation of the store of an entity, as the database stores it. -/
  | operate (e : Entity) (op : Operation)
  /-- The condition of a filter, with its values as literals. -/
  | condition (e : Entity) (f : Filter)
  /-- A hand-written statement, with the values that were bound to it. -/
  | execute (sql : String) (params : List Value) (arguments : List (String × Value))

/-- A request as an action. -/
def Database.Request.perform (db : Database) : Database.Request → Action Reply
  | .operate e op => op.perform ⟨e, db⟩
  | .condition e f => return .text (← db.filterText e f)
  | .execute sql params arguments => return .rows (← db.execute sql params arguments)

/-- A hand-written statement is run as a request of its handle. -/
theorem Command.run_eq (c : Command) (sql : String) (s : Session) :
    (Database.Request.execute sql c.pending c.arguments).perform c.database s =
      ((c.run sql s).1.map .rows, (c.run sql s).2) := by
  rw [Database.Request.perform, run]
  cases h : c.database.execute sql c.pending c.arguments s with
  | mk result t =>
    cases result with
    | ok a => exact Action.bind_of_ok h
    | error failure => exact Action.bind_of_error h

/-- The whole of an operation goes through the handle of its store. -/
theorem Operation.perform_through (st : Store) (op : Operation) :
    Action.Through st.database (fun _ => True) false (op.perform st) := by
  have hinsert : ∀ data, Action.Through st.database (fun _ => True) false (st.insert data) :=
    fun _ => Store.insert_through (fun _ _ _ => trivial) fun _ _ _ _ => trivial
  cases op with
  | count f => exact .andThen (Store.count_through fun _ _ _ => trivial) fun _ => .of_pure _
  | find o => exact .andThen (Store.find_through fun _ _ _ => trivial) fun _ => .of_pure _
  | insert data => exact .andThen (hinsert data) fun _ => .of_pure _
  | update rowId data =>
    refine .andThen (.build ((Store.identityValues_failsAs _ _).imp fun _ h => h.kind_eq)
      fun before _ => ?_) fun _ => .of_pure _
    exact .andThen (.names _) fun names =>
      Store.updateWith_through (fun _ _ _ _ => trivial) fun _ _ _ _ => trivial
  | delete rowId =>
    refine .andThen (.build ((Store.identityValues_failsAs _ _).imp fun _ h => h.kind_eq)
      fun identity _ => ?_) fun _ => .of_pure _
    exact .andThen (.names _) fun names => Store.deleteWith_through fun _ _ => trivial
  | bulkInsert rows =>
    refine .andThen (.andThen (.names _) fun names => ?_) fun _ => .of_pure _
    exact Store.insertChunks_through (hinsert _) (fun _ _ _ _ => trivial) _

/-- The whole of a request goes through its handle. -/
theorem Database.Request.perform_through (db : Database) (r : Database.Request) :
    Action.Through db (fun _ => True) false (r.perform db) := by
  cases r with
  | operate e op => exact op.perform_through ⟨e, db⟩
  | condition e f =>
    refine .andThen (.andThen (.names _) fun names => ?_) fun _ => .of_pure _
    exact .build (f.compile_failsAs .structural) fun _ _ => .of_pure _
  | execute sql params arguments => exact .execute trivial fun _ => .of_pure _

end EntitySql
