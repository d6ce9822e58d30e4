import EntitySql.Condition.OfFilter
import EntitySql.Dialect
import EntitySql.Session.Basic

/-!
# Databases and transactions

A database handle stands for a scope of a session. The root handle can be used
as long as the session lasts. A transaction hands out a handle for a scope of
its own; as soon as the work in it is done, nothing reaches the database
through that handle any more, whoever may have kept it.

- `Database`: a handle.
- `Database.execute`: runs a statement, reports it, and turns its failure into
  one that carries the statement.
- `Database.names`: the names of an entity; its first use is announced once in
  a scope.
- `Database.transaction`: work between `begin` and `commit` or `rollback`, or
  between a savepoint and its release inside another transaction.
-/

namespace EntitySql

/-- A handle to a database. -/
structure Database where
  dialect : Dialect
  log : LogConfig
  /-- The number of its scope. -/
  scope : Nat
  /-- How many transactions it is in. -/
  depth : Nat

namespace Database

/-- The handle that lasts as long as the session. -/
def root (dialect : Dialect) (log : LogConfig) : Database := ⟨dialect, log, 0, 0⟩

/-- Fails once the scope of the handle is closed. -/
def checkOpen (db : Database) : Action Unit := fun s =>
  if s.isOpen db.scope then (.ok (), s) else (.error .transactionCompleted, s)

/-! ## Statements -/

/-- Reports a failed statement. The failure that comes out carries a statement; the end of a
transaction is not the failure of a statement and passes through unreported. -/
def statementFailed {α : Type} (db : Database) (sql : String)
    (arguments : List (String × Value)) (f : Failure) : Action α := fun s =>
  let reported := s.report (db.log.reportFailed sql arguments f)
  match f with
  | .transactionCompleted => (.error .transactionCompleted, s)
  | .execution detail sql params => (.error (.execution detail sql params), reported)
  | f => (.error (.execution f.message sql arguments), reported)

/-- Runs a statement and reports it. `arguments` are the values that belong to the statement,
each under its token. -/
def execute (db : Database) (sql : String) (params : List Value)
    (arguments : List (String × Value)) : Action RowSet :=
  Action.onFailure
    (do
      db.checkOpen
      let result ← Action.receive sql params
      Action.update fun s => s.report (db.log.reportDone s.elapsed sql arguments)
      return result)
    (db.statementFailed sql arguments)

/-- Runs a statement with parameters. -/
def send (db : Database) (t : Template) : Action RowSet :=
  db.execute (t.sql db.dialect.style) t.values (t.arguments db.dialect.style)

/-- Signals a change of rows. -/
def signalChange (db : Database) : Action Unit :=
  Action.update fun s =>
    if db.dialect.countsMutations then { s with mutations := s.mutations + 1 } else s

/-! ## Entities -/

/-- The statements that create the tables of entities, as a failure shows them. -/
def schemaText (db : Database) (es : List Entity) : String :=
  String.intercalate ";\n" (es.map fun e => e.createTable db.dialect.quoting)

/-- Fails because of tables. If the database refused, the failure carries the statements that
create the tables. -/
def schemaFailed {α : Type} (db : Database) (es : List Entity) (f : Failure) : Action α :=
  match f with
  | .driver _ | .execution .. => db.statementFailed (db.schemaText es) [] f
  | f => Action.fail f

/-- Tells the database of the first use of an entity. -/
def announce (db : Database) (e : Entity) : Action Unit := do
  db.checkOpen
  match db.dialect.firstUse with
  | .performs => Action.update fun s => { s with firstUses := s.firstUses ++ [e.key] }
  | .ignores => return ()
  | .fails f => Action.fail f

/-- The names of an entity. They are settled when the entity is first used in the scope, and
that use is announced. -/
def names (db : Database) (e : Entity) : Action EntityNames := fun s =>
  match (s.namesIn db.scope).find? fun n => n.1 == e.key with
  | some n => (.ok n.2, s)
  | none =>
    let settled := EntityNames.resolve e db.dialect.quoting
    (do
      Action.onFailure (db.announce e) (db.schemaFailed [e])
      Action.update fun s => s.remember db.scope e.key settled
      return settled : Action EntityNames) s

/-- An entity as the database stores it. -/
def stored (db : Database) (e : Entity) : Entity :=
  e.storedAs db.dialect.capabilities.jsonColumns

/-- Creates the tables of entities that have none. -/
def ensureSchema (db : Database) (es : List Entity) : Action Unit :=
  let es := es.map db.stored
  Action.onFailure
    (do
      db.checkOpen
      match db.dialect.schema with
      | .performs =>
        Action.update fun s =>
          es.foldl (fun s e => s.record (e.createTable db.dialect.quoting) []) s
      | .ignores => return ()
      | .fails f => Action.fail f)
    (db.schemaFailed es)

/-- The condition of a filter with its values as literals, for use in hand-written statements;
empty if the filter holds for every row. -/
def filterText (db : Database) (e : Entity) (f : Filter) : Action String := do
  let e := db.stored e
  let names ← db.names e
  let compiled ← f.compile e names
  return Template.inlined (compiled.getD [])

/-! ## Transactions -/

/-- The name of the savepoint at a depth. -/
def savepoint (depth : Nat) : String := s!"sp_{depth}"

/-- What opens a transaction inside as many others as `depth` says. -/
def openingText (depth : Nat) : String :=
  if depth = 0 then "begin" else "savepoint " ++ savepoint depth

/-- What ends a transaction, keeping its work or not. -/
def closingText (depth : Nat) (keep : Bool) : String :=
  if depth = 0 then (if keep then "commit" else "rollback")
  else (if keep then "release savepoint " else "rollback to savepoint ") ++ savepoint depth

/-- Opens a transaction; gives the handle to it. The names known outside are known in it. -/
def openTransaction (db : Database) : Action Database := do
  db.checkOpen
  Action.update fun s => s.record (openingText db.depth) []
  fun s =>
    (.ok { db with scope := s.scopes.length, depth := db.depth + 1 }, s.openScope db.scope)

/-- Ends the transaction of a handle that `db` opened. The handle is dead before the statement
that ends the transaction is sent. -/
def closeTransaction (db inner : Database) (keep : Bool) (s : Session) : Session :=
  (s.closeScope inner.scope).record (closingText db.depth keep) []

/-- Does work in a transaction; the work is kept unless it fails. -/
def transaction {α : Type} (db : Database) (work : Database → Action α) : Action α := fun s =>
  match db.openTransaction s with
  | (.error f, s) => (.error f, s)
  | (.ok inner, s) =>
    match work inner s with
    | (.ok a, s) => (.ok a, db.closeTransaction inner true s)
    | (.error f, s) => (.error f, db.closeTransaction inner false s)

/-- Ends the use of the database. The handle of a transaction has nothing to end. -/
def finish (db : Database) : Action Unit :=
  if db.depth = 0 then
    match db.dialect.finish with
    | .fails f => Action.fail f
    | _ => return ()
  else return ()

end Database

/-! ## Hand-written statements -/

/-- A hand-written statement under construction. -/
structure Command where
  database : Database
  /-- The values bound since the statement was last sent. -/
  pending : List Value
  /-- All values ever bound, each under its token. -/
  arguments : List (String × Value)

namespace Database

/-- A statement to be written by hand. -/
def command (db : Database) : Command := ⟨db, [], []⟩

/-- Runs a hand-written statement without parameters. -/
def executeText (db : Database) (sql : String) : Action RowSet := db.execute sql [] []

end Database

namespace Command

/-- The token of the next value. -/
def nextToken (c : Command) : String := c.database.dialect.style.token (c.pending.length + 1)

/-- Binds a value. -/
def param (c : Command) (v : Value) : Command :=
  { c with pending := c.pending ++ [v], arguments := c.arguments ++ [(c.nextToken, v)] }

/-- Runs the statement. -/
def run (c : Command) (sql : String) : Action RowSet :=
  c.database.execute sql c.pending c.arguments

/-- The command after it was run in the given session. If the statement reached the database,
the next one starts with no values. -/
def afterRun (c : Command) (s : Session) : Command :=
  if s.isOpen c.database.scope then { c with pending := [] } else c

end Command

end EntitySql
