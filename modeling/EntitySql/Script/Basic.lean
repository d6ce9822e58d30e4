import EntitySql.Store.Operations

/-!
# Scripts

A script is a list of steps that use a database one after the other. A step may
be a transaction, whose own steps use the handle that the transaction hands
out; and a step may keep a handle, a store or a command under a name, so that
later steps can use it, even after the transaction it came from has ended.

- `Source`, `StoreSource`: what a step uses.
- `Task`: a step that uses the session and keeps nothing.
- `Step`: a step of a script.
- `Answer`: what a step brought about.
-/

namespace EntitySql.Script

/-- Where the handle of a step comes from. -/
inductive Source where
  /-- The handle that the script, or the transaction around the step, goes through. -/
  | current
  /-- The handle kept under a name. -/
  | kept (name : String)
deriving DecidableEq, Repr

/-- Where the store of a step comes from. -/
inductive StoreSource where
  /-- The store of an entity, made for the step. -/
  | fresh (source : Source) (entity : Entity)
  /-- The store kept under a name. -/
  | kept (name : String)

/-- A step that uses the session and keeps nothing. -/
inductive Task where
  | find (store : StoreSource) (options : FindOptions)
  | count (store : StoreSource) (filter : Filter)
  | insert (store : StoreSource) (data : Record)
  | update (store : StoreSource) (id : RowId) (data : Record)
  | delete (store : StoreSource) (id : RowId)
  | bulkInsert (store : StoreSource) (rows : List Record)
  /-- The entity of a store. -/
  | describe (store : StoreSource)
  /-- The condition of a filter, with its values as literals. -/
  | filterText (source : Source) (entity : Entity) (filter : Filter)
  /-- A hand-written statement without parameters. -/
  | execute (source : Source) (sql : String)
  | ensureSchema (source : Source) (entities : List Entity)
  | finish (source : Source)
  /-- What the database can do, and what it reports. -/
  | capabilities (source : Source)
  /-- An answer is put in line for the statements to come. -/
  | expect (answer : Scripted)
  /-- Statements received and answers to come are forgotten. -/
  | clear
  /-- Two identities are compared. -/
  | compare (id other : RowId)
  /-- The step fails before it does anything. -/
  | refuse (failure : Failure)

/-- How the work of a transaction ends once its steps are taken. -/
inductive Ending where
  /-- Well, whatever became of the steps. -/
  | well
  /-- With the first failure of a step; no step is taken after it. -/
  | asSteps
  /-- With a failure of its own, whatever became of the steps. -/
  | badly (failure : Failure)

/-- A step of a script. -/
inductive Step where
  | task (task : Task)
  /-- A hand-written statement is begun and kept. -/
  | openCommand (source : Source) (name : String)
  /-- A value is bound to the statement kept under a name. -/
  | bind (name : String) (v : Value)
  /-- The statement kept under a name is run. -/
  | runCommand (name sql : String)
  /-- A handle is kept. -/
  | keepDatabase (source : Source) (name : String)
  /-- A store is kept. -/
  | keepStore (store : StoreSource) (name : String)
  | transaction (source : Source) (steps : List Step) (ending : Ending)

/-- The result of a step that did not fail. -/
inductive Reply where
  | nothing
  | number (n : Nat)
  | text (s : String)
  | record (r : Record)
  | records (rs : List Record)
  | rows (result : RowSet)
  | entity (e : Entity)
  | capabilities (c : Capabilities) (log : LogConfig)
  | comparison (id : RowId) (same : Bool)

/-- What a step brought about, as far as no answer before it has told. -/
structure Answer where
  /-- The result of the step. -/
  reply : Except Failure Reply
  /-- The statements received. -/
  statements : List Statement
  /-- The entities whose first use was announced. -/
  firstUses : List String
  /-- The reports of statements. -/
  log : List LogEvent
  /-- How many changes were signalled since the script began. -/
  mutations : Nat
  /-- The answers of the steps inside, if the step was a transaction that did its work. -/
  inside : Option (List Answer)

end EntitySql.Script
