import EntitySql.Script.Basic

/-!
# Runs of scripts

Steps are taken on a bench: a session together with what earlier steps kept,
and with how much of the session the answers have told so far. Each step gives
an answer, also when it fails; a transaction gives the answers of its steps
before its own.

- `Bench`: the state of a run.
- `Task.perform`: a task as an action of the session.
- `Step.take`, `takeAll`: steps on a bench.
- `run`: the answers to a script.
-/

namespace EntitySql.Script

/-- The state of a run. -/
structure Bench where
  session : Session
  /-- How many statements the answers have told. -/
  toldStatements : Nat
  /-- How many first uses the answers have told. -/
  toldFirstUses : Nat
  /-- How many reports the answers have told. -/
  toldReports : Nat
  /-- The handles kept, the latest first. -/
  databases : List (String × Database)
  /-- The stores kept, the latest first. -/
  stores : List (String × Store)
  /-- The hand-written statements kept, the latest first. -/
  commands : List (String × Command)

/-- The latest thing kept under a name. -/
def keptAs {α : Type} (name : String) (things : List (String × α)) : Except Failure α :=
  match things.find? fun t => t.1 == name with
  | some t => .ok t.2
  | none => .error (.configuration s!"nothing is kept as '{name}'")

namespace Bench

/-- The bench of a session in which nothing has happened. -/
def fresh : Bench := ⟨Session.fresh, 0, 0, 0, [], [], []⟩

/-- Something happens to the session. -/
def act {α : Type} (b : Bench) (action : Action α) : Except Failure α × Bench :=
  let (result, s) := action b.session
  (result, { b with session := s })

/-- The answer to a step; from now on it has been told. -/
def answer (b : Bench) (reply : Except Failure Reply) (inside : Option (List Answer)) :
    Answer × Bench :=
  let s := b.session
  ({ reply
     statements := s.statements.drop b.toldStatements
     firstUses := s.firstUses.drop b.toldFirstUses
     log := s.log.drop b.toldReports
     mutations := s.mutations
     inside },
   { b with
     toldStatements := s.statements.length
     toldFirstUses := s.firstUses.length
     toldReports := s.log.length })

/-- The handle of a step. -/
def database (b : Bench) (current : Database) : Source → Except Failure Database
  | .current => .ok current
  | .kept name => keptAs name b.databases

/-- The store of a step. -/
def store (b : Bench) (current : Database) : StoreSource → Except Failure Store
  | .fresh source e => (b.database current source).map fun db => db.store e
  | .kept name => keptAs name b.stores

end Bench

/-- A task as an action of the session. -/
def Task.perform (b : Bench) (current : Database) : Task → Action Reply
  | .find store options => do
    let st ← b.store current store
    return .records (← st.find options)
  | .count store filter => do
    let st ← b.store current store
    return .number (← st.count filter)
  | .insert store data => do
    let st ← b.store current store
    return .record (← st.insert data)
  | .update store id data => do
    let st ← b.store current store
    return .record (← st.update id data)
  | .delete store id => do
    let st ← b.store current store
    st.delete id
    return .nothing
  | .bulkInsert store rows => do
    let st ← b.store current store
    return .number (← st.bulkInsert rows)
  | .describe store => do
    let st ← b.store current store
    return .entity st.entity
  | .filterText source e filter => do
    let db ← b.database current source
    return .text (← db.filterText e filter)
  | .execute source sql => do
    let db ← b.database current source
    return .rows (← db.executeText sql)
  | .ensureSchema source es => do
    let db ← b.database current source
    db.ensureSchema es
    return .nothing
  | .finish source => do
    let db ← b.database current source
    db.finish
    return .nothing
  | .capabilities source => do
    let db ← b.database current source
    return .capabilities db.dialect.capabilities db.log
  | .expect answer => do
    Action.update fun s => s.expect answer
    return .nothing
  | .clear => do
    Action.update Session.clear
    return .nothing
  | .compare id other => return .comparison id (id.same other)
  | .refuse failure => Action.fail failure

/-- Binds a value to the statement kept under a name. -/
def Bench.bind (b : Bench) (name : String) (v : Value) : Except Failure Reply × Bench :=
  match keptAs name b.commands with
  | .error f => (.error f, b)
  | .ok c => (.ok (.text c.nextToken), { b with commands := (name, c.param v) :: b.commands })

/-- Runs the statement kept under a name. -/
def Bench.runCommand (b : Bench) (name sql : String) : Except Failure Reply × Bench :=
  match keptAs name b.commands with
  | .error f => (.error f, b)
  | .ok c =>
    let (result, ran) := b.act (c.run sql)
    (result.map .rows, { ran with commands := (name, c.afterRun b.session) :: ran.commands })

/-- Opens the transaction of a step; gives the handle around it and the one inside. -/
def Bench.openTransaction (b : Bench) (current : Database) (source : Source) :
    Action (Database × Database) := do
  let db ← b.database current source
  return (db, ← db.openTransaction)

namespace Ending

/-- No step is taken after one that failed. -/
def stops : Ending → Bool
  | .asSteps => true
  | .well | .badly _ => false

/-- The result of the work, given the failure that stopped its steps. -/
def result : Ending → Option Failure → Except Failure Reply
  | .well, _ | .asSteps, none => .ok .nothing
  | .asSteps, some f => .error f
  | .badly f, _ => .error f

end Ending

/-- A result is a success. -/
def succeeded : Except Failure Reply → Bool
  | .ok _ => true
  | .error _ => false

mutual

/-- Takes a step. -/
def Step.take (current : Database) : Step → Bench → Answer × Bench
  | .task t, b =>
    let (reply, b) := b.act (t.perform b current)
    b.answer reply none
  | .openCommand source name, b =>
    match b.database current source with
    | .error f => b.answer (.error f) none
    | .ok db =>
      { b with commands := (name, db.command) :: b.commands }.answer (.ok .nothing) none
  | .bind name v, b =>
    let (reply, b) := b.bind name v
    b.answer reply none
  | .runCommand name sql, b =>
    let (reply, b) := b.runCommand name sql
    b.answer reply none
  | .keepDatabase source name, b =>
    match b.database current source with
    | .error f => b.answer (.error f) none
    | .ok db => { b with databases := (name, db) :: b.databases }.answer (.ok .nothing) none
  | .keepStore store name, b =>
    match b.store current store with
    | .error f => b.answer (.error f) none
    | .ok st => { b with stores := (name, st) :: b.stores }.answer (.ok .nothing) none
  | .transaction source steps ending, b =>
    match b.act (b.openTransaction current source) with
    | (.error f, b) => b.answer (.error f) none
    | (.ok (outer, inner), b) =>
      let (answers, failure?, b) := takeAll inner ending.stops steps b
      let result := ending.result failure?
      let closed := outer.closeTransaction inner (succeeded result) b.session
      { b with session := closed }.answer result (some answers)

/-- Takes steps one after the other; if `stops` is set, none after one that failed. Gives the
answers and the failure that stopped the steps. -/
def takeAll (current : Database) (stops : Bool) :
    List Step → Bench → List Answer × Option Failure × Bench
  | [], b => ([], none, b)
  | step :: rest, b =>
    let (a, b) := step.take current b
    match stops, a.reply with
    | true, .error f => ([a], some f, b)
    | _, _ =>
      let (others, failure?, b) := takeAll current stops rest b
      (a :: others, failure?, b)

end

/-- The answers to a script that goes through the given handle. -/
def run (db : Database) (steps : List Step) : List Answer := (takeAll db false steps .fresh).1

end EntitySql.Script
