import EntitySql.Proofs.Requests
import EntitySql.Script.Run
import Mathlib.Logic.Relation

/-!
# Runs

A session is used in steps: requests through handles, transactions that open
and end, answers that are put in line. A run is any number of them, through any
handles and in any order.

- `Session.Step`, `Session.LeadsTo`: steps and runs.
- `Session.LeadsTo.isEnded`: a scope that has ended stays ended.
- `Script.takeAll_leadsTo`: a script that is taken is a run.
-/

namespace EntitySql

namespace Session

/-- A step in the use of a session. -/
inductive Step (s : Session) : Session → Prop
  /-- A request through a handle. -/
  | request (db : Database) (r : Database.Request) : Step s (r.perform db s).2
  /-- The tables of entities are created. -/
  | schema (db : Database) (es : List Entity) : Step s (db.ensureSchema es s).2
  /-- A transaction is opened. -/
  | opened (db : Database) : Step s (db.openTransaction s).2
  /-- A scope ends. -/
  | ended (scope : Nat) : Step s (s.closeScope scope)
  /-- The end of a transaction is recorded. -/
  | recorded (sql : String) : Step s (s.record sql [])
  /-- An answer is put in line. -/
  | expected (answer : Scripted) : Step s (s.expect answer)
  /-- Statements and answers are forgotten. -/
  | cleared : Step s s.clear

/-- A run from one session to another one. -/
def LeadsTo : Session → Session → Prop := Relation.ReflTransGen Step

/-- There is a scope of the number, and it has ended. -/
structure IsEnded (s : Session) (scope : Nat) : Prop where
  exists_scope : scope < s.scopes.length
  closed : s.isOpen scope = false

end Session

/-! ## Scopes in runs -/

/-- The creation of tables records statements and reports failures, and does nothing else. -/
theorem Database.ensureSchema_keeps {β : Type} (read : Session → β)
    (hrecord : ∀ s sql, read (s.record sql []) = read s)
    (hreport : ∀ s events, read (s.report events) = read s) (db : Database) (es : List Entity)
    (s : Session) : read (db.ensureSchema es s).2 = read s := by
  have hrecorded : ∀ (es : List Entity) (s : Session),
      read (es.foldl (fun s e => s.record (e.createTable db.dialect.quoting) []) s) = read s := by
    intro es
    induction es with
    | nil => exact fun _ => rfl
    | cons e es ih => exact fun s => (ih _).trans (hrecord s _)
  have hfailed : ∀ (es : List Entity) (failure : Failure) (s : Session),
      read (db.schemaFailed es failure s : Except Failure Unit × Session).2 = read s := by
    intro es failure s
    cases failure <;> first | rfl | exact hreport s _
  rw [ensureSchema, Action.onFailure]
  cases hopen : s.isOpen db.scope with
  | false =>
    rw [Action.bind_of_error (checkOpen_of_closed hopen)]
    exact hfailed _ _ s
  | true =>
    rw [Action.bind_of_ok (checkOpen_eq_ok (a := ()).2 ⟨hopen, rfl⟩)]
    cases db.dialect.schema with
    | performs => exact hrecorded _ s
    | ignores => rfl
    | fails failure => exact hfailed _ _ s

/-- Tables are created within the scopes that there are. -/
theorem Database.scopes_ensureSchema (db : Database) (es : List Entity) (s : Session) :
    (db.ensureSchema es s).2.scopes = s.scopes :=
  ensureSchema_keeps Session.scopes (fun _ _ => rfl) (fun _ _ => rfl) db es s

/-- A transaction opens a scope with a number of its own, unless its handle is closed. -/
theorem Database.openTransaction_eq (db : Database) (s : Session) :
    db.openTransaction s =
      if s.isOpen db.scope then
        (.ok { db with scope := s.scopes.length, depth := db.depth + 1 },
          (s.record (openingText db.depth) []).openScope db.scope)
      else (.error .transactionCompleted, s) := by
  rw [openTransaction]
  cases hopen : s.isOpen db.scope with
  | false => exact Action.bind_of_error (checkOpen_of_closed hopen)
  | true =>
    rw [Action.bind_of_ok (checkOpen_eq_ok (a := ()).2 ⟨hopen, rfl⟩)]
    rfl

namespace Session

variable {s t : Session} {scope : Nat}

/-- A scope that is open is one of the session. -/
theorem lt_length_of_isOpen (h : s.isOpen scope = true) : scope < s.scopes.length := by
  rw [isOpen] at h
  cases hscope : s.scopes[scope]? with
  | none =>
    rw [hscope] at h
    cases h
  | some c => exact (List.getElem?_eq_some_iff.1 hscope).1

/-- A step keeps all scopes, and those that have ended stay ended. -/
theorem Step.scope_kept (h : s.Step t) (hlt : scope < s.scopes.length) :
    scope < t.scopes.length ∧ (s.isOpen scope = false → t.isOpen scope = false) := by
  have hsame : ∀ {t : Session}, t.scopes = s.scopes →
      scope < t.scopes.length ∧ (s.isOpen scope = false → t.isOpen scope = false) := by
    intro t ht
    rw [isOpen, isOpen, ht]
    exact ⟨hlt, id⟩
  cases h with
  | request db r =>
    obtain ⟨xs, hxs⟩ := (r.perform_through db).exchanges s
    rw [hxs.length_eq, hxs.isOpen_eq]
    exact ⟨hlt, id⟩
  | schema db es => exact hsame (db.scopes_ensureSchema es s)
  | opened db =>
    rw [Database.openTransaction_eq]
    split
    · refine ⟨?_, fun h => ?_⟩
      · rw [openScope, List.length_append]
        exact Nat.lt_add_right _ hlt
      · exact (isOpen_openScope_of_lt (s.record _ _) db.scope hlt).trans h
    · exact ⟨hlt, id⟩
  | ended other =>
    refine ⟨by rw [closeScope, List.length_modify]; exact hlt, fun h => ?_⟩
    by_cases hother : other = scope
    · rw [hother, isOpen_closeScope]
    · rw [isOpen_closeScope_of_ne s hother, h]
  | recorded sql => exact hsame rfl
  | expected answer => exact hsame rfl
  | cleared => exact hsame rfl

/-- A run keeps all scopes. -/
theorem LeadsTo.lt_length (h : s.LeadsTo t) (hlt : scope < s.scopes.length) :
    scope < t.scopes.length := by
  induction h with
  | refl => exact hlt
  | tail _ hstep ih => exact (hstep.scope_kept ih).1

/-- A scope that has ended stays ended. -/
theorem LeadsTo.isEnded (h : s.LeadsTo t) (hended : s.IsEnded scope) : t.IsEnded scope := by
  induction h with
  | refl => exact hended
  | tail _ hstep ih =>
    have hkept := hstep.scope_kept ih.exists_scope
    exact ⟨hkept.1, hkept.2 ih.closed⟩

end Session

/-! ## Scripts are runs -/

/-- An action that is a run, wherever it begins. -/
def Action.Runs {α : Type} (m : Action α) : Prop := ∀ s : Session, s.LeadsTo (m s).2

namespace Action.Runs

variable {α β : Type}

/-- What is found out without the session. -/
theorem found (x : Except Failure α) : Runs (liftM x : Action α) := fun _ => .refl

theorem step {m : Action α} (h : ∀ s : Session, s.Step (m s).2) : Runs m := fun s => .single (h s)

theorem bind {m : Action α} {f : α → Action β} (hm : Runs m) (hf : ∀ a, Runs (f a)) :
    Runs (m >>= f) := by
  intro s
  have hfirst := hm s
  cases hresult : m s with
  | mk result t =>
    rw [hresult] at hfirst
    cases result with
    | error failure =>
      rw [Action.bind_of_error hresult]
      exact hfirst
    | ok a =>
      rw [Action.bind_of_ok hresult]
      exact hfirst.trans (hf a t)

end Action.Runs

namespace Script

/-- An operation of a store is a run. -/
theorem operation_runs (st : Store) (op : Operation) : Action.Runs (op.perform st) :=
  .step fun _ => .request st.database (.operate st.entity op)

/-- A task is a run. -/
theorem Task.perform_runs (b : Bench) (current : Database) (t : Task) :
    Action.Runs (t.perform b current) := by
  cases t with
  | find store options => exact .bind (.found _) fun st => operation_runs st (.find options)
  | count store filter => exact .bind (.found _) fun st => operation_runs st (.count filter)
  | insert store data => exact .bind (.found _) fun st => operation_runs st (.insert data)
  | update store id data => exact .bind (.found _) fun st => operation_runs st (.update id data)
  | delete store id => exact .bind (.found _) fun st => operation_runs st (.delete id)
  | bulkInsert store rows => exact .bind (.found _) fun st => operation_runs st (.bulkInsert rows)
  | describe store => exact .bind (.found _) fun st => .found (.ok _)
  | filterText source e filter =>
    exact .bind (.found _) fun db => .step fun _ => .request db (.condition e filter)
  | execute source sql =>
    exact .bind (.found _) fun db => .step fun _ => .request db (.execute sql [] [])
  | ensureSchema source es =>
    exact .bind (.found _) fun db => .bind (.step fun _ => .schema db es) fun _ => .found (.ok _)
  | finish source =>
    refine .bind (.found _) fun db => .bind ?_ fun _ => .found (.ok _)
    rw [Database.finish]
    split
    · split
      · exact .found (.error _)
      · exact .found (.ok _)
    · exact .found (.ok _)
  | capabilities source => exact .bind (.found _) fun db => .found (.ok _)
  | expect answer => exact .bind (.step fun _ => .expected answer) fun _ => .found (.ok _)
  | clear => exact .bind (.step fun _ => .cleared) fun _ => .found (.ok _)
  | compare id other => exact .found (.ok _)
  | refuse failure => exact .found (.error failure)

theorem Bench.openTransaction_runs (b : Bench) (current : Database) (source : Source) :
    Action.Runs (b.openTransaction current source) :=
  .bind (.found _) fun db => .bind (.step fun _ => .opened db) fun _ => .found (.ok _)

theorem Bench.runCommand_leadsTo (b : Bench) (name sql : String) :
    b.session.LeadsTo (b.runCommand name sql).2.session := by
  rw [runCommand]
  cases keptAs name b.commands with
  | error failure => exact .refl
  | ok c =>
    have hrun :=
      Session.Step.request (s := b.session) c.database (.execute sql c.pending c.arguments)
    rw [Command.run_eq] at hrun
    exact .single hrun

mutual

/-- A step of a script is a run. -/
theorem Step.take_leadsTo (current : Database) : ∀ (step : Step) (b : Bench),
    b.session.LeadsTo (step.take current b).2.session
  | .task t, b => by
    rw [Step.take]
    exact t.perform_runs b current b.session
  | .openCommand source name, b => by
    rw [Step.take]
    cases b.database current source <;> exact .refl
  | .bind name v, b => by
    rw [Step.take, Bench.bind]
    cases keptAs name b.commands <;> exact .refl
  | .runCommand name sql, b => by
    rw [Step.take]
    exact b.runCommand_leadsTo name sql
  | .keepDatabase source name, b => by
    rw [Step.take]
    cases b.database current source <;> exact .refl
  | .keepStore store name, b => by
    rw [Step.take]
    cases b.store current store <;> exact .refl
  | .transaction source steps ending, b => by
    have hopen := b.openTransaction_runs current source b.session
    rw [Step.take, Bench.act]
    cases hresult : b.openTransaction current source b.session with
    | mk result s =>
      rw [hresult] at hopen
      cases result with
      | error failure => exact hopen
      | ok handles =>
        have hsteps := takeAll_leadsTo handles.2 ending.stops steps { b with session := s }
        -- the scope ends, and then the end of the transaction is recorded
        exact ((hopen.trans hsteps).tail (.ended _)).tail (.recorded _)

/-- A script that is taken is a run. -/
theorem takeAll_leadsTo (current : Database) (stops : Bool) : ∀ (steps : List Step) (b : Bench),
    b.session.LeadsTo (takeAll current stops steps b).2.2.session
  | [], b => by
    rw [takeAll]
    exact .refl
  | step :: rest, b => by
    have hstep := step.take_leadsTo current b
    have hrest := takeAll_leadsTo current stops rest (step.take current b).2
    rw [takeAll]
    dsimp only
    split
    · exact hstep
    · exact hstep.trans hrest

end

end Script

end EntitySql
