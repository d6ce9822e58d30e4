import EntitySql.Proofs.Runs

/-!
# Handles after the end of a transaction

The handle of a transaction can be kept longer than the transaction lasts, and
so can stores and statements that were made with it. Once the work in the
transaction is done nothing reaches the database through any of them, at no
later point of any run.

- `Database.transaction_eq`: a transaction takes its result from the work in it.
- `Database.transaction_of_script`: transactions of scripts are such transactions.
- `Database.requests_are_dead`: what is left of requests through a handle whose
  scope has ended.
- `Database.handle_ends_with_transaction`: the handle of a transaction is dead
  from the moment its work is done.
-/

namespace EntitySql.Database

variable {α : Type} {db inner : Database} {s t u : Session}

/-- A transaction that is opened does its work, ends the scope of its handle and records how it
ended. Its result is that of the work. -/
theorem transaction_eq {work : Database → Action α} {result : Except Failure α}
    (hopen : db.openTransaction s = (.ok inner, t)) (hwork : work inner t = (result, u)) :
    db.transaction work s =
      (result, (u.closeScope inner.scope).record (closingText db.depth result.isOk) []) := by
  rw [transaction, hopen]
  dsimp only
  rw [hwork]
  cases result <;> rfl

/-- A transaction of a script is one with the steps inside it as its work. -/
theorem transaction_of_script (current : Database) (source : Script.Source)
    (steps : List Script.Step) (ending : Script.Ending) (b : Script.Bench) :
    let work : Database → Action Script.Reply := fun inner s =>
      let (_, failure?, after) := Script.takeAll inner ending.stops steps { b with session := s }
      (ending.result failure?, after.session)
    let (answer, after) := (Script.Step.transaction source steps ending).take current b
    (do
      let db ← b.database current source
      db.transaction work : Action Script.Reply) b.session = (answer.reply, after.session) := by
  intro work
  rw [Script.Step.take, Script.Bench.act, Script.Bench.openTransaction]
  cases hsource : b.database current source with
  | error failure => rfl
  | ok db =>
    have hlift : (liftM (Except.ok db : Except Failure Database) : Action Database) b.session =
        (.ok db, b.session) := rfl
    rw [Action.bind_of_ok hlift, Action.bind_of_ok hlift]
    cases hopened : db.openTransaction b.session with
    | mk result s =>
      cases result with
      | error failure =>
        rw [Action.bind_of_error hopened, transaction, hopened]
        rfl
      | ok inner =>
        rw [Action.bind_of_ok hopened, transaction_eq hopened rfl]
        -- how the end of a script's work is told makes no difference
        have hkept : ∀ reply : Except Failure Script.Reply,
            Script.succeeded reply = reply.isOk := fun reply => by cases reply <;> rfl
        simp only [hkept]
        rfl

/-- A transaction cannot be opened through a closed handle. -/
theorem openTransaction_of_closed (hclosed : s.isOpen db.scope = false) :
    db.openTransaction s = (.error .transactionCompleted, s) := by
  rw [openTransaction_eq, hclosed]
  rfl

/-- No tables are created through a closed handle. -/
theorem ensureSchema_of_closed (hclosed : s.isOpen db.scope = false) (es : List Entity) :
    db.ensureSchema es s = (.error .transactionCompleted, s) := by
  rw [ensureSchema, Action.onFailure, Action.bind_of_error (checkOpen_of_closed hclosed)]
  rfl

/-- What the opening of a transaction does. -/
theorem openTransaction_ok (hopen : db.openTransaction s = (.ok inner, t)) :
    s.isOpen db.scope = true ∧
      inner = { db with scope := s.scopes.length, depth := db.depth + 1 } ∧
      t = (s.record (openingText db.depth) []).openScope db.scope := by
  rw [openTransaction_eq] at hopen
  split at hopen
  · next h =>
    cases hopen
    exact ⟨h, rfl, rfl⟩
  · cases hopen

/-- The scope of an open transaction is one of the session. -/
theorem lt_length_of_openTransaction (hopen : db.openTransaction s = (.ok inner, t)) :
    inner.scope < t.scopes.length := by
  obtain ⟨_, rfl, rfl⟩ := openTransaction_ok hopen
  simp [Session.openScope, Session.record]

/-- What is left of a request through a closed handle. Nothing happens to the session. The request
fails because the transaction is over, if anything would happen at an open handle; otherwise it
has the same result as there. All other failures are structural. -/
theorem requests_are_dead (hclosed : s.isOpen db.scope = false) (r : Database.Request) :
    (r.perform db s).2 = s ∧
      (∀ failure, (r.perform db s).1 = .error failure →
        failure = .transactionCompleted ∨ failure.kind = .structural) ∧
      ((r.perform db s).1 = .error .transactionCompleted ∨
        r.perform db (s.reopened db.scope) = ((r.perform db s).1, s.reopened db.scope)) := by
  rcases (r.perform_through db).closed rfl hclosed with h | ⟨result, hstructural, h, hreopened⟩
  · rw [h]
    exact ⟨rfl, fun failure heq => .inl (by cases heq; rfl), .inl rfl⟩
  · rw [h]
    exact ⟨rfl, fun failure heq => .inr (hstructural failure heq), .inr hreopened⟩

/-- Once the work in a transaction is done, whatever its result, nothing reaches the database
through its handle any more: not before its end is recorded, and not at any later point of any
run. A request leaves the session as it is, and fails because the transaction is over if it would
do anything at an open handle; tables are not created, statements that were begun are not sent,
and no transaction is opened. -/
theorem handle_ends_with_transaction {work : Database → Action α} {result : Except Failure α}
    {before opened worked later : Session} (hopen : db.openTransaction before = (.ok inner, opened))
    (hwork : work inner opened = (result, worked)) (hrun : opened.LeadsTo worked)
    (hlater : (worked.closeScope inner.scope).LeadsTo later) :
    db.transaction work before =
        (result,
          (worked.closeScope inner.scope).record (closingText db.depth result.isOk) []) ∧
      (∀ r : Database.Request,
        (r.perform inner later).2 = later ∧
          (∀ failure, (r.perform inner later).1 = .error failure →
            failure = .transactionCompleted ∨ failure.kind = .structural) ∧
          ((r.perform inner later).1 = .error .transactionCompleted ∨
            r.perform inner (later.reopened inner.scope) =
              ((r.perform inner later).1, later.reopened inner.scope))) ∧
      (∀ pending arguments sql,
        (Command.mk inner pending arguments).run sql later =
          (.error .transactionCompleted, later)) ∧
      (∀ es, inner.ensureSchema es later = (.error .transactionCompleted, later)) ∧
      inner.openTransaction later = (.error .transactionCompleted, later) ∧
      ∀ (β : Type) (nested : Database → Action β),
        inner.transaction nested later = (.error .transactionCompleted, later) := by
  have hended : (worked.closeScope inner.scope).IsEnded inner.scope := by
    refine ⟨?_, worked.isOpen_closeScope inner.scope⟩
    rw [Session.closeScope, List.length_modify]
    exact hrun.lt_length (lt_length_of_openTransaction hopen)
  have hclosed : later.isOpen inner.scope = false := (hlater.isEnded hended).closed
  refine ⟨transaction_eq hopen hwork, requests_are_dead hclosed, fun pending arguments sql => ?_,
    ensureSchema_of_closed hclosed, openTransaction_of_closed hclosed, fun β nested => ?_⟩
  · exact execute_of_closed hclosed sql pending arguments
  · rw [transaction, openTransaction_of_closed hclosed]

/-- A handle that is kept after a transaction has deleted rows deletes no more of them. -/
theorem handle_ends_with_commit :
    let root : Database := .root .plain .off
    let kept : Database := { root with scope := 1, depth := 1 }
    let delete : Database → Action RowSet := fun db => db.executeText "delete from task"
    let (result, later) := root.transaction delete Session.fresh
    later.statements.map Statement.sql = ["begin", "delete from task", "commit"] ∧
      result.isOk = true ∧ kept.executeText "delete from task" later =
        (.error .transactionCompleted, later) := by
  intro root kept delete
  have hends := @handle_ends_with_transaction _ root kept delete _ Session.fresh _ _ _ rfl rfl
    (.single (.request kept (.execute "delete from task" [] []))) (.single (.recorded "commit"))
  exact ⟨rfl, rfl, hends.2.2.1 [] [] "delete from task"⟩

end EntitySql.Database
