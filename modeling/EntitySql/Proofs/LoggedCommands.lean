import EntitySql.Proofs.FailedStatements
import Mathlib.Data.List.DropRight

/-!
# Hand-written statements that are sent more than once

A hand-written statement can be sent again with other values. It does to the
database what the plain command underneath does, and reports what was sent: to
the log if it was answered, and in the failure if it was refused. The plain
command forgets its values as soon as they were received. The report has all
the values that were ever bound, so it is about the statement that was sent
only as long as none was sent with values before.

- `PlainCommand`: a hand-written statement without reports.
- `Command.Call`: what is done with a statement, one call after the other.
- `Command.latest`, `Command.earlier`: the calls since a statement was last
  received, and the ones up to that.
- `Command.Reports`: what a report adds to the outcome of a plain command.
- `Command.run_reports`: what is reported when the statement is run once more.
-/

namespace EntitySql

/-! ## Plain commands -/

/-- A hand-written statement without reports. -/
structure PlainCommand where
  database : Database
  /-- The values bound since the statement was last sent. -/
  pending : List Value

/-- A statement to be written by hand, without reports. -/
def Database.plainCommand (db : Database) : PlainCommand := ⟨db, []⟩

namespace PlainCommand

/-- The token of the next value. -/
def nextToken (c : PlainCommand) : String :=
  c.database.dialect.style.token (c.pending.length + 1)

/-- Binds a value. -/
def param (c : PlainCommand) (v : Value) : PlainCommand := { c with pending := c.pending ++ [v] }

/-- Runs the statement. -/
def run (c : PlainCommand) (sql : String) : Action RowSet := do
  c.database.checkOpen
  Action.receive sql c.pending

/-- The command after it was run in the given session. -/
def afterRun (c : PlainCommand) (s : Session) : PlainCommand :=
  if s.isOpen c.database.scope then { c with pending := [] } else c

end PlainCommand

/-! ## Calls -/

/-- What can be done with a hand-written statement. -/
inductive Command.Call where
  /-- A value is bound. -/
  | bind (v : Value)
  /-- The statement is run in a session, whatever happened to the session before. -/
  | run (sql : String) (s : Session)

/-- A command after a call. -/
def Command.afterCall (c : Command) : Call → Command
  | .bind v => c.param v
  | .run _ s => c.afterRun s

/-- A command after some calls. -/
def Command.after (c : Command) (calls : List Call) : Command := calls.foldl afterCall c

/-- A plain command after a call. -/
def PlainCommand.afterCall (c : PlainCommand) : Command.Call → PlainCommand
  | .bind v => c.param v
  | .run _ s => c.afterRun s

/-- A plain command after some calls. -/
def PlainCommand.after (c : PlainCommand) (calls : List Command.Call) : PlainCommand :=
  calls.foldl afterCall c

namespace Command

/-- The database receives a statement by the call. -/
def Call.isReceived (db : Database) : Call → Bool
  | .bind _ => false
  | .run _ s => s.isOpen db.scope

/-- The values bound by some calls. -/
def bound (calls : List Call) : List Value :=
  calls.filterMap fun
    | .bind v => some v
    | .run .. => none

/-- The calls since a statement was last received. -/
def latest (db : Database) (calls : List Call) : List Call :=
  calls.rtakeWhile fun call => !call.isReceived db

/-- The calls up to the one by which a statement was last received. -/
def earlier (db : Database) (calls : List Call) : List Call :=
  calls.rdropWhile fun call => !call.isReceived db

section

variable (db : Database) (calls : List Call)

theorem bound_bind (v : Value) : bound (calls ++ [.bind v]) = bound calls ++ [v] := by
  simp [bound]

theorem bound_run (sql : String) (s : Session) : bound (calls ++ [.run sql s]) = bound calls := by
  simp [bound]

/-- All calls are earlier ones or among the latest. -/
theorem earlier_append_latest : earlier db calls ++ latest db calls = calls := by
  rw [earlier, latest, List.rdropWhile, List.rtakeWhile, ← List.reverse_append,
    List.takeWhile_append_dropWhile, List.reverse_reverse]

/-- A call by which nothing is received is one of the latest. -/
theorem latest_concat {call : Call} (h : call.isReceived db = false) :
    latest db (calls ++ [call]) = latest db calls ++ [call] :=
  List.rtakeWhile_concat_pos _ _ _ (by simp [h])

/-- A call by which nothing is received is no earlier one. -/
theorem earlier_concat {call : Call} (h : call.isReceived db = false) :
    earlier db (calls ++ [call]) = earlier db calls :=
  List.rdropWhile_concat_pos _ _ _ (by simp [h])

/-- A call by which a statement is received leaves none of the latest. -/
theorem latest_received {call : Call} (h : call.isReceived db = true) :
    latest db (calls ++ [call]) = [] :=
  List.rtakeWhile_concat_neg _ _ _ (by simp [h])

/-- After a call by which a statement is received, all calls are earlier ones. -/
theorem earlier_received {call : Call} (h : call.isReceived db = true) :
    earlier db (calls ++ [call]) = calls ++ [call] :=
  List.rdropWhile_concat_neg _ _ _ (by simp [h])

end

/-! ## Commands with and without reports -/

/-- The command without its reports. -/
def plain (c : Command) : PlainCommand := ⟨c.database, c.pending⟩

/-- Reports make no difference to a call. -/
theorem plain_afterCall (c : Command) (call : Call) :
    (c.afterCall call).plain = c.plain.afterCall call := by
  cases call with
  | bind v => rfl
  | run sql s =>
    show (c.afterRun s).plain = c.plain.afterRun s
    by_cases hopen : s.isOpen c.database.scope = true
    · rw [afterRun, if_pos hopen, PlainCommand.afterRun]
      exact (if_pos hopen).symm
    · rw [afterRun, if_neg hopen, PlainCommand.afterRun]
      exact (if_neg hopen).symm

/-- Reports make no difference to any number of calls. -/
theorem plain_after (c : Command) (calls : List Call) :
    (c.after calls).plain = c.plain.after calls := by
  induction calls generalizing c with
  | nil => rfl
  | cons call calls ih =>
    show ((c.afterCall call).after calls).plain = (c.plain.afterCall call).after calls
    rw [ih, plain_afterCall]

/-- What is bound to a command after some calls: the values of the latest calls are pending, and
follow the values of the earlier ones, each of them under the token that it was given. -/
structure Binds (db : Database) (calls : List Call) (c : Command) : Prop where
  database : c.database = db
  pending : c.pending = bound (latest db calls)
  arguments : ∃ stale, stale.map Prod.snd = bound (earlier db calls) ∧
    c.arguments = stale ++ Template.tokensFrom db.dialect.style 1 (bound (latest db calls))

end Command

theorem Template.tokensFrom_concat (style : TokenStyle) (v : Value) :
    ∀ (vs : List Value) (position : Nat), tokensFrom style position (vs ++ [v]) =
      tokensFrom style position vs ++ [(style.token (vs.length + position), v)]
  | [], position => by
    rw [List.nil_append, List.length_nil, Nat.zero_add]
    rfl
  | w :: vs, position => by
    have hrest := tokensFrom_concat style v vs (position + 1)
    rw [List.cons_append, tokensFrom, hrest, tokensFrom, List.cons_append, List.length_cons,
      Nat.add_assoc, Nat.add_comm 1]

theorem Template.map_snd_tokensFrom (style : TokenStyle) :
    ∀ (vs : List Value) (position : Nat), (tokensFrom style position vs).map Prod.snd = vs
  | [], _ => rfl
  | v :: vs, position => congrArg (v :: ·) (map_snd_tokensFrom style vs (position + 1))

namespace Command

theorem Binds.step {db : Database} {calls : List Call} {c : Command} (h : Binds db calls c)
    (call : Call) : Binds db (calls ++ [call]) (c.afterCall call) := by
  obtain ⟨stale, hstale, harguments⟩ := h.arguments
  cases call with
  | bind v =>
    have hlatest : bound (latest db (calls ++ [.bind v])) = bound (latest db calls) ++ [v] := by
      rw [latest_concat db calls rfl, bound_bind]
    constructor
    · exact h.database
    · rw [hlatest, ← h.pending]
      rfl
    · refine ⟨stale, ?_, ?_⟩
      · rw [earlier_concat db calls rfl, hstale]
      · show c.arguments ++ [(c.nextToken, v)] = _
        rw [hlatest, Template.tokensFrom_concat, harguments, nextToken, h.pending, h.database,
          List.append_assoc]
  | run sql s =>
    show Binds db (calls ++ [.run sql s]) (c.afterRun s)
    by_cases hopen : s.isOpen db.scope = true
    · -- everything that is bound becomes stale
      have hreceived : (Call.run sql s).isReceived db = true := hopen
      have hafter : c.afterRun s = { c with pending := [] } := by
        rw [afterRun, h.database, if_pos hopen]
      rw [hafter]
      constructor
      · exact h.database
      · rw [latest_received db calls hreceived]
        rfl
      · refine ⟨c.arguments, ?_, ?_⟩
        · rw [earlier_received db calls hreceived, bound_run, harguments, List.map_append, hstale,
            Template.map_snd_tokensFrom]
          conv_rhs => rw [← earlier_append_latest db calls]
          exact List.filterMap_append.symm
        · rw [latest_received db calls hreceived]
          exact (List.append_nil _).symm
    · have hclosed : (Call.run sql s).isReceived db = false := eq_false_of_ne_true hopen
      have hafter : c.afterRun s = c := by
        rw [afterRun, h.database, if_neg hopen]
      have hlatest : bound (latest db (calls ++ [.run sql s])) = bound (latest db calls) := by
        rw [latest_concat db calls hclosed, bound_run]
      rw [hafter]
      constructor
      · exact h.database
      · rw [hlatest, h.pending]
      · refine ⟨stale, ?_, ?_⟩
        · rw [earlier_concat db calls hclosed, hstale]
        · rw [hlatest, harguments]

/-- What is bound to a command after any number of calls. -/
theorem binds_after (db : Database) (calls : List Call) :
    Binds db calls (db.command.after calls) := by
  induction calls using List.reverseRecOn with
  | nil => exact ⟨rfl, rfl, [], rfl, rfl⟩
  | append_singleton calls call ih =>
    rw [after, List.foldl_concat]
    exact ih.step call

/-! ## Reports -/

/-- What a report adds to the outcome of a plain command: results stay as they are, the refusal of
the database becomes a failure with the statement, and the end of the transaction stays unreported.
-/
inductive Reports (log : LogConfig) (sql : String) (arguments : List (String × Value)) :
    Except Failure RowSet × Session → Except Failure RowSet × Session → Prop
  | answered (result : RowSet) (t : Session) :
    Reports log sql arguments (.ok result, t)
      (.ok result, t.report (log.reportDone t.elapsed sql arguments))
  | refused (detail : String) (t : Session) :
    Reports log sql arguments (.error (.driver detail), t)
      (.error (.execution (Failure.driver detail).message sql arguments),
        t.report (log.reportFailed sql arguments (.driver detail)))
  | over (t : Session) :
    Reports log sql arguments (.error .transactionCompleted, t) (.error .transactionCompleted, t)

/-- The values of a plain command are received if its handle is open. -/
theorem plain_run_of_open {c : Command} {s : Session} (hopen : s.isOpen c.database.scope = true)
    (sql : String) : c.plain.run sql s = Action.receive sql c.pending s :=
  Action.bind_of_ok (Database.checkOpen_eq_ok (a := ()).2 ⟨hopen, rfl⟩)

/-- Through a closed handle nothing happens to a session. -/
theorem plain_run_of_closed {c : Command} {s : Session}
    (hclosed : s.isOpen c.database.scope = false) (sql : String) :
    c.plain.run sql s = (.error .transactionCompleted, s) :=
  Action.bind_of_error (Database.checkOpen_of_closed hclosed)

/-- A command does what the plain command does, and reports it with all of its arguments. -/
theorem reports_run (c : Command) (sql : String) (s : Session) :
    Reports c.database.log sql c.arguments (c.plain.run sql s) (c.run sql s) := by
  by_cases hopen : s.isOpen c.database.scope = true
  · have hcheck : c.database.checkOpen s = (.ok (), s) :=
      Database.checkOpen_eq_ok.2 ⟨hopen, rfl⟩
    rw [plain_run_of_open hopen, run, Database.execute, Action.onFailure, Action.bind_of_ok hcheck]
    cases hanswer : Action.receive sql c.pending s with
    | mk answer u =>
      cases answer with
      | ok result =>
        rw [Action.bind_of_ok hanswer]
        exact .answered result u
      | error refusal =>
        obtain ⟨detail, rfl⟩ := Database.receive_error hanswer
        rw [Action.bind_of_error hanswer]
        exact .refused detail u
  · have hclosed : s.isOpen c.database.scope = false := eq_false_of_ne_true hopen
    rw [plain_run_of_closed hclosed, run, Database.execute_of_closed hclosed]
    exact .over s

/-- A plain command sends its values, if the handle is open. -/
theorem statements_plain_run (c : Command) (sql : String) (s : Session) :
    (c.plain.run sql s).2.statements =
      s.statements ++ if s.isOpen c.database.scope then [⟨sql, c.pending⟩] else [] := by
  by_cases hopen : s.isOpen c.database.scope = true
  · rw [plain_run_of_open hopen, if_pos hopen]
    exact Action.statements_receive sql c.pending s
  · rw [plain_run_of_closed (eq_false_of_ne_true hopen), if_neg hopen]
    exact (List.append_nil _).symm

/-- After any calls, a hand-written statement gives the tokens and the results of the plain command
and sends the values that were bound since a statement was last received. What it reports are
these values, each under its token, after all the values that were bound earlier. So its reports
are about the statement that is sent exactly if no value was bound earlier. -/
theorem run_reports (db : Database) (calls : List Call) (sql : String) (s : Session) :
    (db.command.after calls).nextToken = (db.plainCommand.after calls).nextToken ∧
      ((db.plainCommand.after calls).run sql s).2.statements =
        s.statements ++ (if s.isOpen db.scope then [⟨sql, bound (latest db calls)⟩] else []) ∧
      ∃ arguments stale,
        Reports db.log sql arguments ((db.plainCommand.after calls).run sql s)
          ((db.command.after calls).run sql s) ∧
        arguments =
          stale ++ Template.tokensFrom db.dialect.style 1 (bound (latest db calls)) ∧
        stale.map Prod.snd = bound (earlier db calls) ∧
        (arguments.map Prod.snd = bound (latest db calls) ↔ bound (earlier db calls) = []) := by
  have hbinds := binds_after db calls
  obtain ⟨stale, hstale, harguments⟩ := hbinds.arguments
  have hplain : db.plainCommand.after calls = (db.command.after calls).plain :=
    (plain_after db.command calls).symm
  rw [hplain]
  refine ⟨rfl, ?_, _, stale, ?_, harguments, hstale, ?_⟩
  · have hstatements := statements_plain_run (db.command.after calls) sql s
    rw [hbinds.database, hbinds.pending] at hstatements
    exact hstatements
  · have hreports := reports_run (db.command.after calls) sql s
    rw [hbinds.database] at hreports
    exact hreports
  · rw [harguments, List.map_append, hstale, Template.map_snd_tokensFrom]
    exact List.append_left_eq_self

/-! ### A statement that is sent twice -/

/-- A database that reports its statements to the application. -/
def reportingDatabase : Database := .root Dialect.plain ⟨.custom, .zero⟩

/-- The statement is sent with one value, and gets another one. -/
def sentOnce : List Call := [.bind (.integer 1), .run "select ?" .fresh, .bind (.integer 2)]

/-- Reports of statements do not always have the values that were sent: when a statement is sent
for the second time, the report has the values of the first time as well. -/
theorem run_repeats_arguments :
    ¬ ∀ (db : Database) (calls : List Call) (sql : String) (s t : Session) (result : RowSet),
      (db.command.after calls).run sql s = (.ok result, t) →
        ∀ mode text arguments, t.log = s.log ++ [.done mode text arguments] →
          t.statements = s.statements ++ [⟨text, arguments.map Prod.snd⟩] := by
  intro hall
  have hsent := hall reportingDatabase sentOnce "select ?"
    (((reportingDatabase.command.param (.integer 1)).run "select ?" .fresh).2) _ _ rfl .custom
    "select ?" [("?", .integer 1), ("?", .integer 2)] rfl
  have hstatement := List.singleton_inj.1 (List.append_cancel_left hsent)
  have hvalues : [Value.integer 2] = [.integer 1, .integer 2] :=
    congrArg Statement.params hstatement
  exact absurd (congrArg List.length hvalues) (by decide)

end Command

end EntitySql
