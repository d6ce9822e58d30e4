import EntitySql.Proofs.Handles
import EntitySql.Proofs.RawText

/-!
# Brackets of transactions

A transaction stands in the log between what opens and what ends it. Inside
there are the statements of its requests and the brackets of the transactions
nested in it, in the order in which they came. So the log of a transaction is a
tree, and its text is read off the tree.

- `Work`: what is done in a transaction.
- `Entry`, `LogMark`: logs as trees, and the trees as marks one after the other.
- `Work.Logs`: the tree that work leaves.
- `LogMark.AreBalanced`: every bracket that is opened is ended, in the right order.
- `Database.transaction_is_bracketed`: the log of a transaction.
-/

namespace EntitySql

open Script (Reply)

/-! ## Work -/

/-- What is done in a transaction: requests and nested transactions one after the other. What
comes next may depend on what came of the one before, and so may the result. -/
inductive Work where
  | done (result : Except Failure Reply)
  | request (r : Database.Request) (next : Except Failure Reply → Work)
  | nested (inside : Work) (next : Except Failure Reply → Work)

/-- An action whose failure is a result. -/
def Action.attempt {α : Type} (m : Action α) : Action (Except Failure α) := fun s =>
  (.ok (m s).1, (m s).2)

/-- Work as what a transaction does with its handle. -/
def Work.run : Work → Database → Action Reply
  | .done result, _ => liftM result
  | .request r next, db => do
    let reply ← (r.perform db).attempt
    (next reply).run db
  | .nested inside next, db => do
    let reply ← (db.transaction fun inner => inside.run inner).attempt
    (next reply).run db

/-! ## Logs -/

/-- An entry in the log of a transaction. -/
inductive Entry where
  /-- A statement of a request. -/
  | sent (x : Statement)
  /-- A transaction, whose work was kept or not. -/
  | bracket (kept : Bool) (inside : List Entry)

/-- A mark in a log. The depth of a bracket is the number of brackets around it. -/
inductive LogMark where
  | opening (depth : Nat)
  | sent (x : Statement)
  | closing (depth : Nat) (kept : Bool)

namespace LogMark

/-- The name of a bracket; only savepoints have one. -/
def name : Nat → String
  | 0 => ""
  | depth + 1 => "sp_" ++ toString (depth + 1)

/-- The statement of a mark. -/
def statement : LogMark → Statement
  | .opening 0 => ⟨"begin", []⟩
  | .opening (depth + 1) => ⟨"savepoint " ++ name (depth + 1), []⟩
  | .sent x => x
  | .closing 0 true => ⟨"commit", []⟩
  | .closing 0 false => ⟨"rollback", []⟩
  | .closing (depth + 1) true => ⟨"release savepoint " ++ name (depth + 1), []⟩
  | .closing (depth + 1) false => ⟨"rollback to savepoint " ++ name (depth + 1), []⟩

/-- The mark is the statement of a request. -/
def isSent : LogMark → Bool
  | .sent _ => true
  | .opening _ | .closing .. => false

/-- The names of the brackets that are open after a mark, the innermost first. A bracket has a
name that is not in use, and the innermost one ends first. -/
def follow (names : List String) : LogMark → Option (List String)
  | .opening depth => if name depth ∈ names then none else some (name depth :: names)
  | .sent _ => some names
  | .closing depth _ =>
    match names with
    | [] => none
    | innermost :: rest => if innermost = name depth then some rest else none

/-- Every bracket has a name that is not in use when it is opened, and every one is ended, the
innermost first. -/
def AreBalanced (marks : List LogMark) : Prop := marks.foldlM follow [] = some []

end LogMark

namespace Entry

mutual

/-- The marks of an entry inside as many brackets as `depth` says. -/
def marks (depth : Nat) : Entry → List LogMark
  | .sent x => [.sent x]
  | .bracket kept inside =>
    .opening depth :: marksAll (depth + 1) inside ++ [.closing depth kept]

/-- The marks of entries, one entry after the other. -/
def marksAll (depth : Nat) : List Entry → List LogMark
  | [] => []
  | entry :: rest => marks depth entry ++ marksAll depth rest

end

/-- Entries after one another have their marks after one another. -/
theorem marksAll_append (depth : Nat) (log log' : List Entry) :
    marksAll depth (log ++ log') = marksAll depth log ++ marksAll depth log' := by
  induction log with
  | nil => rw [List.nil_append, marksAll, List.nil_append]
  | cons entry log ih => rw [List.cons_append, marksAll, marksAll, ih, List.append_assoc]

theorem marksAll_sent (depth : Nat) (xs : List Statement) :
    marksAll depth (xs.map .sent) = xs.map .sent := by
  induction xs with
  | nil => rw [List.map_nil, marksAll, List.map_nil]
  | cons x xs ih => rw [List.map_cons, marksAll, marks, ih, List.map_cons, List.singleton_append]

end Entry

/-- What work leaves in the log when it is run through a handle: the statements that each of
its requests sends, and a bracket for each transaction nested in it, with the log of that
transaction inside. -/
inductive Work.Logs : Work → Database → Session → List Entry → Except Failure Reply →
    Session → Prop
  | done {result : Except Failure Reply} {db : Database} {s : Session} :
    Logs (.done result) db s [] result s
  | request {r : Database.Request} {next : Except Failure Reply → Work} {db : Database}
    {s t u : Session} {xs : List Statement} {log : List Entry}
    {reply result : Except Failure Reply} (hperform : r.perform db s = (reply, t))
    (hsent : t.statements = s.statements ++ xs) (hnext : Logs (next reply) db t log result u) :
    Logs (.request r next) db s (xs.map .sent ++ log) result u
  | nested {inside : Work} {next : Except Failure Reply → Work} {db inner : Database}
    {s opened worked u : Session} {insideLog log : List Entry}
    {reply result : Except Failure Reply} (hopen : db.openTransaction s = (.ok inner, opened))
    (hinside : Logs inside inner opened insideLog reply worked)
    (hnext : Logs (next reply) db (db.closeTransaction inner reply.isOk worked) log result u) :
    Logs (.nested inside next) db s (.bracket reply.isOk insideLog :: log) result u

/-- A nested transaction leaves a bracket if nothing else is done. -/
theorem Work.Logs.bracket {inside : Work} {db inner : Database} {s opened worked : Session}
    {log : List Entry} {reply : Except Failure Reply}
    (hopen : db.openTransaction s = (.ok inner, opened))
    (hinside : inside.Logs inner opened log reply worked) :
    (Work.nested inside .done).Logs db s [.bracket reply.isOk log] reply
      (db.closeTransaction inner reply.isOk worked) :=
  .nested hopen hinside .done

/-! ## Names of savepoints -/

namespace LogMark

/-- Brackets of different depths have different names. -/
theorem name_inj : ∀ {depth depth' : Nat}, name depth = name depth' → depth = depth'
  | 0, 0, _ => rfl
  | 0, depth + 1, h => by simp [name] at h
  | depth + 1, 0, h => by simp [name] at h
  | depth + 1, depth' + 1, h => by
    -- the number is read back from the name
    have hdigits : Nat.toDigits 10 (depth + 1) = Nat.toDigits 10 (depth' + 1) := by
      have hnumbers : String.ofList (Nat.toDigits 10 (depth + 1)) =
          String.ofList (Nat.toDigits 10 (depth' + 1)) := by
        simpa [name, Nat.repr] using h
      exact String.ofList_injective hnumbers
    have hread := congrArg readNat? hdigits
    rwa [readNat?_toDigits, readNat?_toDigits, Option.some.injEq] at hread

mutual

/-- The brackets of an entry are opened and ended inside the brackets around it. -/
theorem follow_marks : ∀ (entry : Entry) (depth : Nat) {names : List String},
    (∀ n ∈ names, ∃ d < depth, n = name d) → (entry.marks depth).foldlM follow names = some names
  | .sent x, depth, names, _ => by
    rw [Entry.marks]
    rfl
  | .bracket kept inside, depth, names, h => by
    have hnew : name depth ∉ names := by
      intro hmem
      obtain ⟨d, hd, heq⟩ := h _ hmem
      exact absurd (name_inj heq) (Nat.ne_of_gt hd)
    have hinside : (Entry.marksAll (depth + 1) inside).foldlM follow (name depth :: names) =
        some (name depth :: names) := by
      refine follow_marksAll inside (depth + 1) fun n hn => ?_
      rcases List.mem_cons.1 hn with rfl | hn
      · exact ⟨depth, Nat.lt_succ_self depth, rfl⟩
      · obtain ⟨d, hd, heq⟩ := h n hn
        exact ⟨d, Nat.lt_succ_of_lt hd, heq⟩
    have hopening : follow names (.opening depth) = some (name depth :: names) := if_neg hnew
    have hclosing : follow (name depth :: names) (.closing depth kept) = some names := if_pos rfl
    rw [Entry.marks, List.cons_append, List.foldlM_cons, hopening]
    simp only [Option.bind_eq_bind, Option.bind_some, List.foldlM_append, hinside,
      List.foldlM_cons, List.foldlM_nil, hclosing]
    rfl

theorem follow_marksAll : ∀ (log : List Entry) (depth : Nat) {names : List String},
    (∀ n ∈ names, ∃ d < depth, n = name d) →
      (Entry.marksAll depth log).foldlM follow names = some names
  | [], depth, names, _ => by
    rw [Entry.marksAll]
    rfl
  | entry :: rest, depth, names, h => by
    rw [Entry.marksAll, List.foldlM_append, follow_marks entry depth h]
    exact follow_marksAll rest depth h

end

/-- What opens a bracket. -/
theorem statement_opening (depth : Nat) :
    (opening depth).statement = ⟨Database.openingText depth, []⟩ := by
  cases depth <;> rfl

theorem statement_closing (depth : Nat) (kept : Bool) :
    (closing depth kept).statement = ⟨Database.closingText depth kept, []⟩ := by
  cases depth <;> cases kept <;> rfl

end LogMark

/-! ## The logs of work -/

namespace Work.Logs

variable {p : Work} {db : Database} {s t : Session} {log : List Entry}
  {result : Except Failure Reply}

/-- The marks of the log are the statements that are received. -/
theorem statements (h : p.Logs db s log result t) :
    t.statements = s.statements ++ (Entry.marksAll db.depth log).map LogMark.statement := by
  induction h with
  | done => rw [Entry.marksAll, List.map_nil, List.append_nil]
  | request _ hsent _ ih =>
    rw [ih, hsent, Entry.marksAll_append, Entry.marksAll_sent, List.map_append, List.map_map,
      List.append_assoc]
    congr 2
    exact (List.map_id _).symm
  | nested hopen _ _ ihinside ihnext =>
    obtain ⟨_, rfl, rfl⟩ := Database.openTransaction_ok hopen
    rw [ihnext, Database.closeTransaction, Session.record, Session.closeScope, ihinside,
      Entry.marksAll, Entry.marks]
    simp [Session.openScope, Session.record, LogMark.statement_opening, LogMark.statement_closing]

/-- Only the statements of requests take answers. -/
theorem scripted (h : p.Logs db s log result t) :
    t.scripted = s.scripted.drop ((Entry.marksAll db.depth log).countP LogMark.isSent) := by
  induction h with
  | done => rw [Entry.marksAll, List.countP_nil, List.drop_zero]
  | @request r next db s t u xs log reply result hperform hsent _ ih =>
    obtain ⟨ys, hys⟩ := (r.perform_through db).exchanges s
    rw [hperform] at hys
    obtain rfl : xs = ys := List.append_cancel_left (hsent.symm.trans hys.statements)
    have hcount : (xs.map LogMark.sent).countP LogMark.isSent = xs.length := by
      rw [List.countP_map, List.countP_eq_length]
      exact fun _ _ => rfl
    rw [ih, hys.scripted, Entry.marksAll_append, Entry.marksAll_sent, List.countP_append, hcount,
      List.drop_drop]
  | nested hopen _ _ ihinside ihnext =>
    obtain ⟨_, rfl, rfl⟩ := Database.openTransaction_ok hopen
    rw [ihnext, Database.closeTransaction, Session.record, Session.closeScope, ihinside,
      Entry.marksAll, Entry.marks]
    simp [Session.openScope, Session.record, LogMark.isSent, Nat.add_comm]

/-- Work ends the scopes that it opens and no others. -/
theorem scopes (h : p.Logs db s log result t) :
    s.scopes.length ≤ t.scopes.length ∧
      ∀ n < s.scopes.length, t.isOpen n = s.isOpen n := by
  induction h with
  | done => exact ⟨Nat.le_refl _, fun _ _ => rfl⟩
  | @request r next db s t u xs log reply result hperform _ _ ih =>
    obtain ⟨ys, hys⟩ := (r.perform_through db).exchanges s
    rw [hperform] at hys
    rw [← hys.length_eq]
    exact ⟨ih.1, fun n hn => (ih.2 n hn).trans (hys.isOpen_eq n)⟩
  | @nested inside next db inner s opened worked u insideLog log reply result hopen _ _ ihinside
      ihnext =>
    obtain ⟨_, rfl, rfl⟩ := Database.openTransaction_ok hopen
    have hopened : s.scopes.length + 1 ≤ worked.scopes.length := by
      simpa [Session.openScope, Session.record] using ihinside.1
    have hclosed : (db.closeTransaction { db with scope := s.scopes.length, depth := db.depth + 1 }
        reply.isOk worked).scopes.length = worked.scopes.length := List.length_modify ..
    rw [hclosed] at ihnext
    refine ⟨Nat.le_trans (Nat.le_of_succ_le hopened) ihnext.1, fun n hn => ?_⟩
    -- the scope that ends is not one of those before
    rw [ihnext.2 n (Nat.lt_of_lt_of_le (Nat.lt_succ_of_lt hn) hopened)]
    refine (Session.isOpen_closeScope_of_ne worked (Nat.ne_of_gt hn)).trans ?_
    rw [ihinside.2 n (by simp [Session.openScope, Session.record]; omega)]
    exact Session.isOpen_openScope_of_lt (s.record _ _) db.scope hn

/-- A handle stays open while work is run through it. -/
theorem isOpen (h : p.Logs db s log result t) (hopen : s.isOpen db.scope = true) :
    t.isOpen db.scope = true := by
  have hlt : db.scope < s.scopes.length := by
    rw [Session.isOpen] at hopen
    cases hscope : s.scopes[db.scope]? with
    | none =>
      rw [hscope] at hopen
      cases hopen
    | some c => exact (List.getElem?_eq_some_iff.1 hscope).1
  rw [h.scopes.2 _ hlt, hopen]

end Work.Logs

/-- A transaction is opened through an open handle, and its own handle is open then. -/
theorem Database.exists_openTransaction {db : Database} {s : Session}
    (hopen : s.isOpen db.scope = true) : ∃ inner opened,
      db.openTransaction s = (.ok inner, opened) ∧ opened.isOpen inner.scope = true := by
  have hopened := openTransaction_eq db s
  rw [if_pos hopen] at hopened
  exact ⟨_, _, hopened, (s.record (openingText db.depth) []).isOpen_openScope db.scope⟩

namespace Work

/-- A nested transaction is followed by what its result decides. -/
theorem run_nested {inside : Work} {next : Except Failure Reply → Work}
    {db inner : Database} {s opened worked : Session} {reply : Except Failure Reply}
    (hopen : db.openTransaction s = (.ok inner, opened))
    (hinside : inside.run inner opened = (reply, worked)) :
    (nested inside next).run db s =
      (next reply).run db (db.closeTransaction inner reply.isOk worked) := by
  have htransaction : (db.transaction fun inner => inside.run inner).attempt s =
      (.ok reply, db.closeTransaction inner reply.isOk worked) := by
    rw [Action.attempt, Database.transaction_eq hopen hinside]
    rfl
  rw [run, Action.bind_of_ok htransaction]

/-- All work that is run through an open handle leaves a log. -/
theorem exists_logs (p : Work) : ∀ (db : Database) (s : Session),
    s.isOpen db.scope = true → ∃ log, p.Logs db s log (p.run db s).1 (p.run db s).2 := by
  induction p with
  | done result => exact fun db s _ => ⟨[], .done⟩
  | request r next ih =>
    intro db s hopen
    obtain ⟨xs, hxs⟩ := (r.perform_through db).exchanges s
    obtain ⟨log, hlog⟩ := ih (r.perform db s).1 db (r.perform db s).2
      ((hxs.isOpen_eq db.scope).trans hopen)
    exact ⟨_, .request rfl hxs.statements hlog⟩
  | nested inside next ihinside ihnext =>
    intro db s hopen
    obtain ⟨inner, opened, hopened, hinner⟩ := Database.exists_openTransaction hopen
    obtain ⟨insideLog, hinside⟩ := ihinside inner opened hinner
    -- the handle around the nested transaction is open again for what comes next
    have hclosed := (Logs.bracket hopened hinside).isOpen hopen
    obtain ⟨log, hlog⟩ := ihnext _ db _ hclosed
    rw [run_nested hopened rfl]
    exact ⟨_, .nested hopened hinside hlog⟩

end Work

/-- The log of a transaction is a bracket: `begin` and `commit` or `rollback`, or inside other
transactions a savepoint and its release or the rollback to it, around what the work in it leaves.
The work is kept exactly if it succeeds, and the result is that of the work. Brackets are balanced
in the log, and only the statements between them take answers from those that are waiting. -/
theorem Database.transaction_is_bracketed (p : Work) {db : Database} {s : Session}
    (hopen : s.isOpen db.scope = true) :
    ∃ (inner : Database) (opened worked : Session) (result : Except Failure Reply)
      (log : List Entry),
      db.openTransaction s = (.ok inner, opened) ∧ inner.depth = db.depth + 1 ∧
      p.run inner opened = (result, worked) ∧ p.Logs inner opened log result worked ∧
      (db.transaction p.run s).1 = result ∧
      (db.transaction p.run s).2.statements = s.statements ++
        ((Entry.bracket result.isOk log).marks db.depth).map LogMark.statement ∧
      LogMark.AreBalanced ((Entry.bracket result.isOk log).marks db.depth) ∧
      (db.transaction p.run s).2.scripted = s.scripted.drop
        (((Entry.bracket result.isOk log).marks db.depth).countP LogMark.isSent) := by
  obtain ⟨inner, opened, hopened, hinner⟩ := exists_openTransaction hopen
  obtain ⟨log, hlog⟩ := p.exists_logs inner opened hinner
  have hdepth : inner.depth = db.depth + 1 := by
    obtain ⟨_, rfl, _⟩ := openTransaction_ok hopened
    rfl
  -- a transaction is logged as work that consists of it alone
  have hwhole := Work.Logs.bracket hopened hlog
  have hmarks : ∀ entry : Entry, Entry.marksAll db.depth [entry] = entry.marks db.depth := by
    intro entry
    rw [Entry.marksAll, Entry.marksAll, List.append_nil]
  refine ⟨inner, opened, _, _, log, hopened, hdepth, rfl, hlog, ?_, ?_, ?_, ?_⟩
  · rw [transaction_eq hopened rfl]
  · rw [transaction_eq hopened rfl, ← hmarks]
    exact hwhole.statements
  · exact LogMark.follow_marks _ _ fun n hn => nomatch hn
  · rw [transaction_eq hopened rfl, ← hmarks]
    exact hwhole.scripted

/-- A transaction that goes on after the failure of one that is nested in it. -/
theorem Database.transaction_is_bracketed_nested :
    let p : Work :=
      .request (.execute "insert into task default values" [] []) fun _ =>
        .nested
          (.request (.execute "delete from task" [] []) fun _ => .done (.error (.driver "full")))
          fun _ => .done (.ok .nothing)
    let (result, after) := (Database.root .plain .off).transaction p.run Session.fresh
    result = .ok .nothing ∧
      after.statements.map Statement.sql =
        ["begin", "insert into task default values", "savepoint sp_1", "delete from task",
          "rollback to savepoint sp_1", "commit"] ∧
      ∃ log, LogMark.AreBalanced ((Entry.bracket true log).marks 0) ∧
        after.statements = ((Entry.bracket true log).marks 0).map LogMark.statement := by
  intro p
  obtain ⟨_, _, _, _, log, hopened, _, hrun, _, hresult, hstatements, hbalanced, _⟩ :=
    @transaction_is_bracketed p (.root .plain .off) Session.fresh rfl
  subst hresult
  exact ⟨rfl, rfl, log, hbalanced, hstatements⟩

end EntitySql
