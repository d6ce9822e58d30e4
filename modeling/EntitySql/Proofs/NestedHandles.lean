import EntitySql.Proofs.Brackets

/-!
# Handles of nested transactions

A transaction that is opened through the handle of another one has a scope of
its own, and its handle looks at that scope only. Work that waits for the
transactions nested in it has ended all their scopes when it is done itself, so
all their handles are dead then. If a nested transaction is still running, the
end of the one around it does not end its handle: what is sent through it is
received after the commit, outside of any transaction.

- `Database.Nests`: a transaction inside another one, at any depth.
- `Database.Nests.scope_lt`: each of them has a scope of its own.
- `Work.Logs.nested_handles_are_dead`: work that waits for the transactions
  nested in it.
- `Database.nested_handle_is_dead_iff`: when the end of the outer transaction
  leaves nothing of a nested handle.
-/

namespace EntitySql

/-- In a run that begins with the session, a transaction was opened through the handle, or through
that of a transaction nested in it; the run has come to the last session. -/
inductive Database.Nests (outer : Database) (s : Session) : Database → Session → Prop
  | opened {inner : Database} {t u v : Session} (hrun : s.LeadsTo t)
    (hopen : outer.openTransaction t = (.ok inner, u)) (hrest : u.LeadsTo v) : Nests outer s inner v
  | deeper {middle inner : Database} {t u v : Session} (hmiddle : Nests outer s middle t)
    (hopen : middle.openTransaction t = (.ok inner, u)) (hrest : u.LeadsTo v) :
    Nests outer s inner v

/-- A run does not lose scopes. -/
theorem Session.LeadsTo.length_le {s t : Session} (h : s.LeadsTo t) :
    s.scopes.length ≤ t.scopes.length := by
  rcases Nat.eq_zero_or_pos s.scopes.length with hzero | hpos
  · exact hzero ▸ Nat.zero_le _
  · have hlast := h.lt_length (Nat.sub_one_lt (Nat.ne_of_gt hpos))
    omega

/-- A transaction inside another one has a scope of its own: a later one, which is new in the run
and one of the session from then on. -/
theorem Database.Nests.scope_lt {outer inner : Database} {s t : Session}
    (h : outer.Nests s inner t) :
    outer.scope < inner.scope ∧ s.scopes.length ≤ inner.scope ∧
      inner.scope < t.scopes.length := by
  induction h with
  | opened hrun hopen hrest =>
    obtain ⟨houter, hinner, -⟩ := openTransaction_ok hopen
    refine ⟨?_, ?_, hrest.lt_length (lt_length_of_openTransaction hopen)⟩
    · rw [hinner]
      exact Session.lt_length_of_isOpen houter
    · rw [hinner]
      exact hrun.length_le
  | deeper _ hopen hrest ih =>
    obtain ⟨hmiddle, hinner, -⟩ := openTransaction_ok hopen
    have hlt := Session.lt_length_of_isOpen hmiddle
    refine ⟨?_, ?_, hrest.lt_length (lt_length_of_openTransaction hopen)⟩
    · rw [hinner]
      exact Nat.lt_trans ih.1 hlt
    · rw [hinner]
      exact Nat.le_trans ih.2.1 (Nat.le_of_lt hlt)

/-- The end of a transaction leaves the handles of those nested in it as they are. -/
theorem Database.Nests.isOpen_closeScope {outer inner : Database} {s t : Session}
    (h : outer.Nests s inner t) :
    (t.closeScope outer.scope).isOpen inner.scope = t.isOpen inner.scope :=
  t.isOpen_closeScope_of_ne (Nat.ne_of_lt h.scope_lt.1)

/-- A nested transaction that had ended before stays ended. -/
theorem Database.Nests.isEnded {outer inner : Database} {s t later : Session}
    (h : outer.Nests s inner t) (hclosed : t.isOpen inner.scope = false)
    (hlater : (t.closeScope outer.scope).LeadsTo later) : later.IsEnded inner.scope := by
  refine hlater.isEnded ⟨?_, h.isOpen_closeScope.trans hclosed⟩
  rw [Session.closeScope, List.length_modify]
  exact h.scope_lt.2.2

/-- Work that waits for the transactions nested in it ends all scopes that it opens. -/
theorem Work.Logs.ends_nested {p : Work} {db : Database} {s t : Session} {log : List Entry}
    {result : Except Failure Script.Reply} (h : p.Logs db s log result t) :
    ∀ scope, s.scopes.length ≤ scope → t.isOpen scope = false := by
  induction h with
  | done =>
    intro scope hscope
    rw [Session.isOpen, List.getElem?_eq_none hscope]
  | @request r next db s t u xs log reply result hperform _ _ ih =>
    obtain ⟨ys, hys⟩ := (r.perform_through db).exchanges s
    rw [hperform] at hys
    intro scope hscope
    exact ih scope (hys.length_eq ▸ hscope)
  | @nested inside next db inner s opened worked u insideLog log reply result hopen hinside hnext
      ihinside ihnext =>
    obtain ⟨_, rfl, rfl⟩ := Database.openTransaction_ok hopen
    intro scope hscope
    have hlength : (db.closeTransaction { db with scope := s.scopes.length, depth := db.depth + 1 }
        reply.isOk worked).scopes.length = worked.scopes.length := List.length_modify ..
    rcases Nat.lt_or_ge scope worked.scopes.length with hlt | hge
    · -- a scope of the nested transaction: its own, or one that was opened in it
      rw [hnext.scopes.2 scope (hlength ▸ hlt)]
      rcases Nat.eq_or_lt_of_le hscope with rfl | hinner
      · exact worked.isOpen_closeScope _
      · refine (worked.isOpen_closeScope_of_ne (Nat.ne_of_lt hinner)).trans (ihinside scope ?_)
        simpa [Session.openScope, Session.record] using Nat.succ_le_of_lt hinner
    · exact ihnext scope (hlength ▸ hge)

/-- When such work is done, nothing is received through the handles of the transactions nested in
it, at no later point of any run. -/
theorem Work.Logs.nested_handles_are_dead {p : Work} {outer inner : Database} {s t later : Session}
    {log : List Entry} {result : Except Failure Script.Reply} (h : p.Logs outer s log result t)
    (hnested : outer.Nests s inner t) (hlater : (t.closeScope outer.scope).LeadsTo later)
    (sql : String) (params : List Value) (arguments : List (String × Value)) :
    inner.execute sql params arguments later = (.error .transactionCompleted, later) := by
  have hclosed : t.isOpen inner.scope = false := h.ends_nested _ hnested.scope_lt.2.1
  exact Database.execute_of_closed (hnested.isEnded hclosed hlater).closed sql params arguments

/-- After the end of a transaction, nothing is received through the handle of one nested in it,
at no later point of any run, if and only if the nested one had ended before. -/
theorem Database.nested_handle_is_dead_iff {outer inner : Database} {s t : Session}
    (hnested : outer.Nests s inner t) :
    (∀ later, (t.closeScope outer.scope).LeadsTo later → ∀ sql params arguments,
      inner.execute sql params arguments later = (.error .transactionCompleted, later)) ↔
        t.isOpen inner.scope = false := by
  constructor
  · intro hdead
    cases hopen : t.isOpen inner.scope with
    | false => rfl
    | true =>
      -- an open handle sends the first statement at once
      have hsent : Session.Exchanged (fun _ => True) (t.closeScope outer.scope)
          (inner.execute "" [] [] (t.closeScope outer.scope)).2 [⟨"", []⟩] :=
        execute_of_open (hnested.isOpen_closeScope.trans hopen) [] trivial
      rw [hdead _ .refl] at hsent
      simpa using hsent.statements
  · intro hclosed later hlater sql params arguments
    exact execute_of_closed (hnested.isEnded hclosed hlater).closed sql params arguments

namespace Database

/-- The handle of a transaction. -/
def firstTransaction : Database := { root .plain .off with scope := 1, depth := 1 }

/-- The handle of a transaction inside of it. -/
def secondTransaction : Database := { root .plain .off with scope := 2, depth := 2 }

/-- Both transactions are open. -/
def bothOpen : Session :=
  (firstTransaction.openTransaction ((root .plain .off).openTransaction Session.fresh).2).2

/-- The second transaction has ended before the first one. -/
theorem nested_handle_is_dead_ended :
    let released := (bothOpen.closeScope 2).record "release savepoint sp_1" []
    let committed := (released.closeScope 1).record "commit" []
    secondTransaction.execute "delete from task" [] [] committed =
        (.error .transactionCompleted, committed) ∧
      committed.statements.map Statement.sql =
        ["begin", "savepoint sp_1", "release savepoint sp_1", "commit"] := by
  intro released committed
  have hnested : firstTransaction.Nests ((root .plain .off).openTransaction Session.fresh).2
      secondTransaction released :=
    .opened .refl rfl (.tail (.single (.ended 2)) (.recorded "release savepoint sp_1"))
  exact ⟨(nested_handle_is_dead_iff hnested).2 rfl _ (.single (.recorded "commit")) _ _ _, rfl⟩

/-- The second transaction is still running when the first one is done: after the commit, a
statement of the second one is received. -/
theorem nested_handle_outlives_commit :
    let committed := (bothOpen.closeScope 1).record "commit" []
    (firstTransaction.Nests ((root .plain .off).openTransaction Session.fresh).2
        secondTransaction bothOpen ∧ (bothOpen.closeScope 1).LeadsTo committed) ∧
      (secondTransaction.execute "delete from task" [] [] committed).2.statements.map
          Statement.sql = ["begin", "savepoint sp_1", "commit", "delete from task"] :=
  ⟨⟨.opened .refl rfl .refl, .single (.recorded "commit")⟩, rfl⟩

end Database

end EntitySql
