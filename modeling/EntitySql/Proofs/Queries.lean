import EntitySql.Proofs.Answers
import EntitySql.Proofs.RowChanges

/-!
# Queries

Rows are counted, searched and read in one way: the names of the entity are
looked up, a statement is built, it is sent, and its answer is read. What can be
wrong before the statement is sent and what can be wrong after it are failures
of different kinds.

- `Store.query`: such an operation.
- `Store.query_of_error`, `Store.query_of_ok`: what becomes of it.
- `Store.Knows`: names that need not be looked up any more.
- `FailsLater`: computations and answers without structural failures.
- `Store.columnTexts_resolve`, `Store.selectList_resolve`: an entity's own names
  know all of its columns.
-/

namespace EntitySql

/-! ## Failures after a statement -/

/-- No failure of a computation is structural. -/
def FailsLater {α : Type} (x : Except Failure α) : Prop :=
  ∀ failure, x = .error failure → failure.kind ≠ .structural

namespace FailsLater

variable {α β : Type}

/-- A result is no failure. -/
theorem of_ok (a : α) : FailsLater (.ok a) := fun _ h => nomatch h

theorem of_error {failure : Failure} (h : failure.kind ≠ .structural) :
    FailsLater (.error failure : Except Failure α) := fun _ heq => by
  cases heq
  exact h

/-- Steps without structural failures, one after the other. -/
theorem bind {x : Except Failure α} {f : α → Except Failure β} (hx : FailsLater x)
    (hf : ∀ a, FailsLater (f a)) : FailsLater (x >>= f) := by
  intro failure h
  rcases bind_eq_error.1 h with h | ⟨a, _, h⟩
  · exact hx failure h
  · exact hf a failure h

end FailsLater

/-- The failure of a statement carries the statement, or says that the transaction is over. -/
theorem Database.send_failsLater (db : Database) (t : Template) (s : Session) :
    FailsLater (db.send t s).1 := by
  intro failure h
  have hfailed : ∀ (f : Failure) (u : Session),
      (db.statementFailed (t.sql db.dialect.style) (t.arguments db.dialect.style) f u :
        Except Failure RowSet × Session).1 = .error failure → failure.kind ≠ .structural := by
    intro f u hf
    cases f <;> cases hf <;> exact nofun
  rw [send, execute, Action.onFailure] at h
  split at h
  · cases h
  · exact hfailed _ _ h

namespace Store

variable (e : Entity)

/-- What is wrong with the answer to a count. -/
theorem countOf_failsLater (result : RowSet) : FailsLater (countOf e result) :=
  (countOf_ofAnswer result).imp fun _ h => h.kind_ne_structural

theorem decodeRows_failsLater (rows : List (List Value)) : FailsLater (decodeRows e rows) :=
  (decodeRows_ofAnswer rows).imp fun _ h => h.kind_ne_structural

theorem decodeSingle_failsLater (operation : String) (result : RowSet) :
    FailsLater (decodeSingle e operation result) :=
  (decodeSingle_ofAnswer operation result).imp fun _ h => h.kind_ne_structural

theorem expectOneChanged_failsLater (result : RowSet) : FailsLater (expectOneChanged e result) :=
  (expectOneChanged_ofAnswer result).imp fun _ h => h.kind_ne_structural

end Store

/-! ## Statements with an answer -/

namespace Database

variable {db : Database} {s named : Session} {e : Entity} {names : EntityNames}

/-- The names of an entity are found without a statement, and no scope opens or closes. -/
theorem quiet_names (h : db.names e s = (.ok names, named)) :
    named.statements = s.statements ∧ named.isOpen db.scope = s.isOpen db.scope := by
  have hexchanged : Session.Exchanged (fun _ => True) s (db.names e s).2 [] := names_exchanged e s
  rw [h] at hexchanged
  exact ⟨by rw [hexchanged.statements, List.append_nil], hexchanged.isOpen_eq db.scope⟩

/-- What is sent for a statement: the statement, if the handle is open. -/
theorem statements_send_eq (t : Template) (s : Session) :
    (db.send t s).2.statements =
      s.statements ++ if s.isOpen db.scope then [t.statement db.dialect.style] else [] := by
  cases hopen : s.isOpen db.scope with
  | true => exact statements_send hopen t
  | false =>
    rw [send, execute_of_closed hopen]
    exact (List.append_nil _).symm

end Database

namespace Store

variable {α : Type}

/-- A statement is built with the names of the entity and sent, and its answer is read. -/
def query (st : Store) (build : EntityNames → Except Failure Template)
    (read : RowSet → Except Failure α) : Action α := do
  let names ← st.database.names st.entity
  let statement ← build names
  let result ← st.database.send statement
  read result

theorem find_eq_query (st : Store) (o : FindOptions) : st.find o =
    st.query (fun names => findStatement st.entity names st.database.dialect o)
      (fun result => decodeRows st.entity result.rows) := rfl

variable {st : Store} {build : EntityNames → Except Failure Template}
  {read : RowSet → Except Failure α} {s named : Session} {names : EntityNames}

/-- Without names there is no statement. -/
theorem query_of_names_error {failure : Failure}
    (h : st.database.names st.entity s = (.error failure, named)) :
    st.query build read s = (.error failure, named) :=
  Action.bind_of_error h

section

variable (hnames : st.database.names st.entity s = (.ok names, named))

include hnames

/-- A statement that cannot be built is not sent. -/
theorem query_of_error {failure : Failure} (h : build names = .error failure) :
    st.query build read s = (.error failure, named) := by
  rw [query, Action.bind_of_ok hnames]
  exact Action.bind_of_error (Action.lift_of_error h)

/-- A statement that was built is sent, and its answer is read. -/
theorem query_of_ok {t : Template} (h : build names = .ok t) :
    st.query build read s =
      ((st.database.send t named).1 >>= read, (st.database.send t named).2) := by
  rw [query, Action.bind_of_ok hnames, Action.bind_of_ok (Action.lift_of_ok h)]
  exact Action.bind_lift _ _

/-- Nothing but the statement is sent. -/
theorem statements_query {t : Template} (h : build names = .ok t) :
    (st.query build read s).2.statements = s.statements ++
      if s.isOpen st.database.scope then [t.statement st.database.dialect.style] else [] := by
  obtain ⟨hstatements, hopen⟩ := Database.quiet_names hnames
  rw [query_of_ok hnames h, Database.statements_send_eq, hstatements, hopen]

/-- After a statement was built, nothing that is wrong with it is found. -/
theorem query_failsLater {t : Template} (h : build names = .ok t)
    (hread : ∀ result, FailsLater (read result)) : FailsLater (st.query build read s).1 := by
  rw [query_of_ok hnames h]
  exact (Database.send_failsLater _ _ _).bind hread

end

/-! ### Known names -/

/-- The names of the entity are known as long as nothing happens to the scopes. -/
def Knows (st : Store) (names : EntityNames) (s : Session) : Prop :=
  ∀ t : Session, t.scopes = s.scopes → st.database.names st.entity t = (.ok names, t)

/-- Names that were found are known. -/
theorem knows_of_names (h : st.database.names st.entity s = (.ok names, named)) :
    st.Knows names named :=
  (Database.names_ok h).2.2

namespace Knows

variable {t : Session}

theorem names_eq (h : st.Knows names s) : st.database.names st.entity s = (.ok names, s) := h s rfl

/-- Names stay known as long as nothing happens to the scopes. -/
theorem of_scopes (h : st.Knows names s) (hscopes : t.scopes = s.scopes) : st.Knows names t :=
  fun u hu => h u (hu.trans hscopes)

/-- Nothing happens to the scopes in a query. -/
theorem scopes_query (h : st.Knows names s) {a : α} (hquery : st.query build read s = (.ok a, t)) :
    t.scopes = s.scopes := by
  simp only [query, Action.bind_eq_ok, Action.lift_eq_ok] at hquery
  obtain ⟨names', u, hnames, statement, _, ⟨_, rfl⟩, result, v, hsend, _, rfl⟩ := hquery
  cases h.names_eq.symm.trans hnames
  exact (Database.send_ok hsend).2.2.1

theorem scopes_insert (h : st.Knows names s) {data : Record} {r : Record}
    (hinsert : st.insert data s = (.ok r, t)) : t.scopes = s.scopes := by
  simp only [insert_eq, Action.bind_eq_ok, Action.lift_eq_ok] at hinsert
  obtain ⟨_, _, hnames, statement, _, ⟨_, rfl⟩, result, u, hsend, hrest⟩ := hinsert
  cases h.names_eq.symm.trans hnames
  have hsent : u.scopes = s.scopes := (Database.send_ok hsend).2.2.1
  obtain ⟨v, hsignal, -, -, hsignalled⟩ : ∃ v, st.database.signalChange u = (.ok (), v) ∧ _ :=
    Database.signalChange_eq
  rw [afterInsert] at hrest
  split at hrest
  · simp only [Action.bind_eq_ok, Action.lift_eq_ok] at hrest
    obtain ⟨row, _, ⟨_, rfl⟩, _, _, hsignal', hreturn⟩ := hrest
    cases hsignal.symm.trans hsignal'
    cases hreturn
    rw [hsignalled, hsent]
  · simp only [Action.bind_eq_ok, Action.lift_eq_ok] at hrest
    obtain ⟨_, _, hsignal', f, _, ⟨_, rfl⟩, hread⟩ := hrest
    cases hsignal.symm.trans hsignal'
    have hscopes := hsignalled.trans hsent
    exact ((h.of_scopes hscopes).scopes_query hread).trans hscopes

end Knows

end Store

/-! ## An entity's own names -/

namespace Store

variable {e : Entity}

/-- There is a text for each field that the database knows. -/
theorem columnTexts_resolve (he : e.IsSound) (q : Quoting) : ∀ {fs : List Field},
    (∀ f ∈ fs, f ∈ e.selected) →
      columnTexts (.resolve e q) fs = .ok (fs.map (EntityNames.fieldText q))
  | [], _ => rfl
  | f :: fs, h => by
    have hrest := columnTexts_resolve he q fun g hg => h g (List.mem_cons_of_mem f hg)
    rw [columnTexts, EntityNames.columnOf_selected he q (h f List.mem_cons_self), hrest]
    rfl

/-- All columns can be listed. -/
theorem selectList_resolve (he : e.IsSound) (q : Quoting) :
    selectList e (.resolve e q) =
      .ok (String.intercalate ", " (e.selected.map (EntityNames.fieldText q))) := by
  rw [selectList, columnTexts_resolve he q fun _ hf => hf]
  rfl

end Store

end EntitySql
