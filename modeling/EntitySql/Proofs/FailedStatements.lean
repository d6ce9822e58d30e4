import EntitySql.Proofs.BulkRows

/-!
# Failures that carry a statement

When the database refuses a statement, the failure carries the text of that
statement and its values, each under its token. An operation sends several
statements, so the question is which of them a failure carries: it is the last
one that was sent. There is one failure that an operation makes by itself,
when an insert is answered without the number of the new row. It has the text
of the insert and none of its values.

- `Failure.Carries`: a failure with the statement of a template.
- `Session.Outcome.Tells`: an outcome whose failure is about the last statement.
- `Store.insert_tells` and the like, one for each operation.
- `Database.execution_failure_is_last`: operations and hand-written statements.
-/

namespace EntitySql

/-- The failure carries the statement of a template: its text, and its values, each under its
token. -/
def Failure.Carries (style : TokenStyle) (x : Template) (failure : Failure) : Prop :=
  ∃ detail, failure = .execution detail (x.sql style) (x.arguments style)

/-- The failure of an insert that is answered without the number of the new row. -/
def Store.numberless (st : Store) (f : Field) (sql : String) : Failure :=
  .execution s!"insert into '{st.entity.key}' did not report the generated '{f.key}'" sql []

/-- After statements that were received before, others were received, and if the outcome is a
failure of the database, it is about the last one of them. -/
def Tells (style : TokenStyle) (about : Template → Failure → Prop) (before : List Statement)
    {α : Type} (outcome : Except Failure α × Session) : Prop :=
  before <+: outcome.2.statements ∧
    ∀ failure, outcome.1 = .error failure → failure.kind = .execution →
      ∃ sent x, outcome.2.statements = before ++ sent ++ [x.statement style] ∧ about x failure

namespace Tells

variable {style : TokenStyle} {about : Template → Failure → Prop} {before : List Statement}
  {α β : Type} {s : Session}

/-- An action that sends nothing and has no failures of the database. -/
theorem of_quiet {m : Action α} (hbefore : before <+: s.statements)
    (hsame : (m s).2.statements = s.statements)
    (hfails : FailsAs (fun failure => failure.kind ≠ .execution) (m s).1) :
    Tells style about before (m s) :=
  ⟨hsame ▸ hbefore, fun failure h hkind => absurd hkind (hfails failure h)⟩

theorem found {x : Except Failure α} (hbefore : before <+: s.statements)
    (h : FailsAs (fun failure => failure.kind ≠ .execution) x) :
    Tells style about before ((liftM x : Action α) s) :=
  of_quiet hbefore rfl h

/-- What is built before it is sent. -/
theorem built {x : Except Failure α} (hbefore : before <+: s.statements)
    (h : FailsStructurally x) : Tells style about before ((liftM x : Action α) s) :=
  found hbefore fun failure hx => by simp [h failure hx]

/-- What is read in an answer. -/
theorem answered {x : Except Failure α} (hbefore : before <+: s.statements)
    (h : FailsAs Failure.IsOfAnswer x) : Tells style about before ((liftM x : Action α) s) :=
  found hbefore (h.imp fun _ h => h.kind_ne_execution)

theorem of_pure (a : α) (hbefore : before <+: s.statements) :
    Tells style about before ((pure a : Action α) s) :=
  of_quiet hbefore rfl (.of_ok a)

theorem bind {m : Action α} {f : α → Action β} (hm : Tells style about before (m s))
    (hf : ∀ a t, m s = (.ok a, t) → before <+: t.statements → Tells style about before (f a t)) :
    Tells style about before ((m >>= f) s) := by
  cases hresult : m s with
  | mk result t =>
    rw [hresult] at hm
    cases result with
    | error failure =>
      rw [Action.bind_of_error hresult]
      exact ⟨hm.1, fun other h => hm.2 other (by cases h; rfl)⟩
    | ok a =>
      rw [Action.bind_of_ok hresult]
      exact hf a t hresult hm.1

theorem ite {c : Prop} [Decidable c] {m m' : Action α} (h : Tells style about before (m s))
    (h' : Tells style about before (m' s)) :
    Tells style about before ((if c then m else m') s) := by
  split
  · exact h
  · exact h'

end Tells

/-! ## Handles -/

namespace Database

variable {db : Database} {about : Template → Failure → Prop} {before : List Statement}
  {s : Session}

/-- Unless the database fails at the first use of an entity, names are not found only because the
handle is closed. -/
theorem names_failsAs (hfirst : ∀ failure, db.dialect.firstUse ≠ .fails failure) (e : Entity) :
    FailsAs (fun failure => failure.kind ≠ .execution) (db.names e s).1 := by
  cases hopen : s.isOpen db.scope with
  | false =>
    rcases names_isDead e hopen with h | ⟨r, hr, h, -⟩
    · rw [h]
      exact .of_error (by decide)
    · rw [h]
      exact fun failure heq => by simp [hr failure heq]
  | true =>
    have hannounce : ∃ t, db.announce e s = (.ok (), t) := by
      rw [announce, Action.bind_of_ok (checkOpen_eq_ok (a := ()).2 ⟨hopen, rfl⟩)]
      cases huse : db.dialect.firstUse with
      | performs => exact ⟨_, rfl⟩
      | ignores => exact ⟨_, rfl⟩
      | fails failure => exact absurd huse (hfirst failure)
    obtain ⟨t, ht⟩ := hannounce
    have hdone : Action.onFailure (db.announce e) (db.schemaFailed [e]) s = (.ok (), t) := by
      rw [Action.onFailure, ht]
    rw [names]
    split
    · exact .of_ok _
    · rw [Action.bind_of_ok hdone]
      exact .of_ok _

/-- Looking up names sends nothing. -/
theorem names_tells (hfirst : ∀ failure, db.dialect.firstUse ≠ .fails failure) (e : Entity)
    (hbefore : before <+: s.statements) :
    Tells db.dialect.style about before (db.names e s) := by
  refine .of_quiet hbefore ?_ (names_failsAs hfirst e)
  have hexchanged : Session.Exchanged (fun _ => True) s (db.names e s).2 [] := names_exchanged e s
  rw [hexchanged.statements, List.append_nil]

/-- A signal is no statement. -/
theorem signalChange_tells (hbefore : before <+: s.statements) :
    Tells db.dialect.style about before (db.signalChange s) := by
  obtain ⟨t, ht, hstatements, -⟩ : ∃ t, db.signalChange s = (.ok (), t) ∧ _ := signalChange_eq
  rw [ht]
  exact ⟨hstatements ▸ hbefore, fun _ h => nomatch h⟩

/-- The database refuses a statement with a message of its own. -/
theorem receive_error {sql : String} {params : List Value} {refusal : Failure} {t : Session}
    (h : Action.receive sql params s = (.error refusal, t)) :
    ∃ detail, refusal = .driver detail := by
  rw [Action.receive] at h
  split at h
  · cases h
  · cases h
    exact ⟨_, rfl⟩
  · cases h

/-- A statement fails through an open handle, as the database refuses it. The failure carries the
statement. -/
theorem execute_refused {sql : String} {params : List Value} {arguments : List (String × Value)}
    {failure : Failure} {t : Session} (h : db.execute sql params arguments s = (.error failure, t))
    (hkind : failure.kind = .execution) :
    t.statements = s.statements ++ [⟨sql, params⟩] ∧
      ∃ detail, failure = .execution (Failure.driver detail).message sql arguments := by
  cases hopen : s.isOpen db.scope with
  | false =>
    rw [execute_of_closed hopen] at h
    cases h
    cases hkind
  | true =>
    rw [execute, Action.onFailure,
      Action.bind_of_ok (checkOpen_eq_ok (a := ()).2 ⟨hopen, rfl⟩)] at h
    cases hanswer : Action.receive sql params s with
    | mk answer u =>
      have hreceived := Action.statements_receive sql params s
      rw [hanswer] at hreceived
      cases answer with
      | ok result =>
        rw [Action.bind_of_ok hanswer] at h
        cases h
      | error refusal =>
        obtain ⟨detail, rfl⟩ := receive_error hanswer
        rw [Action.bind_of_error hanswer] at h
        cases h
        exact ⟨hreceived, detail, rfl⟩

/-- A statement is sent; if it fails, the failure is about it. -/
theorem send_tells {x : Template}
    (hcarries : ∀ failure : Failure, failure.Carries db.dialect.style x → about x failure)
    (hbefore : before <+: s.statements) :
    Tells db.dialect.style about before (db.send x s) := by
  have hexchanged : ∃ xs, Session.Exchanged (fun _ => True) s (db.send x s).2 xs :=
    execute_exchanged trivial s
  obtain ⟨xs, hxs⟩ := hexchanged
  refine ⟨?_, fun failure hfailure hkind => ?_⟩
  · rw [hxs.statements]
    exact hbefore.trans (List.prefix_append _ _)
  · cases hresult : db.send x s with
    | mk result t =>
      rw [hresult] at hfailure
      cases hfailure
      obtain ⟨hstatements, detail, hfailed⟩ := execute_refused hresult hkind
      obtain ⟨sent, hsent⟩ := hbefore
      exact ⟨sent, x, by rw [hstatements, hsent]; rfl, hcarries failure ⟨_, hfailed⟩⟩

end Database

/-! ## Operations -/

namespace Store

/-- The filter for a new row is missed if the answer has no number, or for a structural reason. -/
theorem insertedFilter_misses (st : Store) (data : Record) (sql : String) (result : RowSet) :
    FailsAs (fun failure => failure.kind = .structural ∨
      ∃ f, st.entity.autoIdentity? = some f ∧ failure = st.numberless f sql)
      (insertedFilter st data sql result) := by
  rw [insertedFilter]
  cases hauto : st.entity.autoIdentity? with
  | none =>
    refine .bind_ok ?_
    exact (identityValues_failsAs "insert" (.compound data)).imp fun _ h => .inl h.kind_eq
  | some f =>
    cases result.lastId with
    | some n => exact .of_ok _
    | none => exact .of_error (.inr ⟨f, rfl, rfl⟩)

variable {st : Store} {about : Template → Failure → Prop} {before : List Statement} {s : Session}

/-- A row in the answer to a statement that writes it. -/
theorem written_tells (operation : String) (result : RowSet) (hbefore : before <+: s.statements) :
    Tells st.database.dialect.style about before ((do
      let row ← decodeSingle st.entity operation result
      st.database.signalChange
      return row : Action Record) s) := by
  refine .bind (.answered hbefore (decodeSingle_ofAnswer operation result)) fun row t _ ht => ?_
  refine .bind (Database.signalChange_tells ht) fun _ u _ hu => ?_
  exact .of_pure row hu

section

variable (hfirst : ∀ failure, st.database.dialect.firstUse ≠ .fails failure)
  (hcarries : ∀ x (failure : Failure), failure.Carries st.database.dialect.style x →
    about x failure)

include hfirst hcarries

/-- A statement that is built with the names of the entity, and the reading of its answer. -/
theorem query_tells {α : Type} {build : EntityNames → Except Failure Template}
    {read : RowSet → Except Failure α} (hbuild : ∀ names, FailsStructurally (build names))
    (hread : ∀ result, FailsAs Failure.IsOfAnswer (read result))
    (hbefore : before <+: s.statements) :
    Tells st.database.dialect.style about before ((do
      let names ← st.database.names st.entity
      let statement ← build names
      let result ← st.database.send statement
      read result : Action α) s) := by
  refine .bind (Database.names_tells hfirst _ hbefore) fun names t _ ht => ?_
  refine .bind (.built ht (hbuild names)) fun x u _ hu => ?_
  refine .bind (Database.send_tells (hcarries x) hu) fun result v _ hv => ?_
  exact .answered hv (hread result)

/-- The last statement of a count. -/
theorem count_tells (f : Filter) (hbefore : before <+: s.statements) :
    Tells st.database.dialect.style about before (st.count f s) :=
  query_tells hfirst hcarries (fun _ => countStatement_failsAs .structural f) countOf_ofAnswer
    hbefore

theorem find_tells (o : FindOptions) (hbefore : before <+: s.statements) :
    Tells st.database.dialect.style about before (st.find o s) :=
  query_tells hfirst hcarries (fun _ => findStatement_failsAs .structural o)
    (fun result => decodeRows_ofAnswer result.rows) hbefore

theorem findOne_tells (operation : String) (f : Filter) (hbefore : before <+: s.statements) :
    Tells st.database.dialect.style about before (st.findOne operation f s) :=
  query_tells hfirst hcarries (fun _ => selectStatement_failsAs .structural f)
    (decodeSingle_ofAnswer operation) hbefore

/-- The last statement of an insert. The statement that inserts is the last one too if it is
answered without the number of the row. -/
theorem insert_tells (data : Record)
    (hnumberless : ∀ names x f, insertStatement st.entity names st.database.dialect data = .ok x →
      st.database.dialect.capabilities.returning = false → st.entity.autoIdentity? = some f →
        about x (st.numberless f (x.sql st.database.dialect.style)))
    (hbefore : before <+: s.statements) :
    Tells st.database.dialect.style about before (st.insert data s) := by
  rw [insert_eq]
  refine .bind (Database.names_tells hfirst _ hbefore) fun names t _ ht => ?_
  refine .bind (.built ht (insertStatement_failsAs .structural data)) fun x u hx hu => ?_
  have hstatement := (Action.lift_eq_ok.1 hx).1
  refine .bind (Database.send_tells (hcarries x) hu) fun result v hsend hv => ?_
  rw [afterInsert]
  cases hreturning : st.database.dialect.capabilities.returning with
  | true => exact written_tells "insert" result hv
  | false =>
    refine .bind (Database.signalChange_tells hv) fun _ w hsignal hw => ?_
    refine .bind ⟨hw, fun failure hfailure hkind => ?_⟩ fun f w' _ hw' =>
      findOne_tells hfirst hcarries "insert" f hw'
    -- what is missed here is about the statement that was just sent
    rcases insertedFilter_misses st data _ result failure hfailure with h | ⟨f, hauto, rfl⟩
    · rw [h] at hkind
      cases hkind
    · obtain ⟨sent, hsent⟩ := hu
      obtain ⟨-, hlast, -⟩ := Database.send_ok hsend
      obtain ⟨w', hw', hsame, -⟩ : ∃ w', st.database.signalChange v = (.ok (), w') ∧ _ :=
        Database.signalChange_eq
      rw [hw'] at hsignal
      cases hsignal
      refine ⟨sent, x, ?_, hnumberless names x f hstatement hreturning hauto⟩
      show w.statements = _
      rw [hsame, hlast, ← hsent]

/-- The last statement of an update. -/
theorem update_tells (id : RowId) (data : Record) (hbefore : before <+: s.statements) :
    Tells st.database.dialect.style about before (st.update id data s) := by
  rw [update_eq]
  refine .bind (.built hbefore ((identityValues_failsAs _ _).imp fun _ h => h.kind_eq))
    fun identity t _ ht => ?_
  refine .bind (Database.names_tells hfirst _ ht) fun names u _ hu => ?_
  refine .bind (.built hu ((writtenValues_failsAs data false).imp fun _ h => h.kind_eq))
    fun written v _ hv => ?_
  split
  · exact findOne_tells hfirst hcarries "update" _ hv
  · refine .bind (.built hv (updateStatement_failsAs .structural identity written))
      fun x w _ hw => ?_
    refine .bind (Database.send_tells (hcarries x) hw) fun result w' _ hw' => ?_
    rw [afterUpdate]
    split
    · exact written_tells "update" result hw'
    · refine .bind (.answered hw' (expectOneChanged_ofAnswer result)) fun _ y _ hy => ?_
      refine .bind (Database.signalChange_tells hy) fun _ z _ hz => ?_
      exact findOne_tells hfirst hcarries "update" _ hz

theorem delete_tells (id : RowId) (hbefore : before <+: s.statements) :
    Tells st.database.dialect.style about before (st.delete id s) := by
  rw [delete_eq]
  refine .bind (.built hbefore ((identityValues_failsAs _ _).imp fun _ h => h.kind_eq))
    fun identity t _ ht => ?_
  refine .bind (Database.names_tells hfirst _ ht) fun names u _ hu => ?_
  refine .bind (.built hu (deleteStatement_failsAs .structural identity)) fun x v _ hv => ?_
  refine .bind (Database.send_tells (hcarries x) hv) fun _ w _ hw => ?_
  exact Database.signalChange_tells hw

/-- The last statement of an insert of defaults, which has no values. -/
theorem insertDefault_tells (hbefore : before <+: s.statements) :
    Tells st.database.dialect.style about before (st.insert Record.empty s) := by
  refine insert_tells hfirst hcarries _ (fun names x f hx _ _ => ?_) hbefore
  obtain ⟨written, hwritten, hvalues⟩ := values_insertStatement hx
  rw [writtenValues_empty] at hwritten
  cases hwritten
  refine hcarries x _ ⟨s!"insert into '{st.entity.key}' did not report the generated '{f.key}'", ?_⟩
  rw [numberless, Template.arguments, hvalues]
  rfl

theorem insertDefaults_tells : ∀ (rows : List Record) {s : Session}, before <+: s.statements →
    Tells st.database.dialect.style about before (st.insertDefaults rows s)
  | [], _, hbefore => .of_pure () hbefore
  | _ :: rest, _, hbefore => by
    refine .bind (insertDefault_tells hfirst hcarries hbefore) fun _ t _ ht => ?_
    exact insertDefaults_tells rest ht

/-- The last statement of the inserts of many rows. -/
theorem insertChunks_tells {names : EntityNames} : ∀ (pieces : List (List Record)) {s : Session},
    before <+: s.statements →
      Tells st.database.dialect.style about before (st.insertChunks names pieces s)
  | [], _, hbefore => .of_pure 0 hbefore
  | chunk :: rest, s, hbefore => by
    refine .bind ?_ fun inserted t _ ht =>
      .bind (insertChunks_tells rest ht) fun others u _ hu => .of_pure _ hu
    refine .bind (.built hbefore ((writtenRows_failsAs chunk).imp fun _ h => h.kind_eq))
      fun rows t _ ht => ?_
    refine .ite ?_ ?_
    · exact .bind (insertDefaults_tells hfirst hcarries chunk ht) fun _ u _ hu => .of_pure _ hu
    · refine .bind (.built ht (bulkStatement_failsAs (e := st.entity) .structural _ _))
        fun x u _ hu => ?_
      refine .bind (Database.send_tells (hcarries x) hu) fun result v _ hv => ?_
      exact .bind (Database.signalChange_tells hv) fun _ w _ hw => .of_pure _ hw

end

end Store

/-! ## What failures carry -/

/-- The failure of an insert that was answered without the number of its row: it has the text of
the insert, and none of the values that were sent. -/
def Operation.Forgets (st : Store) (op : Operation) (x : Template) (failure : Failure) : Prop :=
  ∃ data f, op = .insert data ∧ st.database.dialect.capabilities.returning = false ∧
    st.entity.autoIdentity? = some f ∧ x.values ≠ [] ∧
      failure = st.numberless f (x.sql st.database.dialect.style)

theorem Operation.Forgets.not_carries {st : Store} {op : Operation} {x : Template}
    {failure : Failure} (h : op.Forgets st x failure) :
    ¬ failure.Carries st.database.dialect.style x := by
  obtain ⟨data, f, -, -, -, hvalues, rfl⟩ := h
  rintro ⟨detail, hcarries⟩
  have harguments : [] = x.arguments st.database.dialect.style :=
    (Failure.execution.inj hcarries).2.2
  rw [Template.arguments] at harguments
  cases hx : x.values with
  | nil => exact hvalues hx
  | cons v vs =>
    rw [hx] at harguments
    cases harguments

/-- The last statement of an operation. -/
theorem Operation.perform_tells {st : Store}
    (hfirst : ∀ failure, st.database.dialect.firstUse ≠ .fails failure) (op : Operation)
    (s : Session) :
    Tells st.database.dialect.style
      (fun x failure => failure.Carries st.database.dialect.style x ∨ op.Forgets st x failure)
      s.statements (op.perform st s) := by
  have hcarries : ∀ x (failure : Failure), failure.Carries st.database.dialect.style x →
      failure.Carries st.database.dialect.style x ∨ op.Forgets st x failure := fun _ _ => .inl
  have hbefore := List.prefix_refl s.statements
  cases op with
  | count f => exact .bind (Store.count_tells hfirst hcarries f hbefore) fun _ _ _ => .of_pure _
  | find o => exact .bind (Store.find_tells hfirst hcarries o hbefore) fun _ _ _ => .of_pure _
  | insert data =>
    refine .bind (Store.insert_tells hfirst hcarries data ?_ hbefore) fun _ _ _ => .of_pure _
    intro names x f _ hreturning hauto
    -- without values there is nothing to forget
    by_cases hvalues : x.values = []
    · refine .inl ⟨s!"insert into '{st.entity.key}' did not report the generated '{f.key}'", ?_⟩
      rw [Store.numberless, Template.arguments, hvalues]
      rfl
    · exact .inr ⟨data, f, rfl, hreturning, hauto, hvalues, rfl⟩
  | update id data =>
    exact .bind (Store.update_tells hfirst hcarries id data hbefore) fun _ _ _ => .of_pure _
  | delete id => exact .bind (Store.delete_tells hfirst hcarries id hbefore) fun _ _ _ => .of_pure _
  | bulkInsert rows =>
    refine .bind (.bind (Database.names_tells hfirst _ hbefore) fun names t _ ht => ?_)
      fun _ _ _ => .of_pure _
    exact Store.insertChunks_tells hfirst hcarries _ ht

/-- A failure of the database, as an operation or a hand-written statement reports it, is about
the last statement that was received, and carries it with its values. The one exception are
inserts that are answered without the number of their row. -/
theorem Database.execution_failure_is_last {db : Database}
    (hfirst : ∀ failure, db.dialect.firstUse ≠ .fails failure) {s t : Session} {failure : Failure}
    (hkind : failure.kind = .execution) :
    (∀ (e : Entity) (op : Operation), op.perform ⟨e, db⟩ s = (.error failure, t) →
      ∃ sent x, t.statements = s.statements ++ sent ++ [x.statement db.dialect.style] ∧
        (failure.Carries db.dialect.style x ∨ op.Forgets ⟨e, db⟩ x failure) ∧
          (op.Forgets ⟨e, db⟩ x failure → ¬ failure.Carries db.dialect.style x)) ∧
      ∀ sql, db.execute sql [] [] s = (.error failure, t) →
        t.statements = s.statements ++ [⟨sql, []⟩] ∧
          ∃ detail, failure = .execution detail sql [] := by
  refine ⟨fun e op h => ?_, fun sql h => ?_⟩
  · have htells := @Operation.perform_tells ⟨e, db⟩ hfirst op s
    rw [h] at htells
    obtain ⟨sent, x, hlast, hfailure⟩ := htells.2 failure rfl hkind
    exact ⟨sent, x, hlast, hfailure, Operation.Forgets.not_carries⟩
  · obtain ⟨hstatements, detail, hfailure⟩ := execute_refused h hkind
    exact ⟨hstatements, _, hfailure⟩

/-- An entity whose rows are numbered by the database. -/
def ticket : Entity :=
  { key := "ticket", table := "ticket"
    fields := [{ Field.ofType "id" .integer with autoIncrement := true }, .ofType "title" .text]
    identity := ["id"] }

/-- Its store in a database that does not give the rows that it writes. -/
def ticketStore : Store where
  entity := ticket
  database := .root { Dialect.plain with capabilities := ⟨false, false, false⟩ } .off

/-- A ticket with a title. -/
def titled : Record := Record.empty.insert "title" (.text "x")

/-- A session in which a row gets its number, and cannot be read then. -/
def numberedOnly : Session :=
  { Session.fresh with
    scripted := [.rows { RowSet.oneChanged with lastId := some 7 }, .failure "disk full"] }

/-- What comes of an insert then. -/
def refusedReading : Failure :=
  .execution "Driver error: disk full" "select id, title from ticket where id = ?"
    [("?", .integer 7)]

/-- The row that was inserted cannot be read: the failure carries the second statement. -/
theorem Database.execution_failure_is_last_reread :
    ∃ (t : Session) (sent : List Statement) (x : Template),
      (Operation.insert titled).perform ticketStore numberedOnly = (.error refusedReading, t) ∧
        t.statements = numberedOnly.statements ++ sent ++ [x.statement .question] ∧
          refusedReading.Carries .question x := by
  have hrun : (Operation.insert titled).perform ticketStore numberedOnly =
      (.error refusedReading, ((Operation.insert titled).perform ticketStore numberedOnly).2) := rfl
  obtain ⟨sent, x, hlast, hcarries | ⟨data, f, -, -, -, -, hfailure⟩, -⟩ :=
    (@execution_failure_is_last ticketStore.database (fun _ h => nomatch h) _ _ _ rfl).1 ticket
      (.insert titled) hrun
  · exact ⟨_, sent, x, hrun, hlast, hcarries⟩
  · -- it is not the failure of a missing number, which has no values
    exact absurd (Failure.execution.inj hfailure).2.2 (List.cons_ne_nil _ _)

/-- The number of the row is missing: the failure has the text of the insert, without the value
that was sent with it. -/
theorem Database.execution_failure_forgets :
    ¬ ∀ (st : Store) (op : Operation) (s t : Session) (failure : Failure),
      (∀ f, st.database.dialect.firstUse ≠ .fails f) → op.perform st s = (.error failure, t) →
        failure.kind = .execution → ∃ sent x,
          t.statements = s.statements ++ sent ++ [x.statement st.database.dialect.style] ∧
            failure.Carries st.database.dialect.style x := by
  intro hall
  obtain ⟨sent, x, hlast, detail, hcarries⟩ :=
    hall ticketStore (.insert titled) .fresh _ _ (fun _ h => nomatch h) rfl rfl
  have hone : [⟨"insert into ticket (title) values (?)", [.text "x"]⟩] =
      sent ++ [x.statement .question] := hlast
  have hvalues : x.values = [.text "x"] := by
    have hx := congrArg List.getLast? hone
    simp only [List.getLast?_singleton, List.getLast?_append, Option.some_or, Option.some.injEq]
      at hx
    exact (congrArg Statement.params hx).symm
  have harguments : [] = x.arguments .question := (Failure.execution.inj hcarries).2.2
  rw [Template.arguments, hvalues] at harguments
  cases harguments

end EntitySql
