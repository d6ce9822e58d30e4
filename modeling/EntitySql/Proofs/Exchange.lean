import EntitySql.Proofs.Lockstep

/-!
# Statements and answers

What an operation does to a session is a matter of a few steps: the names of
the entity become known, statements are sent, changes are signalled. This
module says of each step what it does to the statements, to the answers that
are waiting and to what is known of names.

- `Action.bind_eq_ok`, `Action.onFailure_eq_ok`: actions that succeed.
- `Database.names_ok`: names that are known once are known from then on.
- `Database.send_ok`, `Database.send_of_rows`: a statement and its answer.
- `Database.signalChange_eq`: a change leaves statements and answers alone.
-/

namespace EntitySql

namespace Action

variable {α β : Type} {s t : Session}

/-- A sequence of two actions succeeds exactly if both succeed. -/
theorem bind_eq_ok {m : Action α} {f : α → Action β} {b : β} :
    (m >>= f) s = (.ok b, t) ↔ ∃ a u, m s = (.ok a, u) ∧ f a u = (.ok b, t) := by
  constructor
  · intro h
    cases hm : m s with
    | mk result u =>
      cases result with
      | error e =>
        rw [bind_of_error hm] at h
        cases h
      | ok a =>
        rw [bind_of_ok hm] at h
        exact ⟨a, u, rfl, h⟩
  · rintro ⟨a, u, hm, hf⟩
    rw [bind_of_ok hm, hf]

/-- An action succeeds after its failure was handled if it does not fail, or if what is done
then succeeds. -/
theorem onFailure_eq_ok {m : Action α} {handle : Failure → Action α} {a : α} :
    onFailure m handle s = (.ok a, t) ↔
      m s = (.ok a, t) ∨ ∃ e u, m s = (.error e, u) ∧ handle e u = (.ok a, t) := by
  rw [onFailure]
  cases hm : m s with
  | mk result u =>
    cases result with
    | ok b => simp
    | error e =>
      constructor
      · exact fun h => .inr ⟨e, u, rfl, h⟩
      · rintro (h | ⟨_, _, heq, h⟩)
        · cases h
        · cases heq
          exact h

/-- A result found without the session leaves the session as it is. -/
theorem lift_of_ok {x : Except Failure α} {a : α} (h : x = .ok a) :
    (liftM x : Action α) s = (.ok a, s) := by
  rw [h]
  rfl

theorem lift_of_error {x : Except Failure α} {e : Failure} (h : x = .error e) :
    (liftM x : Action α) s = (.error e, s) := by
  rw [h]
  rfl

/-- What is found without the session succeeds exactly if there is a result, and the session stays
as it is. -/
theorem lift_eq_ok {x : Except Failure α} {a : α} :
    (liftM x : Action α) s = (.ok a, t) ↔ x = .ok a ∧ t = s := by
  constructor
  · intro h
    exact ⟨congrArg Prod.fst h, (congrArg Prod.snd h).symm⟩
  · rintro ⟨hx, rfl⟩
    exact lift_of_ok hx

/-- Only the first action of two touches the session if the second one does not need it. -/
theorem bind_lift (m : Action α) (f : α → Except Failure β) :
    (m >>= fun a => (liftM (f a) : Action β)) s = ((m s).1 >>= f, (m s).2) := by
  cases hm : m s with
  | mk result u =>
    cases result with
    | ok a => exact bind_of_ok hm
    | error e => exact bind_of_error hm

end Action

namespace Database

variable {db : Database} {s t : Session}

/-- A handle passes the check exactly if it is open. -/
theorem checkOpen_eq_ok {a : Unit} :
    db.checkOpen s = (.ok a, t) ↔ s.isOpen db.scope = true ∧ t = s := by
  rw [checkOpen]
  cases s.isOpen db.scope <;> simp [eq_comm]

/-! ## Names -/

/-- Only an open handle announces an entity, and nothing is sent. -/
theorem announce_ok {e : Entity} {a : Unit} (h : db.announce e s = (.ok a, t)) :
    s.isOpen db.scope = true ∧ t.statements = s.statements ∧ t.scripted = s.scripted ∧
      t.scopes = s.scopes := by
  simp only [announce, Action.bind_eq_ok, checkOpen_eq_ok] at h
  obtain ⟨_, u, ⟨hopen, rfl⟩, h⟩ := h
  refine ⟨hopen, ?_⟩
  cases hfirst : db.dialect.firstUse with
  | performs =>
    simp only [hfirst] at h
    cases h
    exact ⟨rfl, rfl, rfl⟩
  | ignores =>
    simp only [hfirst] at h
    cases h
    exact ⟨rfl, rfl, rfl⟩
  | fails f =>
    simp only [hfirst] at h
    cases h

/-- Failures because of tables stay failures. -/
theorem schemaFailed_ne_ok {α : Type} (es : List Entity) (f : Failure) (a : α) :
    (db.schemaFailed es f : Action α) s ≠ (.ok a, t) := by
  intro h
  cases f <;> cases h

theorem statementFailed_ne_ok {α : Type} (sql : String) (arguments : List (String × Value))
    (f : Failure) (a : α) : (db.statementFailed sql arguments f : Action α) s ≠ (.ok a, t) := by
  intro h
  cases f <;> cases h

/-- Names that a handle remembers are known in its scope. -/
theorem find?_remember {key : String} {names : EntityNames} (hopen : s.isOpen db.scope = true)
    (hnew : (s.namesIn db.scope).find? (fun n => n.1 == key) = none) :
    ((s.remember db.scope key names).namesIn db.scope).find? (fun n => n.1 == key) =
      some (key, names) := by
  rw [Session.isOpen] at hopen
  rw [Session.namesIn] at hnew ⊢
  cases hscope : s.scopes[db.scope]? with
  | none =>
    rw [hscope] at hopen
    cases hopen
  | some c =>
    rw [hscope] at hnew
    simp [Session.remember, hscope, List.find?_append, hnew]

theorem names_of_find? {e : Entity} {n : String × EntityNames}
    (h : (s.namesIn db.scope).find? (fun n => n.1 == e.key) = some n) :
    db.names e s = (.ok n.2, s) := by
  rw [names, h]

/-- Names that are known once are known from then on. Nothing is sent for them. -/
theorem names_ok {e : Entity} {known : EntityNames} (h : db.names e s = (.ok known, t)) :
    t.statements = s.statements ∧ t.scripted = s.scripted ∧
      ∀ u : Session, u.scopes = t.scopes → db.names e u = (.ok known, u) := by
  have hsame : ∀ u t : Session, u.scopes = t.scopes → u.namesIn db.scope = t.namesIn db.scope := by
    intro u t hscopes
    rw [Session.namesIn, Session.namesIn, hscopes]
  cases hfind : (s.namesIn db.scope).find? fun n => n.1 == e.key with
  | some n =>
    rw [names_of_find? hfind] at h
    cases h
    exact ⟨rfl, rfl, fun u hu => names_of_find? (by rw [hsame u s hu, hfind])⟩
  | none =>
    simp only [names, hfind, Action.bind_eq_ok, Action.onFailure_eq_ok] at h
    obtain ⟨_, u, hannounce | ⟨f, u', _, hfailed⟩, _, v, hremember, hknown⟩ := h
    -- the handle was open, so there is a scope to remember the names in
    · obtain ⟨hopen, hstatements, hscripted, hscopes⟩ := announce_ok hannounce
      cases hremember
      cases hknown
      refine ⟨hstatements, hscripted, fun w hw => ?_⟩
      refine names_of_find? (n := (e.key, _)) ?_
      rw [hsame w _ hw]
      refine find?_remember ?_ ?_
      · rw [Session.isOpen, hscopes]
        exact hopen
      · rw [hsame u s hscopes, hfind]
    · exact absurd hfailed (schemaFailed_ne_ok _ _ _)

/-- What comes of an announcement is a matter of the scopes alone, which stay as they are. -/
theorem announced_of_scopes {e : Entity} (h : s.scopes = t.scopes) :
    (Action.onFailure (db.announce e) (db.schemaFailed [e]) s).1 =
        (Action.onFailure (db.announce e) (db.schemaFailed [e]) t).1 ∧
      (Action.onFailure (db.announce e) (db.schemaFailed [e]) s).2.scopes = s.scopes := by
  have hopen : s.isOpen db.scope = t.isOpen db.scope := by
    rw [Session.isOpen, Session.isOpen, h]
  cases hcheck : t.isOpen db.scope with
  | false =>
    have hclosed : ∀ u : Session, u.isOpen db.scope = false →
        Action.onFailure (db.announce e) (db.schemaFailed [e]) u =
          (.error .transactionCompleted, u) := by
      intro u hu
      have hcheck : db.checkOpen u = (.error .transactionCompleted, u) := by simp [checkOpen, hu]
      rw [Action.onFailure, announce, Action.bind_of_error hcheck]
      rfl
    rw [hclosed s (hopen.trans hcheck), hclosed t hcheck]
    exact ⟨rfl, rfl⟩
  | true =>
    simp only [Action.onFailure, announce,
      Action.bind_of_ok (checkOpen_eq_ok (a := ()).2 ⟨hcheck, rfl⟩),
      Action.bind_of_ok (checkOpen_eq_ok (a := ()).2 ⟨hopen.trans hcheck, rfl⟩)]
    cases db.dialect.firstUse with
    | performs => exact ⟨rfl, rfl⟩
    | ignores => exact ⟨rfl, rfl⟩
    | fails f => cases f <;> exact ⟨rfl, rfl⟩

/-- The same scopes give the same names, or the same failure to find them. -/
theorem names_of_scopes {e : Entity} (h : s.scopes = t.scopes) :
    (db.names e s).1 = (db.names e t).1 := by
  have hknown : s.namesIn db.scope = t.namesIn db.scope := by
    rw [Session.namesIn, Session.namesIn, h]
  cases hfind : (t.namesIn db.scope).find? fun n => n.1 == e.key with
  | some n => rw [names_of_find? hfind, names_of_find? (hknown ▸ hfind)]
  | none =>
    have hannounced := (@announced_of_scopes db s t e h).1
    rw [names, names, hknown, hfind]
    dsimp only
    cases hs : Action.onFailure (db.announce e) (db.schemaFailed [e]) s with
    | mk r u =>
      cases ht : Action.onFailure (db.announce e) (db.schemaFailed [e]) t with
      | mk r' u' =>
        obtain rfl : r = r' := by rw [hs, ht] at hannounced; exact hannounced
        cases r with
        | ok a => rw [Action.bind_of_ok hs, Action.bind_of_ok ht]; rfl
        | error f => rw [Action.bind_of_error hs, Action.bind_of_error ht]

/-- Names that are not found leave the scopes as they are. -/
theorem scopes_of_names_error {e : Entity} {f : Failure} (h : db.names e s = (.error f, t)) :
    t.scopes = s.scopes := by
  cases hfind : (s.namesIn db.scope).find? fun n => n.1 == e.key with
  | some n =>
    rw [names_of_find? hfind] at h
    cases h
  | none =>
    have hscopes := (@announced_of_scopes db s s e rfl).2
    rw [names, hfind] at h
    dsimp only at h
    cases hs : Action.onFailure (db.announce e) (db.schemaFailed [e]) s with
    | mk r u =>
      rw [hs] at hscopes
      cases r with
      | ok a =>
        rw [Action.bind_of_ok hs] at h
        cases h
      | error f' =>
        rw [Action.bind_of_error hs] at h
        cases h
        exact hscopes

/-! ## Statements -/

/-- A statement that is answered is received once, and answered in its turn. -/
theorem receive_ok {sql : String} {params : List Value} {result : RowSet}
    (h : Action.receive sql params s = (.ok result, t)) :
    t.statements = s.statements ++ [⟨sql, params⟩] ∧ t.scopes = s.scopes ∧
      t.scripted = s.scripted.tail := by
  rw [Action.receive] at h
  cases hscripted : s.scripted with
  | nil =>
    rw [hscripted] at h
    cases h
    exact ⟨rfl, rfl, hscripted⟩
  | cons answer rest =>
    rw [hscripted] at h
    cases answer with
    | failure detail => cases h
    | rows r =>
      cases h
      exact ⟨rfl, rfl, rfl⟩

/-- A statement that succeeds was sent by an open handle, and answered in its turn. -/
theorem send_ok {statement : Template} {result : RowSet}
    (h : db.send statement s = (.ok result, t)) :
    s.isOpen db.scope = true ∧
      t.statements = s.statements ++ [statement.statement db.dialect.style] ∧
      t.scopes = s.scopes ∧ t.scripted = s.scripted.tail := by
  simp only [send, execute, Action.onFailure_eq_ok, Action.bind_eq_ok, checkOpen_eq_ok] at h
  rcases h with ⟨_, _, ⟨hopen, rfl⟩, r, u, hreceive, _, v, hreport, hresult⟩ | ⟨f, u, _, hfailed⟩
  -- the only way to succeed is through the check, the answer and the report
  · obtain ⟨hstatements, hscopes, hscripted⟩ := receive_ok hreceive
    cases hreport
    cases hresult
    exact ⟨hopen, hstatements, hscopes, hscripted⟩
  · exact absurd hfailed (statementFailed_ne_ok _ _ _ _)

/-- An open handle sends a statement, whatever the answer to it. -/
theorem statements_send (hopen : s.isOpen db.scope = true) (statement : Template) :
    (db.send statement s).2.statements =
      s.statements ++ [statement.statement db.dialect.style] := by
  have hcheck : db.checkOpen s = (.ok (), s) := checkOpen_eq_ok.2 ⟨hopen, rfl⟩
  have hreceived := Action.statements_receive (statement.sql db.dialect.style) statement.values s
  rw [send, execute, Action.onFailure, Action.bind_of_ok hcheck]
  cases hanswer : Action.receive (statement.sql db.dialect.style) statement.values s with
  | mk answer u =>
    rw [hanswer] at hreceived
    cases answer with
    | ok result =>
      rw [Action.bind_of_ok hanswer]
      exact hreceived
    | error f =>
      rw [Action.bind_of_error hanswer]
      cases f <;> exact hreceived

/-- A statement that is answered succeeds with the answer. -/
theorem send_of_receive (hopen : s.isOpen db.scope = true) {statement : Template} {answer : RowSet}
    {u : Session} (hanswer : Action.receive (statement.sql db.dialect.style) statement.values s =
      (.ok answer, u)) : ∃ t, db.send statement s = (.ok answer, t) := by
  have hcheck : db.checkOpen s = (.ok (), s) := checkOpen_eq_ok.2 ⟨hopen, rfl⟩
  simp only [send, execute, Action.onFailure_eq_ok, Action.bind_eq_ok]
  exact ⟨_, .inl ⟨(), s, hcheck, answer, _, hanswer, (), _, rfl, rfl⟩⟩

/-- The rows that are waiting are the answer to the next statement. -/
theorem send_of_rows (hopen : s.isOpen db.scope = true) {answer : RowSet} {rest : List Scripted}
    (hscripted : s.scripted = .rows answer :: rest) (statement : Template) :
    ∃ t, db.send statement s = (.ok answer, t) :=
  send_of_receive hopen (by rw [Action.receive, hscripted])

theorem send_of_silence (hopen : s.isOpen db.scope = true) (hscripted : s.scripted = [])
    (statement : Template) :
    ∃ answer t, answer.rows = [] ∧ db.send statement s = (.ok answer, t) := by
  obtain ⟨t, ht⟩ : ∃ t, db.send statement s =
      (.ok (Action.defaultAnswer (statement.sql db.dialect.style)), t) :=
    send_of_receive hopen (by rw [Action.receive, hscripted])
  refine ⟨_, t, ?_, ht⟩
  rw [Action.defaultAnswer]
  split <;> rfl

/-- A change is signalled without a statement. -/
theorem signalChange_eq : ∃ t, db.signalChange s = (.ok (), t) ∧ t.statements = s.statements ∧
    t.scripted = s.scripted ∧ t.scopes = s.scopes := by
  refine ⟨_, rfl, ?_⟩
  split <;> exact ⟨rfl, rfl, rfl⟩

end Database

namespace Store

/-- A row is read by one statement if the names of the entity are known, and is the next answer. -/
theorem findOne_of_known {st : Store} {names : EntityNames} {s : Session}
    (hnames : st.database.names st.entity s = (.ok names, s))
    (hopen : s.isOpen st.database.scope = true) {f : Filter} {statement : Template}
    (hstatement : selectStatement st.entity names f = .ok statement) (operation : String) :
    (st.findOne operation f s).2.statements =
        s.statements ++ [statement.statement st.database.dialect.style] ∧
      ∀ answer rest, s.scripted = .rows answer :: rest →
        (st.findOne operation f s).1 = decodeSingle st.entity operation answer := by
  have hrun : st.findOne operation f s =
      ((st.database.send statement s).1 >>= decodeSingle st.entity operation,
        (st.database.send statement s).2) := by
    rw [findOne, Action.bind_of_ok hnames, Action.bind_of_ok (Action.lift_of_ok hstatement)]
    exact Action.bind_lift _ _
  rw [hrun]
  refine ⟨Database.statements_send hopen statement, fun answer rest hscripted => ?_⟩
  obtain ⟨t, ht⟩ := Database.send_of_rows hopen hscripted statement
  rw [ht]
  rfl

end Store

end EntitySql
