import EntitySql.Proofs.Exchange
import EntitySql.Proofs.Structural

/-!
# Through a handle

All that operations do to a session goes through a handle: they look up names,
send statements and signal changes, one after the other, and what they find out
in between does not touch the session. What follows from that alone holds of
every operation.

- `Action.Through`: actions that reach the session through one handle only.
- `Action.Through.exchanges`: statements are received one by one, each of them
  takes the answer that is waiting, and no scope opens or closes.
- `Action.Through.closed`: what is left of an action when its handle is closed.
-/

namespace EntitySql

/-- An action that reaches the session through a handle only and sends statements with a property.
Unless something was sent already, all that it finds out by itself are structural failures, and
it signals no change. -/
inductive Action.Through (db : Database) (P : Statement → Prop) :
    Bool → {α : Type} → Action α → Prop
  /-- Something is found out without the session. -/
  | found {sent : Bool} {α : Type} {x : Except Failure α}
    (h : sent = false → FailsStructurally x) : Through db P sent (liftM x : Action α)
  /-- The names of an entity are looked up. -/
  | names {sent : Bool} (e : Entity) : Through db P sent (db.names e)
  /-- A change is signalled. -/
  | signal : Through db P true db.signalChange
  /-- A statement is sent, and something is done with the answer. -/
  | execute {sent : Bool} {α : Type} {sql : String} {params : List Value}
    {arguments : List (String × Value)} {f : RowSet → Action α} (hsent : P ⟨sql, params⟩)
    (hf : ∀ result, Through db P true (f result)) :
    Through db P sent (db.execute sql params arguments >>= f)
  /-- One action after the other. -/
  | bind {sent : Bool} {α β : Type} {m : Action α} {f : α → Action β} (hm : Through db P sent m)
    (hf : ∀ a s t, m s = (.ok a, t) → Through db P sent (f a)) : Through db P sent (m >>= f)

/-! ## What happens through an open handle -/

/-- From one session to another one statements with a property were received, each of them took
the answer that was waiting for it, and no scope was opened or closed. -/
structure Session.Exchanged (P : Statement → Prop) (s t : Session) (xs : List Statement) :
    Prop where
  statements : t.statements = s.statements ++ xs
  property : ∀ x ∈ xs, P x
  scripted : t.scripted = s.scripted.drop xs.length
  scopes : t.scopes.map Scope.isOpen = s.scopes.map Scope.isOpen

namespace Session.Exchanged

variable {P : Statement → Prop} {s t u : Session} {xs ys : List Statement}

theorem of_same (hstatements : t.statements = s.statements) (hscripted : t.scripted = s.scripted)
    (hscopes : t.scopes.map Scope.isOpen = s.scopes.map Scope.isOpen) : Exchanged P s t [] where
  statements := by rw [hstatements, List.append_nil]
  property := fun _ hx => nomatch hx
  scripted := hscripted
  scopes := hscopes

protected theorem refl (s : Session) : Exchanged P s s [] := of_same rfl rfl rfl

protected theorem trans (h : Exchanged P s t xs) (h' : Exchanged P t u ys) :
    Exchanged P s u (xs ++ ys) where
  statements := by rw [h'.statements, h.statements, List.append_assoc]
  property := fun x hx => (List.mem_append.1 hx).elim (h.property x) (h'.property x)
  scripted := by rw [h'.scripted, h.scripted, List.drop_drop, List.length_append]
  scopes := h'.scopes.trans h.scopes

/-- The same scopes are open. -/
theorem isOpen_eq (h : Exchanged P s t xs) (scope : Nat) : t.isOpen scope = s.isOpen scope := by
  have hscope := congrArg (fun l => l[scope]?) h.scopes
  simp only [List.getElem?_map] at hscope
  rw [Session.isOpen, Session.isOpen]
  cases ht : t.scopes[scope]? <;> cases hs : s.scopes[scope]? <;> simp [ht, hs] at hscope ⊢
  exact hscope

theorem length_eq (h : Exchanged P s t xs) : t.scopes.length = s.scopes.length := by
  simpa using congrArg List.length h.scopes

end Session.Exchanged

namespace Database

variable {db : Database} {P : Statement → Prop}

/-- The check fails at a closed handle. -/
theorem checkOpen_of_closed {s : Session} (hclosed : s.isOpen db.scope = false) :
    db.checkOpen s = (.error .transactionCompleted, s) := by
  rw [checkOpen, hclosed]
  rfl

/-- An announcement leaves statements, answers and scopes as they are. -/
theorem announce_exchanged (e : Entity) (s : Session) :
    Session.Exchanged P s (db.announce e s).2 [] := by
  rw [announce]
  cases hopen : s.isOpen db.scope with
  | false =>
    rw [Action.bind_of_error (checkOpen_of_closed hopen)]
    exact .refl s
  | true =>
    rw [Action.bind_of_ok (checkOpen_eq_ok (a := ()).2 ⟨hopen, rfl⟩)]
    cases db.dialect.firstUse <;> exact .of_same rfl rfl rfl

/-- Names that are remembered neither open nor close a scope. -/
theorem remember_exchanged (s : Session) (scope : Nat) (key : String) (names : EntityNames) :
    Session.Exchanged P s (s.remember scope key names) [] := by
  refine .of_same rfl rfl (List.ext_getElem? fun i => ?_)
  simp only [Session.remember, List.getElem?_map, List.getElem?_modify]
  cases s.scopes[i]? with
  | none => rfl
  | some c => by_cases h : scope = i <;> simp [h]

/-- What happens to a session when names are looked up: nothing if they are known; else the entity
is announced, and then the names are remembered or the failure is reported. -/
theorem names_session {R : Session → Prop} (e : Entity) (s : Session) (hknown : R s)
    (hsettled : ∀ names, R ((db.announce e s).2.remember db.scope e.key names))
    (hfailed : ∀ failure, R (db.schemaFailed [e] failure (db.announce e s).2 :
      Except Failure Unit × Session).2) : R (db.names e s).2 := by
  rw [names]
  split
  · exact hknown
  · cases hresult : db.announce e s with
    | mk result t =>
      rw [hresult] at hsettled hfailed
      cases result with
      | ok a =>
        rw [Action.bind_of_ok (a := a) (t := t) (by rw [Action.onFailure, hresult])]
        exact hsettled _
      | error failure =>
        obtain ⟨⟨f, hf⟩, -⟩ := schemaFailed_refuses (α := Unit) db [e] failure t
        have honFailure : Action.onFailure (db.announce e) (db.schemaFailed [e]) s =
            (.error f, (db.schemaFailed [e] failure t : Except Failure Unit × Session).2) := by
          rw [Action.onFailure, hresult, ← hf]
        rw [Action.bind_of_error honFailure]
        exact hfailed failure

/-- Names are found without a statement. -/
theorem names_exchanged (e : Entity) (s : Session) :
    Session.Exchanged P s (db.names e s).2 [] := by
  have hannounce : Session.Exchanged P s (db.announce e s).2 [] := announce_exchanged e s
  refine names_session (R := fun t => Session.Exchanged P s t []) e s (.refl s) (fun names => ?_)
    fun failure => ?_
  · exact hannounce.trans (remember_exchanged _ _ _ _)
  · -- a failure because of tables is only reported
    obtain ⟨-, hstatements, hscripted, hscopes⟩ :=
      schemaFailed_refuses (α := Unit) db [e] failure (db.announce e s).2
    exact hannounce.trans (.of_same hstatements hscripted (by rw [hscopes]))

/-- A closed handle sends nothing. -/
theorem execute_of_closed {s : Session} (hclosed : s.isOpen db.scope = false) (sql : String)
    (params : List Value) (arguments : List (String × Value)) :
    db.execute sql params arguments s = (.error .transactionCompleted, s) := by
  rw [execute, Action.onFailure, Action.bind_of_error (checkOpen_of_closed hclosed)]
  rfl

/-- An open handle sends a statement, which takes the answer that is waiting. -/
theorem execute_of_open {s : Session} (hopen : s.isOpen db.scope = true) {sql : String}
    {params : List Value} (arguments : List (String × Value)) (hsent : P ⟨sql, params⟩) :
    Session.Exchanged P s (db.execute sql params arguments s).2 [⟨sql, params⟩] := by
  have hreceived : ∀ (t : Session), t.statements = s.statements ++ [⟨sql, params⟩] →
      t.scripted = s.scripted.drop 1 → t.scopes = s.scopes →
      Session.Exchanged P s t [⟨sql, params⟩] := fun t hstatements hscripted hscopes =>
    ⟨hstatements, fun x hx => List.mem_singleton.1 hx ▸ hsent, hscripted, by rw [hscopes]⟩
  rw [execute, Action.onFailure, Action.bind_of_ok (checkOpen_eq_ok (a := ()).2 ⟨hopen, rfl⟩)]
  cases hscripted : s.scripted with
  | nil =>
    have hanswer : Action.receive sql params s =
        (.ok (Action.defaultAnswer sql), s.record sql params) := by
      rw [Action.receive, hscripted]
    rw [Action.bind_of_ok hanswer]
    exact hreceived _ rfl (by rw [hscripted]; exact hscripted) rfl
  | cons answer rest =>
    cases answer with
    | rows result =>
      have hanswer : Action.receive sql params s =
          (.ok result, { s.record sql params with scripted := rest }) := by
        rw [Action.receive, hscripted]
      rw [Action.bind_of_ok hanswer]
      exact hreceived _ rfl (by rw [hscripted]; rfl) rfl
    | failure detail =>
      have hanswer : Action.receive sql params s =
          (.error (.driver detail), { s.record sql params with scripted := rest }) := by
        rw [Action.receive, hscripted]
      rw [Action.bind_of_error hanswer]
      exact hreceived _ rfl (by rw [hscripted]; rfl) rfl

/-- A statement is received if the handle is open, and nothing happens otherwise. -/
theorem execute_exchanged {sql : String} {params : List Value}
    {arguments : List (String × Value)} (hsent : P ⟨sql, params⟩) (s : Session) :
    ∃ xs, Session.Exchanged P s (db.execute sql params arguments s).2 xs := by
  cases hopen : s.isOpen db.scope with
  | false => exact ⟨[], by rw [execute_of_closed hopen]; exact .refl s⟩
  | true => exact ⟨_, execute_of_open hopen arguments hsent⟩

end Database

namespace Action.Through

variable {db : Database} {P : Statement → Prop} {sent : Bool} {α β : Type}

/-- Actions in sequence exchange what each of them does. -/
theorem exchanged_bind {m : Action α} {f : α → Action β} {s : Session}
    (hm : ∃ xs, Session.Exchanged P s (m s).2 xs)
    (hf : ∀ a t, m s = (.ok a, t) → ∃ xs, Session.Exchanged P t (f a t).2 xs) :
    ∃ xs, Session.Exchanged P s ((m >>= f) s).2 xs := by
  obtain ⟨xs, hxs⟩ := hm
  cases hresult : m s with
  | mk result t =>
    rw [hresult] at hxs
    cases result with
    | error failure =>
      rw [Action.bind_of_error hresult]
      exact ⟨xs, hxs⟩
    | ok a =>
      obtain ⟨ys, hys⟩ := hf a t hresult
      rw [Action.bind_of_ok hresult]
      exact ⟨xs ++ ys, hxs.trans hys⟩

/-- Through a handle statements are sent one by one, each of them takes the answer that is waiting
for it, and no scope is opened or closed. -/
theorem exchanges {m : Action α} (h : Through db P sent m) (s : Session) :
    ∃ xs, Session.Exchanged P s (m s).2 xs := by
  induction h generalizing s with
  | found _ => exact ⟨[], .refl s⟩
  | names e => exact ⟨[], Database.names_exchanged e s⟩
  | signal =>
    obtain ⟨t, ht, hstatements, hscripted, hscopes⟩ : ∃ t, db.signalChange s = (.ok (), t) ∧ _ :=
      Database.signalChange_eq
    rw [ht]
    exact ⟨[], .of_same hstatements hscripted (by rw [hscopes])⟩
  | execute hsent _ ih =>
    exact exchanged_bind (Database.execute_exchanged hsent s) fun result t _ => ih result t
  | bind _ _ ihm ihf => exact exchanged_bind (ihm s) fun a t hresult => ihf a s t hresult t

end Action.Through

/-! ## What is left through a closed handle -/

/-- The session with a scope open again. -/
def Session.reopened (s : Session) (scope : Nat) : Session :=
  { s with scopes := s.scopes.modify scope fun c => { c with isOpen := true } }

/-- The same names are known in a scope that is open again. -/
theorem Session.namesIn_reopened (s : Session) (scope : Nat) :
    (s.reopened scope).namesIn scope = s.namesIn scope := by
  rw [namesIn, namesIn, reopened, List.getElem?_modify_eq]
  cases s.scopes[scope]? <;> rfl

/-- What is left of an action at a closed handle: it fails because the transaction is over, or
does without the session what it would do at an open handle. Nothing happens to the session. -/
def Action.IsDead {α : Type} (m : Action α) (s : Session) (scope : Nat) : Prop :=
  m s = (.error .transactionCompleted, s) ∨
    ∃ r, FailsStructurally r ∧ m s = (r, s) ∧ m (s.reopened scope) = (r, s.reopened scope)

/-- Names are known already, or cannot be found. -/
theorem Database.names_isDead {db : Database} (e : Entity) {s : Session}
    (hclosed : s.isOpen db.scope = false) : (db.names e).IsDead s db.scope := by
  cases hfind : (s.namesIn db.scope).find? fun n => n.1 == e.key with
  | some n =>
    refine .inr ⟨.ok n.2, FailsAs.of_ok _, names_of_find? hfind, names_of_find? ?_⟩
    rw [Session.namesIn_reopened, hfind]
  | none =>
    left
    have hannounce : db.announce e s = (.error .transactionCompleted, s) := by
      rw [announce, Action.bind_of_error (checkOpen_of_closed hclosed)]
    have hfailed : Action.onFailure (db.announce e) (db.schemaFailed [e]) s =
        (.error .transactionCompleted, s) := by
      rw [Action.onFailure, hannounce]
      rfl
    rw [names, hfind]
    exact Action.bind_of_error hfailed

/-- An action through a closed handle is dead unless it has sent something before. -/
theorem Action.Through.closed {db : Database} {P : Statement → Prop} {sent : Bool} {α : Type}
    {m : Action α} (h : Through db P sent m) (hsent : sent = false) {s : Session}
    (hclosed : s.isOpen db.scope = false) : m.IsDead s db.scope := by
  induction h with
  | found h => exact .inr ⟨_, h hsent, rfl, rfl⟩
  | names e => exact Database.names_isDead e hclosed
  | signal => cases hsent
  | execute => exact .inl (Action.bind_of_error (Database.execute_of_closed hclosed _ _ _))
  | bind _ _ ihm ihf =>
    rcases ihm hsent with hm | ⟨r, hr, hm, hreopened⟩
    · exact .inl (Action.bind_of_error hm)
    · cases r with
      | error failure =>
        exact .inr ⟨.error failure, FailsAs.of_error (hr failure rfl),
          Action.bind_of_error hm, Action.bind_of_error hreopened⟩
      | ok a =>
        rw [IsDead, Action.bind_of_ok hm, Action.bind_of_ok hreopened]
        exact ihf a _ _ hm hsent

end EntitySql
