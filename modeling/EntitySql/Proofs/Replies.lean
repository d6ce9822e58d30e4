import EntitySql.Proofs.Preparation

/-!
# Replies

Which reply a statement gets is settled before it is sent: each statement
takes the next answer that is waiting, and one for which none is waiting is
answered as its words say. So the replies to the statements of an operation
can be read off the session in which the operation starts.

- `Session.reply?`: the reply to a statement, by the number of statements
  before it.
- `Session.answered`: the statements that are not refused.
- `Database.Executes`: all that a handle can do with a statement.
- `Store.updateCount`: whether an update comes to send its statement.
-/

namespace EntitySql

namespace Session

/-- The reply to a statement that comes after the given number of others; none if the database
refuses the statement. -/
def reply? (s : Session) (before : Nat) (x : Statement) : Option RowSet :=
  match s.scripted[before]? with
  | some (.rows result) => some result
  | some (.failure _) => none
  | none => some (Action.defaultAnswer x.sql)

/-- The statements that are not refused, of those that come after the given number of others. -/
def answered (s : Session) : (before : Nat) → List Statement → List Statement
  | _, [] => []
  | before, x :: xs =>
    match s.reply? before x with
    | some _ => x :: s.answered (before + 1) xs
    | none => s.answered (before + 1) xs

variable {P : Statement → Prop} {s t : Session} {xs : List Statement}

/-- After some statements, the replies to the next ones are the later ones of those before. -/
theorem Exchanged.reply?_eq (h : Exchanged P s t xs) (before : Nat) (x : Statement) :
    t.reply? before x = s.reply? (xs.length + before) x := by
  rw [reply?, reply?, h.scripted, List.getElem?_drop]

/-- After some statements, the same ones of the next statements are refused as before. -/
theorem Exchanged.answered_eq (h : Exchanged P s t xs) :
    ∀ (ys : List Statement) (before : Nat),
      t.answered before ys = s.answered (xs.length + before) ys
  | [], _ => rfl
  | y :: ys, before => by
    rw [answered, answered, h.reply?_eq, h.answered_eq ys, Nat.add_assoc]

/-- The statements that are not refused, of two groups in sequence. -/
theorem answered_append (s : Session) (ys : List Statement) :
    ∀ (xs : List Statement) (before : Nat), s.answered before (xs ++ ys) =
      s.answered before xs ++ s.answered (before + xs.length) ys
  | [], _ => rfl
  | x :: xs, before => by
    have hrest := answered_append s ys xs (before + 1)
    rw [List.length_cons, Nat.add_comm xs.length, ← Nat.add_assoc]
    rw [List.cons_append, answered, answered, hrest]
    cases s.reply? before x <;> rfl

/-- The statements that are not refused are among those that are sent. -/
theorem answered_sublist (s : Session) : ∀ (xs : List Statement) (before : Nat),
    (s.answered before xs).Sublist xs
  | [], _ => .slnil
  | x :: xs, before => by
    have hrest := answered_sublist s xs (before + 1)
    rw [answered]
    split
    · exact hrest.cons_cons x
    · exact hrest.cons x

end Session

namespace Database

variable {db : Database} {s : Session}

/-- What a handle does with a statement: nothing if it is closed; else the statement is sent, and
what comes of it is the reply or the failure of a refusal. No change is signalled. -/
inductive Executes (db : Database) (x : Statement) (s : Session) :
    Except Failure RowSet × Session → Prop
  | closed (h : s.isOpen db.scope = false) : Executes db x s (.error .transactionCompleted, s)
  | answered {result : RowSet} {t : Session} (hreply : s.reply? 0 x = some result)
    (hsent : s.Exchanged (fun _ => True) t [x]) (hsignals : t.mutations = s.mutations) :
    Executes db x s (.ok result, t)
  | refused {failure : Failure} {t : Session} (hreply : s.reply? 0 x = none)
    (hsent : s.Exchanged (fun _ => True) t [x]) (hsignals : t.mutations = s.mutations)
    (hkind : failure.kind = .execution) : Executes db x s (.error failure, t)

/-- A statement that is received takes its reply, and signals no change. -/
theorem receive_eq (sql : String) (params : List Value) (s : Session) :
    (match s.reply? 0 ⟨sql, params⟩ with
      | some result => (Action.receive sql params s).1 = .ok result
      | none => ∃ detail, (Action.receive sql params s).1 = .error (.driver detail)) ∧
      (Action.receive sql params s).2.mutations = s.mutations := by
  rw [Action.receive, Session.reply?]
  cases s.scripted with
  | nil => exact ⟨rfl, rfl⟩
  | cons answer rest =>
    cases answer with
    | rows result => exact ⟨rfl, rfl⟩
    | failure detail => exact ⟨⟨detail, rfl⟩, rfl⟩

theorem executes (db : Database) (sql : String) (params : List Value)
    (arguments : List (String × Value)) (s : Session) :
    Executes db ⟨sql, params⟩ s (db.execute sql params arguments s) := by
  cases hopen : s.isOpen db.scope with
  | false =>
    rw [execute_of_closed hopen]
    exact .closed hopen
  | true =>
    have hsent : s.Exchanged (fun _ => True) (db.execute sql params arguments s).2
        [⟨sql, params⟩] :=
      execute_of_open hopen arguments trivial
    obtain ⟨hreply, hsignals⟩ := receive_eq sql params s
    rw [execute, Action.onFailure, Action.bind_of_ok (checkOpen_eq_ok (a := ()).2 ⟨hopen, rfl⟩)]
      at hsent ⊢
    cases hanswer : Action.receive sql params s with
    | mk answer u =>
      rw [hanswer] at hreply hsignals
      cases hfound : s.reply? 0 ⟨sql, params⟩ with
      | some result =>
        rw [hfound] at hreply
        cases hreply
        rw [Action.bind_of_ok hanswer] at hsent ⊢
        exact .answered hfound hsent hsignals
      | none =>
        rw [hfound] at hreply
        obtain ⟨detail, hdetail⟩ := hreply
        cases hdetail
        rw [Action.bind_of_error hanswer] at hsent ⊢
        exact .refused hfound hsent hsignals rfl

theorem sends (db : Database) (t : Template) (s : Session) :
    Executes db (t.statement db.dialect.style) s (db.send t s) :=
  executes db _ _ _ s

/-- A signal is no statement, and leaves the scopes as they are. -/
theorem signalChange_exchanged (P : Statement → Prop) (db : Database) (s : Session) :
    ∃ t, db.signalChange s = (.ok (), t) ∧ s.Exchanged P t [] ∧ t.scopes = s.scopes := by
  obtain ⟨t, ht, hstatements, hscripted, hscopes⟩ : ∃ t, db.signalChange s = (.ok (), t) ∧ _ :=
    signalChange_eq
  exact ⟨t, ht, .of_same hstatements hscripted (by rw [hscopes]), hscopes⟩

end Database

/-- How many changes an update sends: none if there is nothing to write. -/
def Store.updateCount (e : Entity) (data : Record) : Nat :=
  match writtenValues e data false with
  | .ok (_ :: _) => 1
  | _ => 0

end EntitySql
