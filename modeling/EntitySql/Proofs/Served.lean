import EntitySql.Proofs.Answers
import EntitySql.Proofs.Runs

/-!
# Served entities

Every request is about one entity, if it is about any. It looks up the names of
the entity, and what it sends is built with the names that it was given. What
happens on the way is told in events: the database was told of the entity, it
refused it, names were handed out, a statement was sent.

- `Store.Builds`: the statements that are built with given names.
- `Action.Serves`: how an action serves an entity, and `Action.Serves.events`: what
  happens on the way.
- `Operation.served`, `Database.conditionServed`: operations and conditions.
- `Database.Request.events`: the events of a request.
- `Database.Request.events_account`: they account for all that is sent and announced.
-/

namespace EntitySql

/-! ## Statements built with names -/

namespace Store

/-- A statement for an entity, built with the given names. -/
inductive Builds (e : Entity) (d : Dialect) (names : EntityNames) (t : Template) : Prop
  | count (f : Filter) (h : countStatement e names f = .ok t)
  | find (o : FindOptions) (h : findStatement e names d o = .ok t)
  | select (f : Filter) (h : selectStatement e names f = .ok t)
  | insert (data : Record) (h : insertStatement e names d data = .ok t)
  | update (identity : Record) (written : List (Field × Value))
    (h : updateStatement e names d identity written = .ok t)
  | delete (identity : Record) (h : deleteStatement e names identity = .ok t)
  | bulk (fields : List Field) (rows : List (List (Field × Value)))
    (h : bulkStatement names fields rows = .ok t)

end Store

/-! ## Fields that are missed -/

/-- The failure is about a field that the entity itself selects or writes. -/
def Failure.Misses (e : Entity) : Failure → Prop
  | .fieldNotFound _ key => ∃ f, (f ∈ e.selected ∨ f ∈ e.writable) ∧ f.key = key
  | _ => False

/-- Fields that are written are selected. -/
theorem Entity.mem_selected_of_mem_writable {e : Entity} {f : Field} (hf : f ∈ e.writable) :
    f ∈ e.selected := by
  rw [writable, List.mem_filter] at hf
  refine List.mem_filter.2 ⟨hf.1, ?_⟩
  have hwritable := hf.2
  simp only [Field.isReadOnly, Field.hasColumn, Bool.not_or, Bool.not_not, Bool.and_eq_true]
    at hwritable
  exact hwritable.1.2.1

/-- An entity misses none of its fields among its own names. -/
theorem BuildFailures.own (e : Entity) (q : Quoting) :
    BuildFailures (fun failure => ¬ failure.Misses e) e (.resolve e q) where
  plain := fun failure hplain => by cases failure <;> first | exact id | exact hplain.elim
  field := fun key => by
    rw [Entity.field, Entity.field?]
    cases hfind : e.fields.find? fun f => f.key == key with
    | some f => exact .of_ok f
    | none =>
      refine .of_error ?_
      rintro ⟨f, hf, rfl⟩
      have hselected : f ∈ e.selected := hf.elim id Entity.mem_selected_of_mem_writable
      simpa using List.find?_eq_none.1 hfind f (List.mem_filter.1 hselected).1
  column := fun key => by
    rw [EntityNames.columnOf]
    cases hfind : (EntityNames.resolve e q).columns.find? fun c => c.1 == key with
    | some c => exact .of_ok c.2
    | none =>
      refine .of_error ?_
      rintro ⟨f, hf, rfl⟩
      have hselected : f ∈ e.selected := hf.elim id Entity.mem_selected_of_mem_writable
      simpa using List.find?_eq_none.1 hfind _ (List.mem_map.2 ⟨f, hselected, rfl⟩)

/-! ## Events -/

/-- What can happen in a request, or to a scope. -/
inductive Event where
  /-- The database was told of the first use of an entity. -/
  | announced (db : Database) (e : Entity)
  /-- The database was told of the first use of an entity, and failed. -/
  | refused (db : Database) (e : Entity)
  /-- The names of an entity were handed out. -/
  | named (db : Database) (e : Entity) (names : EntityNames)
  /-- A statement was sent, for an entity or written by hand. -/
  | sent (db : Database) (about : Option Entity) (x : Statement)
  /-- A transaction was opened, with a scope of its own. -/
  | opened (db : Database) (inner : Nat)

/-- The names known under a key in a scope. -/
def Session.known? (s : Session) (scope : Nat) (key : String) : Option EntityNames :=
  ((s.namesIn scope).find? fun n => n.1 == key).map Prod.snd

/-- The events of looking up names: the database is told of an entity that is not known. -/
def Database.lookupEvents (db : Database) (e : Entity) (s : Session) : List Event :=
  match s.known? db.scope e.key with
  | some names => [.named db e names]
  | none =>
    match (db.announce e s).1 with
    | .ok _ => [.announced db e, .named db e (.resolve e db.dialect.quoting)]
    | .error _ => if s.isOpen db.scope then [.refused db e] else []

/-- The event of a statement: it is sent if the handle is open. -/
def Database.sendEvents (db : Database) (about : Option Entity) (x : Statement) (s : Session) :
    List Event :=
  if s.isOpen db.scope then [.sent db about x] else []

/-- The events of what comes after an action, if it succeeds. -/
def Action.eventsAfter {α : Type} (k : α → Session → List Event) :
    Except Failure α × Session → List Event
  | (.ok a, t) => k a t
  | (.error _, _) => []

/-- How an action serves an entity through a handle. Statements are sent once names were handed
out, and are built with them; what is found on the way misses no field of the entity if the names
are its own. -/
inductive Action.Serves (db : Database) (e : Entity) :
    Option EntityNames → {α : Type} → Action α → Type 1
  /-- Something is found out without the session. -/
  | found {known : Option EntityNames} {α : Type} (x : Except Failure α)
    (h : (∀ names ∈ known, names = .resolve e db.dialect.quoting) →
      FailsAs (fun failure => ¬ failure.Misses e) x) : Serves db e known (liftM x : Action α)
  /-- A change is signalled. -/
  | signal {known : Option EntityNames} : Serves db e known db.signalChange
  /-- Names are looked up. -/
  | named {known : Option EntityNames} {α : Type} {f : EntityNames → Action α}
    (next : ∀ names, Serves db e (some names) (f names)) : Serves db e known (db.names e >>= f)
  /-- A statement is built and sent. -/
  | asked {names : EntityNames} {α : Type} (x : Except Failure Template)
    {f : Template → RowSet → Action α}
    (h : names = .resolve e db.dialect.quoting → FailsAs (fun failure => ¬ failure.Misses e) x)
    (hbuilt : ∀ t, x = .ok t → Store.Builds e db.dialect names t)
    (next : ∀ t result, Serves db e (some names) (f t result)) :
    Serves db e (some names) ((liftM x : Action Template) >>= fun t => db.send t >>= f t)
  /-- One action after the other. -/
  | bind {known : Option EntityNames} {α β : Type} {m : Action α} {f : α → Action β}
    (first : Serves db e known m) (next : ∀ a, Serves db e known (f a)) :
    Serves db e known (m >>= f)

/-- The events of an action that serves an entity. -/
def Action.Serves.events {db : Database} {e : Entity} :
    {known : Option EntityNames} → {α : Type} → {m : Action α} → Serves db e known m →
      Session → List Event
  | _, _, _, .found _ _, _ => []
  | _, _, _, .signal, _ => []
  | _, _, _, .named next, s =>
    db.lookupEvents e s ++ Action.eventsAfter (fun names => (next names).events) (db.names e s)
  | _, _, _, .asked (.error _) _ _ _, _ => []
  | _, _, _, .asked (.ok t) _ _ next, s =>
    db.sendEvents (some e) (t.statement db.dialect.style) s ++
      Action.eventsAfter (fun result => (next t result).events) (db.send t s)
  | _, _, _, .bind (m := m) first next, s =>
    first.events s ++ Action.eventsAfter (fun a => (next a).events) (m s)

/-! ## Operations -/

namespace Action.Serves

variable {db : Database} {e : Entity} {known : Option EntityNames} {α β : Type}

/-- A result at hand. -/
def ofPure (a : α) : Serves db e known (pure a : Action α) := .found (.ok a) fun _ => .of_ok a

/-- Something is found out that is not about fields. -/
def plain (x : Except Failure α) (h : FailsAs Failure.IsPlain x) :
    Serves db e known (liftM x : Action α) :=
  .found x fun _ => h.imp (BuildFailures.own e db.dialect.quoting).plain

/-- One of two actions. -/
def ite {c : Prop} [decision : Decidable c] {m m' : Action α} (h : Serves db e known m)
    (h' : Serves db e known m') : Serves db e known (if c then m else m') :=
  match decision with
  | .isTrue _ => h
  | .isFalse _ => h'

end Action.Serves

namespace Store

open EntitySql.Action (Serves)

variable {e : Entity}

/-! ### Answers -/

theorem of_answer {α : Type} {x : Except Failure α} (hx : FailsAs Failure.IsOfAnswer x) :
    FailsAs (fun failure => ¬ failure.Misses e) x :=
  hx.imp fun failure h => by cases failure <;> first | exact h.elim | exact id

variable (st : Store) {known : Option EntityNames}

/-- A row that cannot be found again. -/
theorem insertedFilter_failsAs (data : Record) (sql : String) (result : RowSet) :
    FailsAs (fun failure => ¬ failure.Misses e) (insertedFilter st data sql result) := by
  rw [insertedFilter]
  split
  · split
    · exact .of_ok _
    · exact .of_error id
  · exact ((identityValues_failsAs _ _).imp (BuildFailures.own e .bare).plain).bind_ok

/-! ### Reading -/

/-- Rows are counted for the entity of the store. -/
def countServed (f : Filter) : Serves st.database st.entity known (st.count f) :=
  .named fun names =>
    .asked (countStatement st.entity names f)
      (fun hown => countStatement_failsAs (hown ▸ .own _ _) f) (fun _ ht => .count f ht)
      fun _ result => .found _ fun _ => of_answer (countOf_ofAnswer result)

/-- Rows are searched for the entity of the store. -/
def findServed (o : FindOptions) : Serves st.database st.entity known (st.find o) :=
  .named fun names =>
    .asked (findStatement st.entity names st.database.dialect o)
      (fun hown => findStatement_failsAs (hown ▸ .own _ _) o) (fun _ ht => .find o ht)
      fun _ result => .found _ fun _ => of_answer (decodeRows_ofAnswer result.rows)

/-- A row is read for the entity of the store. -/
def findOneServed (operation : String) (f : Filter) :
    Serves st.database st.entity known (st.findOne operation f) :=
  .named fun names =>
    .asked (selectStatement st.entity names f)
      (fun hown => selectStatement_failsAs (hown ▸ .own _ _) f) (fun _ ht => .select f ht)
      fun _ result => .found _ fun _ => of_answer (decodeSingle_ofAnswer operation result)

/-! ### Writing -/

/-- A row that was inserted is read for the entity of the store. -/
def afterInsertServed (data : Record) (sql : String) (result : RowSet) :
    Serves st.database st.entity known (st.afterInsert data sql result) :=
  .ite
    (.bind (.found _ fun _ => of_answer (decodeSingle_ofAnswer "insert" result)) fun row =>
      .bind .signal fun _ => .ofPure row)
    (.bind .signal fun _ =>
      .bind (.found _ fun _ => insertedFilter_failsAs st data sql result) fun f =>
        st.findOneServed "insert" f)

/-- A row is inserted for the entity of the store. -/
def insertServed (data : Record) : Serves st.database st.entity known (st.insert data) :=
  .named fun names =>
    .asked (insertStatement st.entity names st.database.dialect data)
      (fun hown => insertStatement_failsAs (hown ▸ .own _ _) data) (fun _ ht => .insert data ht)
      fun t result => st.afterInsertServed data (t.sql st.database.dialect.style) result

/-- A row that was updated is read for the entity of the store. -/
def afterUpdateServed (before data : Record) (result : RowSet) :
    Serves st.database st.entity known (st.afterUpdate before data result) :=
  .ite
    (.bind (.found _ fun _ => of_answer (decodeSingle_ofAnswer "update" result)) fun row =>
      .bind .signal fun _ => .ofPure row)
    (.bind (.found _ fun _ => of_answer (expectOneChanged_ofAnswer result)) fun _ =>
      .bind .signal fun _ => st.findOneServed "update" _)

/-- A row is updated for the entity of the store. -/
def updateServed (id : RowId) (data : Record) :
    Serves st.database st.entity known (st.update id data) :=
  .bind (.plain _ (identityValues_failsAs "update" id)) fun before =>
    .named fun names =>
      .bind (.plain _ (writtenValues_failsAs data false)) fun written =>
        .ite (st.findOneServed "update" _)
          (.asked (updateStatement st.entity names st.database.dialect before written)
            (fun hown => updateStatement_failsAs (hown ▸ .own _ _) before written)
            (fun _ ht => .update before written ht)
            fun _ result => st.afterUpdateServed before data result)

/-- A row is deleted for the entity of the store. -/
def deleteServed (id : RowId) : Serves st.database st.entity known (st.delete id) :=
  .bind (.plain _ (identityValues_failsAs "delete" id)) fun identity =>
    .named fun names =>
      .asked (deleteStatement st.entity names identity)
        (fun hown => deleteStatement_failsAs (hown ▸ .own _ _) identity)
        (fun _ ht => .delete identity ht) fun _ _ => .signal

/-! ### Many rows -/

/-- Rows of defaults are inserted for the entity of the store. -/
def insertDefaultsServed : ∀ rows : List Record,
    Serves st.database st.entity known (st.insertDefaults rows)
  | [] => .ofPure ()
  | _ :: rest => .bind (st.insertServed Record.empty) fun _ => insertDefaultsServed rest

/-- The rows of one statement are inserted for the entity of the store. -/
def insertChunkServed (names : EntityNames) (chunk : List Record) :
    Serves st.database st.entity (some names) (st.insertChunk names chunk) :=
  .bind (.plain _ (writtenRows_failsAs chunk)) fun rows =>
    .ite (.bind (st.insertDefaultsServed chunk) fun _ => .ofPure _)
      (.asked (bulkStatement names (bulkFields st.entity rows) rows)
        (fun hown => bulkStatement_failsAs (hown ▸ BuildFailures.own st.entity _) _ rows)
        (fun _ ht => .bulk _ rows ht) fun _ _ => .bind .signal fun _ => .ofPure _)

/-- Pieces of a list are inserted for the entity of the store. -/
def insertChunksServed (names : EntityNames) : ∀ pieces : List (List Record),
    Serves st.database st.entity (some names) (st.insertChunks names pieces)
  | [] => .ofPure 0
  | chunk :: rest =>
    .bind (st.insertChunkServed names chunk) fun _ =>
      .bind (insertChunksServed names rest) fun _ => .ofPure _

/-- Many rows are inserted for the entity of the store. -/
def bulkInsertServed (rows : List Record) :
    Serves st.database st.entity known (st.bulkInsert rows) :=
  .named fun names => st.insertChunksServed names _

end Store

/-! ## Requests -/

/-- Each operation serves the entity of its store. -/
def Operation.served (st : Store) : ∀ op : Operation,
    Action.Serves st.database st.entity none (op.perform st)
  | .count f => .bind (st.countServed f) fun _ => .ofPure _
  | .find o => .bind (st.findServed o) fun _ => .ofPure _
  | .insert data => .bind (st.insertServed data) fun _ => .ofPure _
  | .update id data => .bind (st.updateServed id data) fun _ => .ofPure _
  | .delete id => .bind (st.deleteServed id) fun _ => .ofPure _
  | .bulkInsert rows => .bind (st.bulkInsertServed rows) fun _ => .ofPure _

namespace Database

/-- The condition of a filter serves the entity, as the database stores it. -/
def conditionServed (db : Database) (e : Entity) (f : Filter) :
    Action.Serves db (db.stored e) none ((Request.condition e f).perform db) :=
  .bind
    (.named fun names =>
      .bind (.found (f.compile (db.stored e) names) fun hown =>
        f.compile_failsAs (hown names rfl ▸ .own _ _)) fun _ => .ofPure _)
    fun _ => .ofPure _

namespace Request

/-- The entity that a request is about. -/
def about (db : Database) : Request → Option Entity
  | .operate e _ => some e
  | .condition e _ => some (db.stored e)
  | .execute .. => none

/-- The events of a request. -/
def events (db : Database) : Request → Session → List Event
  | .operate e op => (op.served ⟨e, db⟩).events
  | .condition e f => (db.conditionServed e f).events
  | .execute sql params _ => db.sendEvents none ⟨sql, params⟩

/-- A request that is about an entity serves it. -/
theorem exists_served {db : Database} {r : Request} {e : Entity} (h : r.about db = some e) :
    ∃ served : Action.Serves db e none (r.perform db), r.events db = served.events := by
  cases r with
  | operate e' op =>
    cases h
    exact ⟨op.served ⟨e, db⟩, rfl⟩
  | condition e' f =>
    cases h
    exact ⟨db.conditionServed e' f, rfl⟩
  | execute sql params arguments => cases h

end Request

end Database

/-! ## What happens to a session -/

namespace Event

/-- The statement that was sent. -/
def statement? : Event → Option Statement
  | .sent _ _ x => some x
  | _ => none

/-- The entity that the database was told of, if it keeps track. -/
def firstUse? : Event → Option String
  | .announced db e =>
    match db.dialect.firstUse with
    | .performs => some e.key
    | _ => none
  | _ => none

end Event

/-- The events account for the statements that were received and the entities that were
announced. -/
structure Session.Accounts (s : Session) (new : List Event) (t : Session) : Prop where
  statements : t.statements = s.statements ++ new.filterMap Event.statement?
  firstUses : t.firstUses = s.firstUses ++ new.filterMap Event.firstUse?

namespace Session.Accounts

variable {s t u : Session} {xs ys : List Event}

theorem of_same (hstatements : t.statements = s.statements) (huses : t.firstUses = s.firstUses) :
    s.Accounts [] t where
  statements := by rw [hstatements, List.filterMap_nil, List.append_nil]
  firstUses := by rw [huses, List.filterMap_nil, List.append_nil]

theorem trans (h : s.Accounts xs t) (h' : t.Accounts ys u) : s.Accounts (xs ++ ys) u where
  statements := by
    rw [h'.statements, h.statements, List.filterMap_append, List.append_assoc]
  firstUses := by rw [h'.firstUses, h.firstUses, List.filterMap_append, List.append_assoc]

end Session.Accounts

namespace Database

variable {db : Database} {e : Entity} {s : Session}

/-- What looking up names does: they are known, or the database is told of the entity and they
are remembered, or it refuses, or the handle is closed. -/
inductive Looks (db : Database) (e : Entity) (s : Session) :
    List Event → Except Failure EntityNames → Session → Prop
  | known {names : EntityNames} (h : s.known? db.scope e.key = some names) :
    Looks db e s [.named db e names] (.ok names) s
  | settled {t : Session} (hnew : s.known? db.scope e.key = none)
    (hopen : s.isOpen db.scope = true) (hscopes : t.scopes = s.scopes)
    (htold : s.Accounts [.announced db e] t) :
    Looks db e s [.announced db e, .named db e (.resolve e db.dialect.quoting)]
      (.ok (.resolve e db.dialect.quoting))
      (t.remember db.scope e.key (.resolve e db.dialect.quoting))
  | refused {t : Session} {failure : Failure} (hnew : s.known? db.scope e.key = none)
    (hopen : s.isOpen db.scope = true) (hscopes : t.scopes = s.scopes)
    (htold : s.Accounts [.refused db e] t)
    (hfailure : db.dialect.firstUse = .fails failure ∨ ¬ failure.Misses e) :
    Looks db e s [.refused db e] (.error failure) t
  | closed (hnew : s.known? db.scope e.key = none) (hclosed : s.isOpen db.scope = false) :
    Looks db e s [] (.error .transactionCompleted) s

/-- The events of looking up names account for what it does. -/
theorem Looks.accounts {events : List Event} {r : Except Failure EntityNames} {t : Session}
    (h : db.Looks e s events r t) : s.Accounts events t := by
  cases h with
  | known _ => exact ⟨(List.append_nil _).symm, (List.append_nil _).symm⟩
  | settled _ _ _ htold => exact ⟨htold.statements, htold.firstUses⟩
  | refused _ _ _ htold _ => exact htold
  | closed _ _ => exact .of_same rfl rfl

/-- The failure of a statement is only reported. It misses no field. -/
theorem statementFailed_reports {α : Type} (db : Database) (sql : String)
    (arguments : List (String × Value)) (f : Failure) (s : Session) :
    ∃ failure t, (db.statementFailed sql arguments f : Action α) s = (.error failure, t) ∧
      t.scopes = s.scopes ∧ s.Accounts [] t ∧ ∀ e, ¬ failure.Misses e := by
  cases f <;> exact ⟨_, _, rfl, rfl, .of_same rfl rfl, fun _ => id⟩

/-- A failure because of tables is reported or passed on. -/
theorem schemaFailed_reports {α : Type} (db : Database) (es : List Entity) (f : Failure)
    (s : Session) :
    ∃ failure t, (db.schemaFailed es f : Action α) s = (.error failure, t) ∧
      t.scopes = s.scopes ∧ s.Accounts [] t ∧ (failure = f ∨ ∀ e, ¬ failure.Misses e) := by
  have hreported : ∀ f', ∃ failure t,
      (db.statementFailed (db.schemaText es) [] f' : Action α) s = (.error failure, t) ∧
        t.scopes = s.scopes ∧ s.Accounts [] t ∧ (failure = f ∨ ∀ e, ¬ failure.Misses e) := by
    intro f'
    obtain ⟨failure, t, h, hscopes, htold, hmisses⟩ :=
      statementFailed_reports (α := α) db (db.schemaText es) [] f' s
    exact ⟨failure, t, h, hscopes, htold, .inr hmisses⟩
  cases f with
  | driver detail => exact hreported (.driver detail)
  | execution detail sql params => exact hreported (.execution detail sql params)
  | _ => exact ⟨_, _, rfl, rfl, .of_same rfl rfl, .inl rfl⟩

/-- An open handle tells the database of an entity, which refuses it or not. -/
theorem announce_of_open (e : Entity) (hopen : s.isOpen db.scope = true) :
    (∃ t, db.announce e s = (.ok (), t) ∧ t.scopes = s.scopes ∧
        s.Accounts [.announced db e] t) ∨
      ∃ f, db.dialect.firstUse = .fails f ∧ db.announce e s = (.error f, s) := by
  rw [announce, Action.bind_of_ok (checkOpen_eq_ok (a := ()).2 ⟨hopen, rfl⟩)]
  cases huse : db.dialect.firstUse with
  | performs =>
    refine .inl ⟨_, rfl, rfl, (List.append_nil _).symm, ?_⟩
    rw [List.filterMap_cons_some (b := e.key) (by rw [Event.firstUse?, huse])]
    rfl
  | ignores =>
    refine .inl ⟨_, rfl, rfl, (List.append_nil _).symm, ?_⟩
    rw [List.filterMap_cons_none (by rw [Event.firstUse?, huse])]
    exact (List.append_nil _).symm
  | fails f => exact .inr ⟨f, rfl, rfl⟩

theorem names_looks (db : Database) (e : Entity) (s : Session) :
    db.Looks e s (db.lookupEvents e s) (db.names e s).1 (db.names e s).2 := by
  rw [lookupEvents]
  cases hfind : (s.namesIn db.scope).find? fun n => n.1 == e.key with
  | some n =>
    have hknown : s.known? db.scope e.key = some n.2 := by
      rw [Session.known?, hfind]
      rfl
    rw [hknown, names_of_find? hfind]
    exact .known hknown
  | none =>
    have hnew : s.known? db.scope e.key = none := by
      rw [Session.known?, hfind]
      rfl
    rw [hnew, names, hfind]
    dsimp only
    cases hopen : s.isOpen db.scope with
    | false =>
      have hannounce : db.announce e s = (.error .transactionCompleted, s) := by
        rw [announce, Action.bind_of_error (checkOpen_of_closed hopen)]
      have hfailed : Action.onFailure (db.announce e) (db.schemaFailed [e]) s =
          (.error .transactionCompleted, s) := by
        rw [Action.onFailure, hannounce]
        rfl
      rw [hannounce, Action.bind_of_error hfailed]
      exact .closed hnew hopen
    | true =>
      rcases announce_of_open e hopen with ⟨t, hannounce, hscopes, htold⟩ | ⟨f, huse, hannounce⟩
      · have hdone : Action.onFailure (db.announce e) (db.schemaFailed [e]) s = (.ok (), t) := by
          rw [Action.onFailure, hannounce]
        rw [hannounce, Action.bind_of_ok hdone]
        exact .settled hnew hopen hscopes htold
      · obtain ⟨failure, t, hreported, hscopes, htold, hfailure⟩ :=
          schemaFailed_reports (α := Unit) db [e] f s
        have hfailed : Action.onFailure (db.announce e) (db.schemaFailed [e]) s =
            (.error failure, t) := by
          rw [Action.onFailure, hannounce]
          exact hreported
        rw [hannounce, Action.bind_of_error hfailed]
        refine .refused (t := t) hnew hopen hscopes ⟨htold.statements, htold.firstUses⟩ ?_
        rcases hfailure with rfl | hmisses
        · exact .inl huse
        · exact .inr (hmisses e)

/-- A statement is sent through an open handle, and not through a closed one. What fails misses no
field. -/
theorem execute_sends (db : Database) (about : Option Entity) (sql : String) (params : List Value)
    (arguments : List (String × Value)) (s : Session) :
    ∃ r t, db.execute sql params arguments s = (r, t) ∧ t.scopes = s.scopes ∧
      s.Accounts (db.sendEvents about ⟨sql, params⟩ s) t ∧
        ∀ e, FailsAs (fun failure => ¬ failure.Misses e) r := by
  cases hopen : s.isOpen db.scope with
  | false =>
    refine ⟨_, s, execute_of_closed hopen sql params arguments, rfl, ?_, fun _ => .of_error id⟩
    rw [sendEvents, hopen]
    exact .of_same rfl rfl
  | true =>
    have hreceived : ∃ r t, Action.receive sql params s = (r, t) ∧ t.scopes = s.scopes ∧
        s.Accounts [.sent db about ⟨sql, params⟩] t := by
      rw [Action.receive]
      split <;> exact ⟨_, _, rfl, rfl, rfl, (List.append_nil _).symm⟩
    obtain ⟨r, t, hreceive, hscopes, htold⟩ := hreceived
    have hcheck : db.checkOpen s = (.ok (), s) := checkOpen_eq_ok.2 ⟨hopen, rfl⟩
    rw [sendEvents, hopen, execute, Action.onFailure, Action.bind_of_ok hcheck]
    cases r with
    | ok result =>
      rw [Action.bind_of_ok hreceive]
      exact ⟨_, _, rfl, hscopes, ⟨htold.statements, htold.firstUses⟩, fun _ => .of_ok _⟩
    | error f =>
      rw [Action.bind_of_error hreceive]
      obtain ⟨failure, u, hreported, hscopes', htold', hmisses⟩ :=
        statementFailed_reports (α := RowSet) db sql arguments f t
      refine ⟨_, u, hreported, hscopes'.trans hscopes, ?_, fun e => .of_error (hmisses e)⟩
      simpa using htold.trans htold'

theorem send_sends (db : Database) (about : Option Entity) (x : Template) (s : Session) :
    ∃ r t, db.send x s = (r, t) ∧ t.scopes = s.scopes ∧
      s.Accounts (db.sendEvents about (x.statement db.dialect.style) s) t ∧
        ∀ e, FailsAs (fun failure => ¬ failure.Misses e) r :=
  db.execute_sends about (x.sql db.dialect.style) x.values (x.arguments db.dialect.style) s

end Database

namespace Action

variable {α β : Type}

/-- Events of two actions in sequence, for anything that can be said of one session and the next. -/
theorem events_bind {R : Session → List Event → Session → Prop}
    (htrans : ∀ {s t u xs ys}, R s xs t → R t ys u → R s (xs ++ ys) u) {m : Action α}
    {f : α → Action β} {k : α → Session → List Event} {s : Session} {xs : List Event}
    (hm : R s xs (m s).2) (hf : ∀ a t, m s = (.ok a, t) → R t (k a t) (f a t).2) :
    R s (xs ++ eventsAfter k (m s)) ((m >>= f) s).2 := by
  cases hresult : m s with
  | mk result t =>
    rw [hresult] at hm
    cases result with
    | error failure =>
      rw [bind_of_error hresult, eventsAfter, List.append_nil]
      exact hm
    | ok a =>
      rw [bind_of_ok hresult, eventsAfter]
      exact htrans hm (hf a t hresult)

namespace Serves

variable {db : Database} {e : Entity} {known : Option EntityNames} {m : Action α}

/-- The events of an action account for what it does. -/
theorem accounts (served : Serves db e known m) (s : Session) :
    s.Accounts (served.events s) (m s).2 := by
  induction served generalizing s with
  | found x h => exact .of_same rfl rfl
  | signal =>
    rw [events, Database.signalChange, Action.update]
    split <;> exact .of_same rfl rfl
  | named next ih =>
    exact events_bind .trans (db.names_looks e s).accounts fun names t _ => ih names t
  | asked x h hbuilt next ih =>
    cases x with
    | error failure =>
      rw [bind_of_error (lift_of_error rfl)]
      exact .of_same rfl rfl
    | ok t =>
      rw [bind_of_ok (lift_of_ok rfl)]
      refine events_bind .trans ?_ fun result u _ => ih t result u
      obtain ⟨r, u, hsend, -, htold, -⟩ := db.send_sends (some e) t s
      rw [hsend]
      exact htold
  | bind first next ihfirst ihnext =>
    exact events_bind .trans (ihfirst s) fun a t _ => ihnext a t

end Serves

end Action

/-- A statement that was written by hand leaves the session as any statement does. -/
theorem Database.Request.perform_execute (db : Database) (sql : String) (params : List Value)
    (arguments : List (String × Value)) (s : Session) :
    ((Request.execute sql params arguments).perform db s).2 =
      (db.execute sql params arguments s).2 := by
  rw [perform]
  cases hresult : db.execute sql params arguments s with
  | mk result t =>
    cases result with
    | ok rows =>
      rw [Action.bind_of_ok hresult]
      rfl
    | error failure => rw [Action.bind_of_error hresult]

/-- The events of a request account for all that it sends and announces. -/
theorem Database.Request.events_account (db : Database) (r : Request) (s : Session) :
    s.Accounts (r.events db s) (r.perform db s).2 := by
  cases r with
  | operate e op => exact (op.served ⟨e, db⟩).accounts s
  | condition e f => exact (db.conditionServed e f).accounts s
  | execute sql params arguments =>
    obtain ⟨r, t, hsend, -, htold, -⟩ := db.execute_sends none sql params arguments s
    rw [perform_execute, hsend]
    exact htold

end EntitySql
