import EntitySql.Proofs.FirstUses
import EntitySql.Proofs.Templates

/-!
# Names of their own

Names are kept by the key of an entity. An entity that comes after another one
of the same key is given the names of that one: the table and the columns of
another entity, which may lack fields of its own.

- `Database.namesFor`: the names that a request is given.
- `Event.Uses`: events in which an entity is served with given names.
- `Action.Serves.uses`: whatever is done for an entity is done with these names.
- `Session.Trace.names_of_requests`: which names they are, after any run, and
  what follows for entities that are given their own.
-/

namespace EntitySql

/-! ## The table of a statement -/

namespace Store

/-- What stands before the table in a statement. -/
inductive Head : String → Prop
  | count : Head "select count(*) as count from "
  | select (columns : String) : Head ("select " ++ columns ++ " from ")
  | insert : Head "insert into "
  | update : Head "update "
  | delete : Head "delete from "

/-- The template is for a table: its first piece is a text with the table after its head. -/
def IsFor (table : String) (t : Template) : Prop :=
  ∃ head after rest, Head head ∧ t = .text (head ++ table ++ after) :: rest

/-- The text that inserts into columns, with the table apart. -/
theorem insertHead_eq (names : EntityNames) (columns : List String) :
    insertHead names columns =
      "insert into " ++ names.table ++
        (" (" ++ String.intercalate ", " columns ++ ") values ") := by
  have hassoc : ∀ a b c d : String, a ++ b ++ c ++ d = a ++ (b ++ c ++ d) := by
    intro a b c d
    rw [String.append_assoc, String.append_assoc, String.append_assoc]
  exact hassoc _ _ _ _

theorem Builds.isFor {e : Entity} {d : Dialect} {names : EntityNames} {t : Template}
    (h : Builds e d names t) : IsFor names.table t := by
  cases h with
  | count f h =>
    obtain ⟨clause, -, rfl⟩ := countStatement_eq_ok.1 h
    exact ⟨_, "", clause, .count, by rw [String.append_empty]⟩
  | find o h =>
    obtain ⟨columns, -, clause, -, order, -, page, -, rfl⟩ := findStatement_eq_ok.1 h
    exact ⟨_, "", _, .select columns, by rw [String.append_empty]; rfl⟩
  | select f h =>
    obtain ⟨clause, -, columns, -, rfl⟩ := selectStatement_eq_ok.1 h
    exact ⟨_, "", clause, .select columns, by rw [String.append_empty]⟩
  | insert data h =>
    obtain ⟨written, -, _, ⟨-, rfl⟩ | ⟨-, columns, -, rfl⟩, returning, -, rfl⟩ :=
      insertStatement_eq_ok.1 h
    · exact ⟨_, " default values", returning, .insert, rfl⟩
    · exact ⟨_, _, _, .insert, congrArg (Piece.text · :: _) (insertHead_eq names columns)⟩
  | update identity written h =>
    obtain ⟨columns, -, clause, -, returning, -, rfl⟩ := updateStatement_eq_ok.1 h
    exact ⟨_, _, _, .update, rfl⟩
  | delete identity h =>
    obtain ⟨clause, -, rfl⟩ := deleteStatement_eq_ok.1 h
    exact ⟨_, "", clause, .delete, by rw [String.append_empty]⟩
  | bulk fields rows h =>
    obtain ⟨columns, -, rfl⟩ := bulkStatement_eq_ok.1 h
    exact ⟨_, _, _, .insert, congrArg (Piece.text · :: _) (insertHead_eq names columns)⟩

end Store

/-! ## The names of a request -/

/-- The names that a request for an entity is given: those that are known under its key, or else
its own. -/
def Database.namesFor (db : Database) (e : Entity) (s : Session) : EntityNames :=
  (s.known? db.scope e.key).getD (.resolve e db.dialect.quoting)

/-- The event is one in which an entity is served with the given names. -/
def Event.Uses (db : Database) (e : Entity) (names : EntityNames) (m : Event) : Prop :=
  m = .announced db e ∨ m = .refused db e ∨ m = .named db e names ∨
    ∃ t, Store.Builds e db.dialect names t ∧ m = .sent db (some e) (t.statement db.dialect.style)

namespace Database

variable {db : Database} {e : Entity} {s t : Session}

/-- The same scopes give the same names. -/
theorem namesFor_of_scopes (h : t.scopes = s.scopes) : db.namesFor e t = db.namesFor e s := by
  rw [namesFor, namesFor, Session.known?_of_scopes h]

/-- What is known is what a request is given. -/
theorem namesFor_of_known {names : EntityNames} (h : s.known? db.scope e.key = some names) :
    db.namesFor e s = names := by
  rw [namesFor, h, Option.getD_some]

theorem namesFor_of_new (h : s.known? db.scope e.key = none) :
    db.namesFor e s = .resolve e db.dialect.quoting := by
  rw [namesFor, h, Option.getD_none]

/-- Looking up names gives the names of the request, and leaves them as they are. -/
theorem Looks.uses {new : List Event} {r : Except Failure EntityNames} (h : db.Looks e s new r t) :
    (∀ m ∈ new, m.Uses db e (db.namesFor e s)) ∧ db.namesFor e t = db.namesFor e s ∧
      (∀ names, r = .ok names → names = db.namesFor e s) ∧
        FailsAs (fun failure => db.dialect.firstUse = .fails failure ∨ ¬ failure.Misses e) r := by
  cases h with
  | @known names hknown =>
    rw [namesFor_of_known hknown]
    refine ⟨List.forall_mem_singleton.2 (.inr (.inr (.inl rfl))), rfl, ?_, .of_ok _⟩
    rintro _ ⟨⟩
    rfl
  | settled hnew hopen hscopes _ =>
    rw [namesFor_of_new hnew]
    refine ⟨?_, ?_, ?_, .of_ok _⟩
    · exact List.forall_mem_cons.2 ⟨.inl rfl,
        List.forall_mem_singleton.2 (.inr (.inr (.inl rfl)))⟩
    · refine namesFor_of_known ?_
      rw [Session.known?_remember hscopes hopen hnew, if_pos ⟨rfl, rfl⟩]
    · rintro _ ⟨⟩
      rfl
  | refused _ _ hscopes _ hfailure =>
    refine ⟨List.forall_mem_singleton.2 (.inr (.inl rfl)), namesFor_of_scopes hscopes, ?_,
      .of_error hfailure⟩
    rintro _ ⟨⟩
  | closed _ _ =>
    refine ⟨List.forall_mem_nil _, rfl, ?_, .of_error (.inr id)⟩
    rintro _ ⟨⟩

end Database

/-! ## What is done with them -/

namespace Action

variable {α β : Type} {db : Database} {e : Entity} {s : Session}

/-- Whatever is done for an entity from a session is done with the given names, which stay those
of a request; if they are the entity's own, none of its fields is missed. -/
structure UsesNames (db : Database) (e : Entity) (names : EntityNames) (new : List Event)
    (outcome : Except Failure α × Session) : Prop where
  uses : ∀ m ∈ new, m.Uses db e names
  stays : db.namesFor e outcome.2 = names
  fails : names = .resolve e db.dialect.quoting →
    FailsAs (fun failure => db.dialect.firstUse = .fails failure ∨ ¬ failure.Misses e) outcome.1

/-- One action after the other: the second one starts in a session of its own, in which a request
is given the same names. -/
theorem UsesNames.bind {m : Action α} {f : α → Action β} {k : α → Session → List Event}
    {xs : List Event} (hm : UsesNames db e (db.namesFor e s) xs (m s))
    (hf : ∀ a t, m s = (.ok a, t) → db.namesFor e t = db.namesFor e s →
      UsesNames db e (db.namesFor e t) (k a t) (f a t)) :
    UsesNames db e (db.namesFor e s) (xs ++ eventsAfter k (m s)) ((m >>= f) s) := by
  cases hresult : m s with
  | mk result t =>
    rw [hresult] at hm
    cases result with
    | error failure =>
      rw [bind_of_error hresult, eventsAfter, List.append_nil]
      exact ⟨hm.uses, hm.stays, fun hown => .of_error (hm.fails hown failure rfl)⟩
    | ok a =>
      rw [bind_of_ok hresult, eventsAfter]
      have hnext := hf a t hresult hm.stays
      rw [hm.stays] at hnext
      exact ⟨List.forall_mem_append.2 ⟨hm.uses, hnext.uses⟩, hnext.stays, hnext.fails⟩

theorem usesNames_send {x : Template}
    (hbuilt : Store.Builds e db.dialect (db.namesFor e s) x) :
    UsesNames db e (db.namesFor e s)
      (db.sendEvents (some e) (x.statement db.dialect.style) s) (db.send x s) := by
  obtain ⟨r, u, hsend, hscopes, -, hfails⟩ := db.send_sends (some e) x s
  rw [hsend]
  refine ⟨?_, Database.namesFor_of_scopes hscopes, fun _ => (hfails e).imp fun _ => .inr⟩
  rw [Database.sendEvents]
  split
  · exact List.forall_mem_singleton.2 (.inr (.inr (.inr ⟨x, hbuilt, rfl⟩)))
  · exact List.forall_mem_nil _

/-- What serves an entity does so with the names of the request. -/
theorem Serves.uses {known : Option EntityNames} {m : Action α} (served : Serves db e known m)
    (hknown : ∀ names ∈ known, names = db.namesFor e s) :
    UsesNames db e (db.namesFor e s) (served.events s) (m s) := by
  induction served generalizing s with
  | found x h =>
    refine ⟨List.forall_mem_nil _, rfl, fun hown => ?_⟩
    exact (h fun names hnames => (hknown names hnames).trans hown).imp fun _ => .inr
  | signal =>
    obtain ⟨t, ht, -, -, hscopes⟩ : ∃ t, db.signalChange s = (.ok (), t) ∧ _ :=
      Database.signalChange_eq
    rw [ht]
    exact ⟨List.forall_mem_nil _, Database.namesFor_of_scopes hscopes, fun _ => .of_ok _⟩
  | named next ih =>
    obtain ⟨huses, hstays, hnames, hfails⟩ := (db.names_looks e s).uses
    refine .bind ⟨huses, hstays, fun _ => hfails⟩ fun names t hresult hsame => ih names ?_
    rintro _ ⟨⟩
    rw [hsame]
    exact hnames names (congrArg Prod.fst hresult)
  | @asked names _ x f h hbuilt next ih =>
    have hnames := hknown names rfl
    cases x with
    | error failure =>
      rw [bind_of_error (lift_of_error rfl)]
      exact ⟨List.forall_mem_nil _, rfl,
        fun hown => .of_error (.inr (h (hnames.trans hown) failure rfl))⟩
    | ok t =>
      rw [bind_of_ok (lift_of_ok rfl)]
      refine (usesNames_send (hnames ▸ hbuilt t rfl)).bind fun result v hresult hsame =>
        ih t result ?_
      rintro _ ⟨⟩
      exact hnames.trans hsame.symm
  | bind first next ihfirst ihnext =>
    exact (ihfirst hknown).bind fun a t hresult hsame =>
      ihnext a fun names hnames => (hknown names hnames).trans hsame.symm

end Action

/-- A request that is about an entity uses the names that it is given. -/
theorem Database.Request.uses {db : Database} {r : Request} {e : Entity}
    (habout : r.about db = some e) (s : Session) :
    Action.UsesNames db e (db.namesFor e s) (r.events db s) (r.perform db s) := by
  obtain ⟨served, hevents⟩ := exists_served habout
  rw [hevents]
  exact served.uses nofun

/-! ## After any run -/

namespace Event

variable {events : List Event} {scope : Nat} {e : Entity} {q q' : Quoting}

/-- All that is known in a scope under the key of an entity are the entity's own names: no entity of
the same key that has other names was announced first. -/
def KnowsOwn (events : List Event) (scope : Nat) (e : Entity) (q : Quoting) : Prop :=
  ∀ first, Settled events scope first q → first.key = e.key →
    EntityNames.resolve first q = .resolve e q

/-- If the event is an announcement, names are quoted in the given way. -/
def QuotesAs (q : Quoting) : Event → Prop
  | .announced db _ => db.dialect.quoting = q
  | _ => True

/-- Names are quoted as they were when the entity was announced. -/
theorem Settled.quoting_eq (h : Settled events scope e q')
    (hq : ∀ m ∈ events, m.QuotesAs q) : q' = q := by
  induction h with
  | announced db e => exact hq _ (List.mem_append_right _ List.mem_cons_self)
  | inherited _ ih => exact ih fun m hmem => hq m (List.mem_append_left _ hmem)
  | later _ ih => exact ih fun m hmem => hq m (List.mem_append_left _ hmem)

end Event

namespace Session

variable {s : Session} {events : List Event} {q : Quoting} {db : Database} {e : Entity}

/-- The names that a request is given after a run: the entity's own, or those of the entity of the
same key that was announced first. -/
theorem Trace.namesFor_eq (h : Trace events s)
    (hq : ∀ m ∈ events, m.QuotesAs q) (hdb : db.dialect.quoting = q) :
    (¬ Event.Knows events db.scope e.key ∧ db.namesFor e s = .resolve e q) ∨
      ∃ first, Event.Settled events db.scope first q ∧ first.key = e.key ∧
        db.namesFor e s = .resolve first q := by
  have hagrees := h.agrees.1
  cases hknown : s.known? db.scope e.key with
  | none => exact .inl ⟨hagrees.not_knows hknown, hdb ▸ Database.namesFor_of_new hknown⟩
  | some names =>
    obtain ⟨first, q', hsettled, hkey, hnames⟩ := hagrees.known hknown
    obtain rfl := hsettled.quoting_eq hq
    exact .inr ⟨first, hsettled, hkey, (Database.namesFor_of_known hknown).trans hnames⟩

/-- They are the entity's own exactly if no entity of the same key and with other names was
announced first. -/
theorem Trace.namesFor_eq_resolve_iff (h : Trace events s)
    (hq : ∀ m ∈ events, m.QuotesAs q) (hdb : db.dialect.quoting = q) :
    db.namesFor e s = .resolve e q ↔ Event.KnowsOwn events db.scope e q := by
  constructor
  · intro hown first hsettled hkey
    have hknown := h.agrees.1.settled hsettled
    rw [hkey] at hknown
    exact (Database.namesFor_of_known hknown).symm.trans hown
  · intro hown
    rcases h.namesFor_eq hq hdb with ⟨-, hnames⟩ | ⟨first, hsettled, hkey, hnames⟩
    · exact hnames
    · exact hnames.trans (hown first hsettled hkey)

/-- Whatever a request does for an entity after a run, it does with one set of names: the entity's
own, or those of an entity of the same key that was announced first through the scope, or known to
its parent. They are its own exactly if no entity of the same key with other names came first. Then
the statements are for the table of the entity, and the request fails for none of its fields unless
the database refuses the entity so. (The handles of a run belong to one database, so that all of
them quote names in one way.) -/
theorem Trace.names_of_requests (h : Trace events s) (hq : ∀ m ∈ events, m.QuotesAs q)
    (hdb : db.dialect.quoting = q) {r : Database.Request} (habout : r.about db = some e) :
    ∃ names, (∀ m ∈ r.events db s, m.Uses db e names) ∧
      (names = .resolve e q ∨ ∃ first, Event.Settled events db.scope first q ∧
        first.key = e.key ∧ names = .resolve first q) ∧
      (names = .resolve e q ↔ Event.KnowsOwn events db.scope e q) ∧
      (Event.KnowsOwn events db.scope e q →
        (∀ about x, .sent db about x ∈ r.events db s → ∃ t, Store.IsFor (q.wrap e.table) t ∧
          x = t.statement db.dialect.style) ∧
        FailsAs (fun failure => db.dialect.firstUse = .fails failure ∨ ¬ failure.Misses e)
          (r.perform db s).1) := by
  have huses := Database.Request.uses habout s
  refine ⟨db.namesFor e s, huses.uses, ?_, h.namesFor_eq_resolve_iff hq hdb, fun hknows => ?_⟩
  · exact (h.namesFor_eq hq hdb).imp And.right id
  · have hown := (h.namesFor_eq_resolve_iff hq hdb).2 hknows
    refine ⟨fun about x hmem => ?_, huses.fails (hdb ▸ hown)⟩
    rcases huses.uses _ hmem with heq | heq | heq | ⟨t, hbuilt, heq⟩
    · cases heq
    · cases heq
    · cases heq
    · cases heq
      rw [hown] at hbuilt
      exact ⟨t, hbuilt.isFor, rfl⟩

/-! ### Two entities of one key -/

/-- Tasks, and the tasks of old with a note, under the same key. -/
def tasks : Entity :=
  { key := "Task", table := "tasks", fields := [.ofType "id" .integer], identity := ["id"] }
def archive : Entity :=
  { key := "Task", table := "archive", fields := [.ofType "id" .integer, .ofType "note" .text]
    identity := ["id"] }

/-- The session after tasks were counted. -/
def usedTasks : Session :=
  ((Database.Request.operate tasks (.count .everything)).perform outerHandle fresh).2

/-- The entries of a ledger are searched under their own names after tasks were counted. -/
theorem names_of_requests_ledger :
    let find : Database.Request := .operate ledger (.find default)
    (∀ m ∈ find.events outerHandle usedTasks,
        m.Uses outerHandle ledger (.resolve ledger .bare)) ∧
      ∃ x, .sent outerHandle (some ledger) x ∈ find.events outerHandle usedTasks := by
  intro find
  have htrace : Trace [.announced outerHandle tasks,
      .named outerHandle tasks (.resolve tasks .bare),
      .sent outerHandle (some tasks) ⟨"select count(*) as count from tasks", []⟩] usedTasks :=
    .step .fresh (.request outerHandle (.operate tasks (.count .everything)))
  have hquoting : outerHandle.dialect.quoting = .bare := rfl
  have habout : find.about outerHandle = some ledger := rfl
  obtain ⟨names, huses, -, hown, -⟩ := htrace.names_of_requests
    (List.forall_mem_cons.2 ⟨hquoting, List.forall_mem_cons.2 ⟨trivial,
      List.forall_mem_singleton.2 trivial⟩⟩) hquoting habout
  have hnames : names = .resolve ledger .bare := by
    refine hown.2 fun first hsettled hkey => ?_
    -- nothing is known under the key of the entries yet
    have hknown := htrace.agrees.1.settled hsettled
    rw [hkey] at hknown
    cases hknown
  subst hnames
  refine ⟨huses, ⟨"select id from ledger order by id", []⟩, ?_⟩
  exact List.mem_cons_of_mem _ (List.mem_cons_of_mem _ List.mem_cons_self)

/-- Tasks of old are counted in the table of tasks once tasks were counted, and their notes are not
found. -/
theorem archive_uses_names_of_tasks :
    Entity.build "Task" (some "tasks") [.ofType "id" .integer] [] = .ok tasks ∧
      Entity.build "Task" (some "archive") [.ofType "id" .integer, .ofType "note" .text] [] =
        .ok archive ∧
      (∃ events, Trace events usedTasks) ∧
      ((Database.Request.operate archive (.count .everything)).perform outerHandle
        usedTasks).2.statements.map Statement.sql =
          ["select count(*) as count from tasks", "select count(*) as count from tasks"] ∧
      ((Database.Request.operate archive (.find default)).perform outerHandle usedTasks).1 =
        .error (.fieldNotFound "Task" "note") ∧
      (Failure.fieldNotFound "Task" "note").Misses archive := by
  refine ⟨rfl, rfl, ⟨_, .step .fresh (.request outerHandle (.operate tasks (.count .everything)))⟩,
    rfl, rfl, .ofType "note" .text, .inl ?_, rfl⟩
  exact List.mem_cons_of_mem _ List.mem_cons_self

end Session

end EntitySql
