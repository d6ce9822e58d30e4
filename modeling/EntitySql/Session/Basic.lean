import EntitySql.Entity.Table
import EntitySql.Log
import EntitySql.Statement.RowSet

/-!
# Sessions

A session is a database as its users see it: the statements it has received,
the answers it will give next, what it was told of entities and changes, and
the scopes in which names are known. The first scope lasts as long as the
session; each transaction has one of its own, which closes when it ends.

Everything that happens to a session is an action: a function from a session
to a result and the session afterwards. An action that fails keeps what it has
done so far.

- `Session`: the state.
- `Action`: what happens to it.
- `Action.receive`: the database receives a statement and answers it.
-/

namespace EntitySql

/-- A statement as the database received it. -/
structure Statement where
  sql : String
  params : List Value

/-- An answer that is waiting for its statement. -/
inductive Scripted where
  | rows (result : RowSet)
  | failure (detail : String)

/-- Names of entities that are known as long as a transaction lasts. -/
structure Scope where
  /-- Statements can still be sent. -/
  isOpen : Bool
  /-- The names settled so far, by the key of the entity. -/
  names : List (String × EntityNames)

/-- A database as its users see it. -/
structure Session where
  /-- The statements received, in their order. -/
  statements : List Statement
  /-- The answers to come, in their order. -/
  scripted : List Scripted
  /-- The entities whose first use was announced, in their order. -/
  firstUses : List String
  /-- How many changes were signalled. -/
  mutations : Nat
  /-- How long the database takes for a statement, by the number of statements up to it. -/
  durations : Nat → Elapsed
  /-- The reports of statements, in their order. -/
  log : List LogEvent
  /-- The scopes, each at the place of its number. -/
  scopes : List Scope

instance : Inhabited Session := ⟨⟨[], [], [], 0, fun _ => .zero, [], []⟩⟩

namespace Session

/-- A session in which nothing has happened, and nothing will take any time. -/
def fresh : Session := ⟨[], [], [], 0, fun _ => .zero, [], [⟨true, []⟩]⟩

/-- Statements can be sent in a scope. -/
def isOpen (s : Session) (scope : Nat) : Bool :=
  match s.scopes[scope]? with
  | some c => c.isOpen
  | none => false

/-- The names known in a scope. -/
def namesIn (s : Session) (scope : Nat) : List (String × EntityNames) :=
  match s.scopes[scope]? with
  | some c => c.names
  | none => []

/-- A statement is received. -/
def record (s : Session) (sql : String) (params : List Value) : Session :=
  { s with statements := s.statements ++ [⟨sql, params⟩] }

/-- How long the database took for the statement that it received last. -/
def elapsed (s : Session) : Elapsed := s.durations s.statements.length

/-- Statements are reported. -/
def report (s : Session) (events : List LogEvent) : Session := { s with log := s.log ++ events }

/-- The names of an entity are known in a scope from now on. -/
def remember (s : Session) (scope : Nat) (key : String) (names : EntityNames) : Session :=
  { s with scopes := s.scopes.modify scope fun c => { c with names := c.names ++ [(key, names)] } }

/-- A new scope in which the names of another one are known; its number is the number of
scopes before. -/
def openScope (s : Session) (parent : Nat) : Session :=
  { s with scopes := s.scopes ++ [⟨true, s.namesIn parent⟩] }

/-- The end of a scope. -/
def closeScope (s : Session) (scope : Nat) : Session :=
  { s with scopes := s.scopes.modify scope fun c => { c with isOpen := false } }

/-- Statements received and answers to come are forgotten. -/
def clear (s : Session) : Session := { s with statements := [], scripted := [] }

/-- An answer is added to those to come. -/
def expect (s : Session) (answer : Scripted) : Session :=
  { s with scripted := s.scripted ++ [answer] }

/-! ### Scopes -/

/-- A new scope is open. -/
theorem isOpen_openScope (s : Session) (parent : Nat) :
    (s.openScope parent).isOpen s.scopes.length = true := by
  simp [openScope, isOpen]

/-- A new scope leaves the ones before it as they are. -/
theorem isOpen_openScope_of_lt (s : Session) (parent : Nat) {scope : Nat}
    (h : scope < s.scopes.length) : (s.openScope parent).isOpen scope = s.isOpen scope := by
  simp [openScope, isOpen, List.getElem?_append_left h]

/-- A scope that has ended is closed. -/
theorem isOpen_closeScope (s : Session) (scope : Nat) :
    (s.closeScope scope).isOpen scope = false := by
  cases h : s.scopes[scope]? <;> simp [closeScope, isOpen, h]

/-- The end of a scope leaves the others as they are. -/
theorem isOpen_closeScope_of_ne (s : Session) {scope other : Nat} (h : scope ≠ other) :
    (s.closeScope scope).isOpen other = s.isOpen other := by
  simp [closeScope, isOpen, h]

end Session

/-- What happens to a session: a result, and the session afterwards. -/
def Action (α : Type) := Session → Except Failure α × Session

namespace Action

variable {α β : Type}

/-- Nothing happens. -/
protected def pure (a : α) : Action α := fun s => (.ok a, s)

/-- One action after the other; the second one is left out if the first one fails. -/
protected def bind (m : Action α) (f : α → Action β) : Action β := fun s =>
  match m s with
  | (.ok a, s) => f a s
  | (.error e, s) => (.error e, s)

instance : Monad Action where
  pure := Action.pure
  bind := Action.bind

/-- An action that succeeds hands its result and its session on. -/
theorem bind_of_ok {m : Action α} {f : α → Action β} {s t : Session} {a : α}
    (h : m s = (.ok a, t)) : (m >>= f) s = f a t := by
  change Action.bind m f s = f a t
  simp [Action.bind, h]

/-- Nothing comes after an action that fails. -/
theorem bind_of_error {m : Action α} {f : α → Action β} {s t : Session} {e : Failure}
    (h : m s = (.error e, t)) : (m >>= f) s = (.error e, t) := by
  change Action.bind m f s = (.error e, t)
  simp [Action.bind, h]

/-- The action fails. -/
def fail (f : Failure) : Action α := fun s => (.error f, s)

/-- A result that was found without the session. -/
def ofExcept (r : Except Failure α) : Action α := fun s => (r, s)

instance : MonadLift (Except Failure) Action := ⟨ofExcept⟩

/-- The session changes. -/
def update (f : Session → Session) : Action Unit := fun s => (.ok (), f s)

/-- What is done when an action fails. -/
def onFailure (m : Action α) (handle : Failure → Action α) : Action α := fun s =>
  match m s with
  | (.ok a, s) => (.ok a, s)
  | (.error f, s) => handle f s

/-- The answer to a statement for which none is waiting. -/
def defaultAnswer (sql : String) : RowSet :=
  if returnsRows sql then RowSet.empty else RowSet.oneChanged

/-- The database receives a statement and answers it. -/
def receive (sql : String) (params : List Value) : Action RowSet := fun s =>
  match s.scripted with
  | .rows result :: rest => (.ok result, { s.record sql params with scripted := rest })
  | .failure detail :: rest =>
    (.error (.driver detail), { s.record sql params with scripted := rest })
  | [] => (.ok (defaultAnswer sql), s.record sql params)

/-- A statement is received once, whatever the answer to it. -/
theorem statements_receive (sql : String) (params : List Value) (s : Session) :
    (receive sql params s).2.statements = s.statements ++ [⟨sql, params⟩] := by
  unfold receive
  split <;> rfl

end Action

end EntitySql
