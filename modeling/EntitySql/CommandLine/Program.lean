import EntitySql.CommandLine.Options
import EntitySql.Entity.Definition.Reader
import EntitySql.Filter.Document
import EntitySql.Store.Operations

/-!
# The program

The program shows statements without a database: it performs what it was asked
for on a session in which nothing waits, and prints the last statement that
was received.

- `Request.perform`: the text that is asked for.
- `Program.run`: what a call of the program prints, and its exit code.
-/

namespace EntitySql

/-- Why the program has nothing to print. -/
structure Complaint where
  message : String
  /-- What lies behind it. -/
  cause : Option String
deriving DecidableEq, Repr

namespace Complaint

/-- The complaint of a failed operation. -/
def ofFailure (f : Failure) : Complaint := ⟨f.message, none⟩

/-- The complaint on one line. -/
def line (c : Complaint) : String :=
  match c.cause with
  | none => c.message
  | some cause => c.message ++ ": " ++ cause

/-- The complaint as the program prints it. -/
def text (c : Complaint) : String :=
  "Error: " ++ c.message ++ "\n" ++
    match c.cause with
    | none => ""
    | some cause => "\nCaused by:\n    " ++ cause ++ "\n"

end Complaint

/-- A result, or the complaint of a failed operation. -/
def orComplain {α : Type} : Except Failure α → Except Complaint α
  | .ok a => .ok a
  | .error f => .error (.ofFailure f)

/-- The document in an option. -/
def documentOption (name text : String) : Except Complaint Json :=
  match Json.read text with
  | .ok j => .ok j
  | .error fault => .error ⟨"--" ++ name ++ " is not valid JSON", some fault.message⟩

/-- The filter in an option. -/
def filterOption (text : String) : Except Complaint Filter := do
  orComplain (Filter.ofJson (← documentOption "filter" text))

/-- The order in an option. -/
def orderOption (text : String) : Except Complaint RowOrder := do
  orComplain (RowOrder.ofJson (← documentOption "sort" text))

/-- An option that may be absent. -/
def optionally {α : Type} (read : String → Except Complaint α) :
    Option String → Except Complaint (Option α)
  | none => .ok none
  | some text => do .ok (some (← read text))

/-- A statement as the program prints it, with its parameters on a line of their own. -/
def Statement.shown (s : Statement) : String :=
  if s.params.isEmpty then s.sql
  else s.sql ++ "\n-- params: " ++ (Json.array (s.params.map Value.toJson)).compact

/-- The last statement that a session received. -/
def lastShown (s : Session) : Except Complaint String :=
  match s.statements.getLast? with
  | some statement => .ok statement.shown
  | none => .error ⟨"no statement was produced", none⟩

/-- The last statement that an action sends. -/
def shownAfter {α : Type} (action : Action α) (start : Session) : Except Complaint String :=
  match action start with
  | (.ok _, s) => lastShown s
  | (.error f, _) => .error (.ofFailure f)

/-- A session in which a count waits. -/
def countingSession : Session :=
  Session.fresh.expect (.rows ⟨["count"], [[.integer 0]], none, none⟩)

/-- The dialect of the given name. -/
def dialectOption (name : String) : Except Complaint Dialect :=
  match Dialect.named? name with
  | some d => .ok d
  | none =>
    .error ⟨"unknown dialect '" ++ name ++ "' (expected sqlite, postgres or mysql)", none⟩

/-- The text that is asked for. -/
def Request.perform (r : Request) (e : Entity) (dialect : String) : Except Complaint String := do
  let d ← dialectOption dialect
  let db := Database.root d .off
  match r with
  | .find filter order limit page => do
    let filter ← optionally filterOption filter
    let order ← optionally orderOption order
    shownAfter ((db.store e).find ⟨filter, order, limit, page⟩) Session.fresh
  | .count filter => do
    let filter ← optionally filterOption filter
    shownAfter ((db.store e).count (filter.getD Filter.everything)) countingSession
  | .condition filter => do
    let filter ← filterOption filter
    orComplain (db.filterText e filter Session.fresh).1
  | .schema => shownAfter (db.ensureSchema [e]) Session.fresh

/-- The entity that a text defines. -/
def readEntity (text : String) : Except Failure Entity := do
  (← EntityDefinition.read text).toEntity

/-- What a call of the program leaves behind. -/
structure Outcome where
  code : Nat
  stdout : String
  stderr : String
deriving DecidableEq, Repr

namespace Program

/-- What the program prints for a command line that is not written as it should be. -/
def usage : String :=
  "usage: --entity FILE [--dialect sqlite|postgres|mysql] find|count|where|schema [options]\n"

/-- The text of a definition, or why its file cannot be read. -/
def definitionText (file : Option String) (read : String → Except String String) :
    Except Complaint String :=
  match file with
  | none => .error ⟨"--entity <FILE> is required", none⟩
  | some file =>
    match read file with
    | .ok text => .ok text
    | .error cause =>
      .error ⟨"Failed to read entity definition '" ++ file ++ "'", some cause⟩

/-- The text that a call asks for; `read` gives the text of a file, or why there is none. -/
def result (call : Invocation) (read : String → Except String String) :
    Except Complaint String := do
  let text ← definitionText call.file read
  let e ← orComplain (readEntity text)
  call.request.perform e call.dialect

/-- What a call of the program leaves behind. -/
def run (args : List String) (read : String → Except String String) : Outcome :=
  match Invocation.parse? args with
  | none => ⟨2, "", usage⟩
  | some call =>
    match result call read with
    | .ok text => ⟨0, text ++ "\n", ""⟩
    | .error complaint => ⟨1, "", complaint.text⟩

end Program

end EntitySql
