import EntitySql.Decimal.Layout
import EntitySql.Failure
import EntitySql.Statement.Kind

/-!
# The log of statements

A database can report the statements that it ran, in full, on one line each,
or to a callback of the application, and always reports the ones that failed.
Fast statements can be left out.

- `LogConfig`: what is reported.
- `LogEvent`: a report.
- `argumentsJson`: the arguments of a statement as a document.
- `oneLine`: a statement on one line.
-/

namespace EntitySql

/-- A span of time. -/
structure Elapsed where
  seconds : Nat
  nanos : Nat
deriving DecidableEq, Repr

namespace Elapsed

/-- No time. -/
def zero : Elapsed := ⟨0, 0⟩

/-- One span is no longer than another. -/
def atMost (a b : Elapsed) : Bool :=
  a.seconds * 1000000000 + a.nanos ≤ b.seconds * 1000000000 + b.nanos

/-- The span in seconds with three places. -/
def text (t : Elapsed) : String :=
  fixedPlaces 3 (Float.ofNat t.seconds + Float.ofNat t.nanos / Float.ofNat 1000000000)

end Elapsed

/-- How statements are reported. -/
inductive LogMode where
  /-- Not at all. -/
  | off
  /-- With their text and arguments. -/
  | full
  /-- On one line. -/
  | oneLine
  /-- To a callback of the application. -/
  | custom
deriving DecidableEq, Repr

/-- What is reported. -/
structure LogConfig where
  mode : LogMode
  /-- Statements that take less time are left out. -/
  threshold : Elapsed
deriving DecidableEq, Repr

namespace LogConfig

/-- Nothing is reported. -/
def off : LogConfig := ⟨.off, .zero⟩

/-- Anything is reported. -/
def isEnabled (c : LogConfig) : Bool := c.mode != .off

end LogConfig

/-- A report of a statement. -/
inductive LogEvent where
  /-- A statement was run. -/
  | done (mode : LogMode) (sql : String) (arguments : List (String × Value))
  /-- A statement failed. -/
  | failed (sql : String) (arguments : List (String × Value)) (detail : String)

/-- The texts are pairwise distinct. -/
def allDistinct : List String → Bool
  | [] => true
  | s :: rest => !rest.contains s && allDistinct rest

/-- The arguments of a statement: an object if their tokens tell them apart, else a list. -/
def argumentsJson (arguments : List (String × Value)) : Json :=
  if allDistinct (arguments.map Prod.fst) then
    .ofMembers (arguments.map fun a => (a.1, a.2.toJson))
  else .array (arguments.map fun a => a.2.toJson)

/-- The signs for the first words of statements. -/
def statementIcons : List (String × String) :=
  [("INSERT", "⚪"), ("SELECT", "🔵"), ("UPDATE", "🟣"), ("DELETE", "🟤"), ("CREATE", "🟩"),
   ("ALTER", "🟨"), ("DROP", "🟥"), ("TRUNCATE", "⬛"), ("GRANT", "🟪"), ("REVOKE", "🟫")]

/-- The sign for a statement. -/
def statementIcon (sql : String) : String :=
  match statementIcons.find? fun i => i.1 == leadingKeyword sql with
  | some i => i.2
  | none => "💢"

/-- A text without the blanks around it, and with one space for each run of blanks inside. -/
def collapsed (sql : String) : String := String.ofList (Text.collapse (Text.trim sql.toList))

/-- A statement on one line: its sign, the time it took, its text and its arguments. -/
def oneLine (elapsed sql : String) (arguments : List (String × Value)) : String :=
  let text := collapsed sql
  statementIcon text ++ " (" ++ elapsed ++ ") " ++ text ++ " " ++ (argumentsJson arguments).compact

namespace LogConfig

/-- The reports of a statement that was run. -/
def reportDone (c : LogConfig) (elapsed : Elapsed) (sql : String)
    (arguments : List (String × Value)) : List LogEvent :=
  if c.isEnabled && c.threshold.atMost elapsed then [.done c.mode sql arguments] else []

/-- The reports of a statement that failed. -/
def reportFailed (c : LogConfig) (sql : String) (arguments : List (String × Value))
    (failure : Failure) : List LogEvent :=
  if c.isEnabled then [.failed sql arguments failure.message] else []

end LogConfig

end EntitySql
