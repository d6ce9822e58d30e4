import EntitySql.Failure
import EntitySql.Statement.RowSet
import EntitySql.Statement.Template

/-!
# Statements that are only looked at

Values can be bound to a statement that is never sent, to see its tokens or to
have the values written into its text.

- `Preview`: such a statement.
- `Preview.bind`: what is written for a value.
- `Preview.run`: the failure of every attempt to run one.
-/

namespace EntitySql

/-- A statement that is never sent. -/
inductive Preview where
  /-- Values are collected and their tokens written. -/
  | parameters (style : TokenStyle) (values : List Value)
  /-- Values are written as literals. -/
  | literals

namespace Preview

/-- Binds a value; gives what is written for it. -/
def bind : Preview → Value → Preview × String
  | .parameters style values, v =>
    (.parameters style (values ++ [v]), style.token (values.length + 1))
  | .literals, v => (.literals, v.literal)

/-- Binds values from left to right. -/
def bindAll (p : Preview) : List Value → Preview × List String
  | [] => (p, [])
  | v :: vs =>
    let (p, token) := p.bind v
    let (p, tokens) := p.bindAll vs
    (p, token :: tokens)

/-- The values collected. -/
def values : Preview → List Value
  | .parameters _ values => values
  | .literals => []

/-- A preview cannot be run. -/
def run : Preview → Except Failure RowSet
  | .parameters .. =>
    .error (.unsupportedOperation "a parameter stream cannot execute statements")
  | .literals => .error (.unsupportedOperation "a literal command cannot execute statements")

end Preview

end EntitySql
