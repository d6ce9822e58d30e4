import EntitySql.Failure
import EntitySql.Identifier
import EntitySql.Statement.Template

/-!
# Dialects

Databases differ in how they write tokens and names, in what they can do, and
in how a page of a result is asked for. A dialect holds these differences; the
rest of the library asks for nothing else about a database.

- `Capabilities`, `Dialect`: the differences.
- `Dialect.named?`: the dialects of common databases.
- `Dialect.limitText`: the clause that asks for a page.
-/

namespace EntitySql

/-- What a database can do. -/
structure Capabilities where
  /-- `insert` and `update` can give the rows they write. -/
  returning : Bool
  /-- There is a type of columns for documents. -/
  jsonColumns : Bool
  /-- The place of NULL in an order has to be said, so that it is the smallest value. -/
  nullsFirst : Bool
deriving DecidableEq, Repr

/-- How a page of a result is asked for. -/
inductive LimitForm where
  /-- `limit … offset …` -/
  | limitOffset
  /-- `offset … rows fetch next … rows only` -/
  | offsetFetch
deriving DecidableEq, Repr

/-- What a database does when it is told of entities or of the end of its use. -/
inductive Lifecycle where
  /-- It does its part. -/
  | performs
  /-- It takes no notice. -/
  | ignores
  /-- It fails. -/
  | fails (failure : Failure)

/-- How a database differs from others. -/
structure Dialect where
  style : TokenStyle
  quoting : Quoting
  capabilities : Capabilities
  limitForm : LimitForm
  /-- The first use of an entity. -/
  firstUse : Lifecycle
  /-- The creation of tables on demand. -/
  schema : Lifecycle
  /-- The end of use. -/
  finish : Lifecycle
  /-- Changes of rows are counted. -/
  countsMutations : Bool

namespace Dialect

/-- A dialect with bare names, `?` for tokens and rows returned from changes. -/
def plain : Dialect :=
  { style := .question, quoting := .bare, capabilities := ⟨true, false, false⟩
    limitForm := .limitOffset, firstUse := .performs, schema := .performs
    finish := .performs, countsMutations := true }

/-- The quote of MySQL names. -/
def backtick : Char := Char.ofNat 0x60

/-- Names in double quotes, rows returned from changes. -/
def sqlite : Dialect := { plain with quoting := .delimited '"' }

/-- Numbered tokens, columns for documents, and NULL the largest value unless told otherwise. -/
def postgres : Dialect :=
  { plain with
    style := .dollar, quoting := .delimited '"', capabilities := ⟨true, true, true⟩ }

/-- Columns for documents, but no rows returned from changes. -/
def mysql : Dialect :=
  { plain with quoting := .delimited backtick, capabilities := ⟨false, true, false⟩ }

/-- The dialect of the given name, in letters of any size. -/
def named? (name : String) : Option Dialect :=
  let name := String.ofList (name.toList.map Char.toLower)
  if name = "sqlite" then some sqlite
  else if name = "postgres" ∨ name = "postgresql" then some postgres
  else if name = "mysql" then some mysql
  else none

/-- A database with the tokens and capabilities of another one and nothing else of it. -/
def bareOf (d : Dialect) : Dialect :=
  { plain with
    style := d.style, capabilities := d.capabilities, schema := .ignores
    countsMutations := false }

/-- The clause that asks for `limit` rows after the first `offset`. -/
def limitText (d : Dialect) (limit offset : Nat) : String :=
  match d.limitForm with
  | .limitOffset => s!"limit {limit} offset {offset}"
  | .offsetFetch => s!"offset {offset} rows fetch next {limit} rows only"

end Dialect

end EntitySql
