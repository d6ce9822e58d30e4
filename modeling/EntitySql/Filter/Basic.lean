import EntitySql.Value.Basic

/-!
# Filters

A filter says which rows of an entity are wanted, in terms of its fields and
of application values. Tests on single fields are combined by *and*, *or* and
*not*; a raw filter adds SQL text of its own.

- `Filter`: filters.
- `RawPart`: the steps that write the text of a raw filter.
- `Filter.everything`, `Filter.andAlso`: the filter that all rows pass, and
  the rows of two filters in common.
-/

namespace EntitySql

/-- How a field is compared with a value. -/
inductive CompareOp where
  | eq
  | ne
  | lt
  | lte
  | gt
  | gte
deriving DecidableEq, Repr

/-- The operator in a statement. -/
def CompareOp.sql : CompareOp → String
  | .eq => "="
  | .ne => "<>"
  | .lt => "<"
  | .lte => "<="
  | .gt => ">"
  | .gte => ">="

/-- How a field is matched with a text. -/
inductive MatchMode where
  | contains
  | notContains
  | startsWith
  | endsWith
deriving DecidableEq, Repr

/-- A step in writing the text of a raw filter. Values are numbered from zero in the order in
which they are bound; the token of a value may be written any number of times. -/
inductive RawPart where
  /-- SQL text as it is. -/
  | text (s : String)
  /-- Binds a value and writes its token. -/
  | param (v : Value)
  /-- Binds a value and writes nothing. -/
  | bind (v : Value)
  /-- Writes the token of an earlier value. -/
  | reuse (index : Nat)
  /-- Writes the text that stands for a field. -/
  | column (key : String)
  /-- Writes the table. -/
  | table
  /-- Waits for other work. -/
  | wait
  /-- Gives up. -/
  | fail (detail : String)

/-- Which rows are wanted. -/
inductive Filter where
  /-- The field compares with the value. -/
  | compare (field : String) (op : CompareOp) (value : Value)
  /-- The field is, or is not, one of the values. -/
  | among (field : String) (negated : Bool) (values : List Value)
  /-- The field matches the text. -/
  | matching (field : String) (mode : MatchMode) (pattern : String)
  /-- All of the filters hold. -/
  | and (filters : List Filter)
  /-- One of the filters holds. -/
  | or (filters : List Filter)
  /-- The filter does not hold. -/
  | not (filter : Filter)
  /-- SQL text. -/
  | raw (parts : List RawPart)

namespace Filter

/-- All rows are wanted. -/
def everything : Filter := .and []

/-- The rows that pass both filters. A conjunction on the left takes the right filter in, and
two conjunctions become one. -/
def andAlso : Filter → Filter → Filter
  | .and fs, .and gs => .and (fs ++ gs)
  | .and fs, g => .and (fs ++ [g])
  | f, g => .and [f, g]

end Filter

end EntitySql
