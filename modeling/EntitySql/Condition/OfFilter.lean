import EntitySql.Condition.Clause
import EntitySql.Filter.Raw

/-!
# From filters to conditions

A filter becomes a condition in two steps. First every field is looked up and
every value converted, in the order of the tree; only then are raw filters
awaited, all of them together. So a fault in a field or value is always
reported before one in raw text.

- `Condition.ofFilter`: the condition of a filter, raw filters still as they are.
- `Condition.await`: the condition with the texts of its raw filters.
- `Filter.compile`: the text of a filter; none if it holds for every row.
- `Filter.whereClause`: the text after `from`, as statements use it.
-/

namespace EntitySql

namespace Predicate

/-- The comparison of a column with a stored value. Equality with NULL is a test for NULL, and
rows with NULL differ from every other value; other comparisons with NULL make no sense. -/
def ofCompare (key column : String) (allowNull : Bool) (op : CompareOp) (value : Value) :
    Except Failure Predicate :=
  if value.isNull then
    match op with
    | .eq => .ok (.one (.isNull column))
    | .ne => .ok (.one (.isNotNull column))
    | op => .error (.invalidFilter s!"cannot compare '{key}' {op.sql} NULL")
  else if op = .ne ∧ allowNull then
    .ok (.either (.compare column .ne value) (.isNull column))
  else .ok (.one (.compare column op value))

/-- The test for one of the values of a list that is not empty; NULL among them is a test of its
own. -/
def ofOneOf (column : String) (hasNull : Bool) (values : List Value) : Predicate :=
  if hasNull then
    if values.isEmpty then .one (.isNull column)
    else .either (.oneOf column values) (.isNull column)
  else .one (.oneOf column values)

/-- The test for none of the values of a list that is not empty. Rows with NULL pass it if the
column may hold NULL and NULL is not in the list. -/
def ofNoneOf (column : String) (allowNull hasNull : Bool) (values : List Value) : Predicate :=
  if hasNull then
    if values.isEmpty then .one (.isNotNull column)
    else .both (.noneOf column values) (.isNotNull column)
  else if allowNull then .either (.noneOf column values) (.isNull column)
  else .one (.noneOf column values)

/-- The match of a column with a text. Rows with NULL do not contain any text. -/
def ofMatch (column : String) (allowNull : Bool) (mode : MatchMode) (text : String) :
    Predicate :=
  let pattern := mode.pattern text
  match mode with
  | .notContains =>
    if allowNull then .either (.isNull column) (.notLike column pattern)
    else .one (.notLike column pattern)
  | _ => .one (.like column pattern)

end Predicate

namespace Condition

/-- A field with the text that stands for it. -/
def lookUp (e : Entity) (names : EntityNames) (key : String) :
    Except Failure (Field × String) := do
  let f ← e.field key
  let column ← names.columnOf key
  .ok (f, column)

/-- The stored values of a list, with NULL apart. -/
def storedList (c : Converter) : List Value → Except Failure (Bool × List Value)
  | [] => .ok (false, [])
  | v :: vs => do
    let stored ← c.toStored v
    let (hasNull, rest) ← storedList c vs
    .ok (if stored.isNull then (true, rest) else (hasNull, stored :: rest))

mutual

/-- The condition of a filter. -/
def ofFilter (e : Entity) (names : EntityNames) :
    Filter → Except Failure (Condition (List RawPart))
  | .compare key op value => do
    let (f, column) ← lookUp e names key
    let stored ← f.converter.toStored value
    .ok (.predicate (← Predicate.ofCompare key column f.allowNull op stored))
  | .among key negated values => do
    let (f, column) ← lookUp e names key
    if values.isEmpty then .ok (if negated then .always else .never)
    else
      let (hasNull, stored) ← storedList f.converter values
      .ok (.predicate (
        if negated then Predicate.ofNoneOf column f.allowNull hasNull stored
        else Predicate.ofOneOf column hasNull stored))
  | .matching key mode pattern => do
    let (f, column) ← lookUp e names key
    .ok (.predicate (Predicate.ofMatch column f.allowNull mode pattern))
  | .and filters => do .ok (.and (← ofFilters e names filters))
  | .or filters => do .ok (.or (← ofFilters e names filters))
  | .not filter => do .ok (.not (← ofFilter e names filter))
  | .raw parts => .ok (.raw parts)

/-- The conditions of filters, in their order. -/
def ofFilters (e : Entity) (names : EntityNames) :
    List Filter → Except Failure (List (Condition (List RawPart)))
  | [] => .ok []
  | f :: rest => do
    let c ← ofFilter e names f
    .ok (c :: (← ofFilters e names rest))

end

/-- Awaits the raw filters together, and puts their texts in their places. -/
def await (names : EntityNames) (c : Condition (List RawPart)) :
    Except Failure (Condition Template) := do
  let texts ← Job.joinAll (c.raws.map (RawPart.build names))
  .ok (c.fill texts).1

end Condition

/-- The text of a condition that holds for no row. -/
def neverText : String := "1 = 0"

/-- The text of what is left of a condition; none if it holds for every row. -/
def Simplified.template? : Simplified → Option Template
  | .everything => none
  | .nothing => some (Template.ofText neverText)
  | .clause c => some c.template

namespace Filter

/-- The text of a filter; none if it holds for every row. -/
def compile (f : Filter) (e : Entity) (names : EntityNames) :
    Except Failure (Option Template) := do
  let condition ← Condition.ofFilter e names f
  let awaited ← condition.await names
  .ok awaited.simplify.template?

/-- The `where` clause for the text of a filter. -/
def clauseOf : Option Template → Template
  | none => []
  | some t => .text " where " :: t

/-- The `where` clause of a filter; empty if it holds for every row. -/
def whereClause (f : Filter) (e : Entity) (names : EntityNames) : Except Failure Template := do
  .ok (clauseOf (← f.compile e names))

end Filter

end EntitySql
