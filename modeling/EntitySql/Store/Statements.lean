import EntitySql.Store.Basic

/-!
# The statements of a store

Each operation of a store sends statements that depend on the entity, its
names, the dialect and the arguments of the operation alone. They are built
here, as templates, before anything is sent; what is wrong with the arguments
is found on the way.

- `Store.countStatement`, `Store.findStatement`, `Store.selectStatement`.
- `Store.insertStatement`, `Store.updateStatement`, `Store.deleteStatement`.
- `Store.bulkStatement`: many rows in one statement.
-/

namespace EntitySql

/-- What a caller wants of a search. -/
structure FindOptions where
  filter : Option Filter
  order : Option RowOrder
  /-- The rows of a page; all rows if there are none. -/
  limit : Option Nat
  /-- The page, counted from one. -/
  page : Option Nat

instance : Inhabited FindOptions := ⟨⟨none, none, none, none⟩⟩

namespace FindOptions

/-- The rows of a page, if the result is read in pages. -/
def pageSize? (o : FindOptions) : Option Nat := o.limit.filter fun l => 0 < l

/-- The order of a result: as the caller wants it if the whole result is read, and such that no
two rows are in the same place if it is read in pages or the caller does not care. -/
def rowOrder (o : FindOptions) (e : Entity) : RowOrder :=
  match o.order, o.pageSize? with
  | some order, none => if order.isEmpty then RowOrder.unique e order else order
  | order, _ => RowOrder.unique e (order.getD [])

/-- The rows before the page. -/
def offset (page limit : Nat) : Except Failure Nat :=
  if FitsUnsigned ((page - 1) * limit) then .ok ((page - 1) * limit)
  else .error (.invalidFilter s!"page {page} of {limit} rows is out of range")

/-- The clause for the page, with a blank before it. -/
def pageText (o : FindOptions) (d : Dialect) : Except Failure String :=
  match o.pageSize? with
  | none => .ok ""
  | some limit => do
    let offset ← offset (max (o.page.getD 1) 1) limit
    .ok (" " ++ d.limitText limit offset)

end FindOptions

namespace Store

/-! ## Reading -/

/-- The statement that counts the rows that pass a filter. -/
def countStatement (e : Entity) (names : EntityNames) (f : Filter) :
    Except Failure Template := do
  let clause ← f.whereClause e names
  .ok (.text ("select count(*) as count from " ++ names.table) :: clause)

/-- The `where` clause of an optional filter. -/
def optionalClause (e : Entity) (names : EntityNames) : Option Filter → Except Failure Template
  | none => .ok []
  | some f => f.whereClause e names

/-- The statement of a search. -/
def findStatement (e : Entity) (names : EntityNames) (d : Dialect) (o : FindOptions) :
    Except Failure Template := do
  let columns ← selectList e names
  let clause ← optionalClause e names o.filter
  let order ← (o.rowOrder e).orderBy names d.capabilities.nullsFirst
  let page ← o.pageText d
  .ok (.text ("select " ++ columns ++ " from " ++ names.table) :: clause ++
    [.text (" order by " ++ order ++ page)])

/-- The statement that reads the rows that pass a filter, in any order. -/
def selectStatement (e : Entity) (names : EntityNames) (f : Filter) :
    Except Failure Template := do
  let clause ← f.whereClause e names
  let columns ← selectList e names
  .ok (.text ("select " ++ columns ++ " from " ++ names.table) :: clause)

/-! ## Writing -/

/-- The clause that asks for the rows that were written, where the database has it. -/
def returningClause (e : Entity) (names : EntityNames) (d : Dialect) :
    Except Failure Template :=
  if d.capabilities.returning then do
    .ok [.text (" returning " ++ (← selectList e names))]
  else .ok []

/-- A list of parameters in parentheses. -/
def tuple (vs : List Value) : Template := .text "(" :: Template.parameters vs ++ [.text ")"]

/-- The text that inserts into some columns, up to the values. -/
def insertHead (names : EntityNames) (columns : List String) : String :=
  "insert into " ++ names.table ++ " (" ++ String.intercalate ", " columns ++ ") values "

/-- The statement that inserts the values written of a record. -/
def insertStatement (e : Entity) (names : EntityNames) (d : Dialect) (data : Record) :
    Except Failure Template := do
  let written ← writtenValues e data true
  let insert ←
    if written.isEmpty then
      .ok [.text ("insert into " ++ names.table ++ " default values")]
    else do
      let columns ← columnTexts names (written.map Prod.fst)
      .ok (.text (insertHead names columns) :: tuple (written.map Prod.snd))
  let returning ← returningClause e names d
  .ok (insert ++ returning)

/-- Columns set to values. -/
def assignments (columns : List String) (vs : List Value) : Template :=
  Template.separated ", " ((columns.zip vs).map fun a => [.text (a.1 ++ " = "), .param a.2])

/-- The statement that updates the row of an identity with the values written of a record. -/
def updateStatement (e : Entity) (names : EntityNames) (d : Dialect) (identity : Record)
    (written : List (Field × Value)) : Except Failure Template := do
  let columns ← columnTexts names (written.map Prod.fst)
  let clause ← (identityFilter identity).whereClause e names
  let returning ← returningClause e names d
  .ok (.text ("update " ++ names.table ++ " set ") ::
    assignments columns (written.map Prod.snd) ++ clause ++ returning)

/-- The statement that deletes the row of an identity. -/
def deleteStatement (e : Entity) (names : EntityNames) (identity : Record) :
    Except Failure Template := do
  let clause ← (identityFilter identity).whereClause e names
  .ok (.text ("delete from " ++ names.table) :: clause)

/-! ## Many rows -/

/-- The rows of one statement. -/
def bulkSize : Nat := 250

/-- What is written of each record. -/
def writtenRows (e : Entity) : List Record → Except Failure (List (List (Field × Value)))
  | [] => .ok []
  | r :: rs => do
    let written ← writtenValues e r true
    .ok (written :: (← writtenRows e rs))

/-- A row gives a value to a field. -/
def gives (row : List (Field × Value)) (f : Field) : Bool := row.any fun w => w.1.key == f.key

/-- The fields that some row gives a value to, in declaration order. -/
def bulkFields (e : Entity) (rows : List (List (Field × Value))) : List Field :=
  e.fields.filter fun f => rows.any fun row => gives row f

/-- The value that a row gives to a field; NULL if it gives none. -/
def valueFor (row : List (Field × Value)) (f : Field) : Value :=
  match row.find? fun w => w.1.key == f.key with
  | some w => w.2
  | none => .null

/-- The statement that inserts rows with the given fields. -/
def bulkStatement (names : EntityNames) (fields : List Field)
    (rows : List (List (Field × Value))) : Except Failure Template := do
  let columns ← columnTexts names fields
  let tuples := rows.map fun row => tuple (fields.map (valueFor row))
  .ok (.text (insertHead names columns) :: Template.separated ", " tuples)

end Store

end EntitySql
