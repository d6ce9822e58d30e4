import EntitySql.Entity.Names

/-!
# Row orders

Rows are put in an order by fields, the first of them counting most. An order
that mentions the identity of an entity leaves no two rows in the same place,
so that a result can be read in pages; any order can be extended to such a one.

- `RowOrder`: fields with directions.
- `RowOrder.ofJson`, `RowOrder.toJson`: orders and documents.
- `RowOrder.unique`: an order with the rest of the identity after it.
- `RowOrder.orderBy`: the list of an `order by` clause.
-/

namespace EntitySql

/-- A field that rows are sorted by. -/
structure OrderSegment where
  field : String
  descending : Bool
deriving DecidableEq, Repr

/-- The fields that rows are sorted by, the first of them counting most. -/
abbrev RowOrder := List OrderSegment

namespace OrderSegment

/-- The name of a direction in documents. -/
def direction (s : OrderSegment) : String := if s.descending then "desc" else "asc"

/-- The segment of the reverse order. -/
def reverse (s : OrderSegment) : OrderSegment := { s with descending := !s.descending }

/-- A segment in an `order by` clause. With `nullsSmallest` NULL is placed as the smallest
value, also where the database would not. -/
def text (s : OrderSegment) (column : String) (nullsSmallest : Bool) : String :=
  let direction := if s.descending then " desc" else ""
  let nulls :=
    if nullsSmallest then (if s.descending then " nulls last" else " nulls first") else ""
  column ++ direction ++ nulls

end OrderSegment

namespace RowOrder

/-- The segment for a field with the name of a direction, in letters of any size. -/
def segment (field : String) (direction : Json) : Except Failure OrderSegment :=
  let refused : Failure :=
    .invalidFilter ("sort direction of '" ++ field ++ "' must be \"asc\" or \"desc\"")
  match direction with
  | .text s =>
    let name := s.toList.map Char.toLower
    if name = "asc".toList then .ok ⟨field, false⟩
    else if name = "desc".toList then .ok ⟨field, true⟩
    else .error refused
  | _ => .error refused

/-- The order of a document: an object with a direction for each field. -/
def ofJson : Json → Except Failure RowOrder
  | .object members => members.mapM fun m => segment m.1 m.2
  | j => .error (.invalidFilter s!"expected a sort object, got {j.compact}")

/-- The document of an order. A field that is repeated has one member, with its last direction. -/
def toJson (s : RowOrder) : Json :=
  Json.ofMembers (s.map fun t => (t.field, .text t.direction))

/-- The order mentions the field. -/
def mentions (s : RowOrder) (field : String) : Bool := s.any fun t => t.field == field

/-- The order with the field at the end, ascending, unless it is mentioned already. -/
def withField (s : RowOrder) (field : String) : RowOrder :=
  if mentions s field then s else s ++ [⟨field, false⟩]

/-- The order with the rest of the identity after it. -/
def unique (e : Entity) (s : RowOrder) : RowOrder := e.identity.foldl withField s

/-- The segments as they stand in an `order by` clause. -/
def segmentTexts (names : EntityNames) (nullsSmallest : Bool) :
    RowOrder → Except Failure (List String)
  | [] => .ok []
  | s :: rest => do
    let column ← names.columnOf s.field
    .ok (s.text column nullsSmallest :: (← segmentTexts names nullsSmallest rest))

/-- The list of an `order by` clause. -/
def orderBy (names : EntityNames) (nullsSmallest : Bool) (s : RowOrder) :
    Except Failure String := do
  .ok (String.intercalate ", " (← segmentTexts names nullsSmallest s))

end RowOrder

end EntitySql
