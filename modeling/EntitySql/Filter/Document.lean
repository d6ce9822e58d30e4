import EntitySql.Failure
import EntitySql.Filter.Basic

/-!
# Filters as documents

Filters are exchanged as JSON objects. A member whose key starts with `$`
combines filters; any other key is a field, and its value is what the field
equals, a list of what it may be, or an object of operators. Raw filters have
no document.

- `Filter.ofJson`: the filter of a document.
- `Filter.toJson`: the document of a filter.
-/

namespace EntitySql

namespace CompareOp

/-- The name of a comparison in documents. -/
def name : CompareOp → String
  | .eq => "$eq"
  | .ne => "$ne"
  | .lt => "$lt"
  | .lte => "$lte"
  | .gt => "$gt"
  | .gte => "$gte"

end CompareOp

namespace MatchMode

/-- The name of a way of matching in documents. -/
def name : MatchMode → String
  | .contains => "$contains"
  | .notContains => "$notContains"
  | .startsWith => "$startsWith"
  | .endsWith => "$endsWith"

end MatchMode

namespace Filter

/-- The key of an operator. -/
def isOperatorKey (key : String) : Bool := key.toList.head? == some '$'

/-- The object holds operators for a field, not a document to compare with. -/
def isOperatorObject (members : List (String × Json)) : Bool :=
  !members.isEmpty && members.all fun m => isOperatorKey m.1

/-- The operand of a comparison. -/
def operand : Json → Value
  | .array items => .json (.ofJson (.array items))
  | .object members => .json (.ofJson (.object members))
  | j => Value.ofJson j

/-- The operand of a match. -/
def textOperand (field op : String) : Json → Except Failure String
  | .text s => .ok s
  | _ => .error (.invalidFilter s!"'{op}' on '{field}' expects a string")

/-- The operand of a list test. -/
def listOperand (field op : String) : Json → Except Failure (List Value)
  | .array items => .ok (items.map Value.ofJson)
  | _ => .error (.invalidFilter s!"'{op}' on '{field}' expects an array")

/-- The test of one operator. -/
def ofOperator (field op : String) (j : Json) : Except Failure Filter :=
  match op with
  | "$eq" => .ok (.compare field .eq (operand j))
  | "$ne" =>
    match j with
    | .array items => .ok (.among field true (items.map Value.ofJson))
    | j => .ok (.compare field .ne (operand j))
  | "$gt" => .ok (.compare field .gt (operand j))
  | "$gte" => .ok (.compare field .gte (operand j))
  | "$lt" => .ok (.compare field .lt (operand j))
  | "$lte" => .ok (.compare field .lte (operand j))
  | "$in" => do .ok (.among field false (← listOperand field op j))
  | "$nin" => do .ok (.among field true (← listOperand field op j))
  | "$contains" => do .ok (.matching field .contains (← textOperand field op j))
  | "$notContains" => do .ok (.matching field .notContains (← textOperand field op j))
  | "$startsWith" => do .ok (.matching field .startsWith (← textOperand field op j))
  | "$endsWith" => do .ok (.matching field .endsWith (← textOperand field op j))
  | _ => .error (.invalidFilter s!"unknown operator '{op}' on '{field}'")

/-- The tests that a member puts on its field. -/
def ofField (field : String) : Json → Except Failure (List Filter)
  | .array items => .ok [.among field false (items.map Value.ofJson)]
  | .object members =>
    if isOperatorObject members then members.mapM fun m => ofOperator field m.1 m.2
    else .ok [.compare field .eq (.json (.ofJson (.object members)))]
  | j => .ok [.compare field .eq (Value.ofJson j)]

/-- One condition stands alone, others make a conjunction. -/
def ofConditions : List Filter → Filter
  | [f] => f
  | fs => .and fs

mutual

/-- The filter of a document. -/
def ofJson : Json → Except Failure Filter
  | .object members => do .ok (ofConditions (← conditionsOf members))
  | j => .error (.invalidFilter s!"expected a JSON object, got {j.compact}")

/-- The conditions of the members of an object, in their order. -/
def conditionsOf : List (String × Json) → Except Failure (List Filter)
  | [] => .ok []
  | (key, value) :: rest => do
    let conditions ←
      if key = "$and" then do .ok [.and (← listOf key value)]
      else if key = "$or" then do .ok [.or (← listOf key value)]
      else if key = "$not" then do .ok [.not (← ofJson value)]
      else if isOperatorKey key then .error (.invalidFilter s!"unknown operator '{key}'")
      else ofField key value
    .ok (conditions ++ (← conditionsOf rest))

/-- The filters of a list. -/
def listOf (key : String) : Json → Except Failure (List Filter)
  | .array items => filtersOf items
  | _ => .error (.invalidFilter s!"'{key}' expects an array")

/-- The filters of documents, in their order. -/
def filtersOf : List Json → Except Failure (List Filter)
  | [] => .ok []
  | j :: rest => do
    let f ← ofJson j
    .ok (f :: (← filtersOf rest))

end

/-- An object with one member. -/
def member (key : String) (value : Json) : Json := .object [(key, value)]

/-- Neither an array nor an object. -/
def isScalar : Json → Bool
  | .array _ | .object _ => false
  | _ => true

/-- The document of a comparison. Equality with a scalar needs no operator. -/
def compareDocument (field : String) (op : CompareOp) (value : Json) : Json :=
  if op = .eq ∧ isScalar value then member field value
  else member field (member op.name value)

mutual

/-- The document of a filter. -/
def toJson : Filter → Except Failure Json
  | .compare field op value => .ok (compareDocument field op value.toJson)
  | .among field negated values =>
    let list := .array (values.map Value.toJson)
    .ok (member field (if negated then member "$nin" list else list))
  | .matching field mode pattern => .ok (member field (member mode.name (.text pattern)))
  | .and filters => do .ok (member "$and" (.array (← documentsOf filters)))
  | .or filters => do .ok (member "$or" (.array (← documentsOf filters)))
  | .not filter => do .ok (member "$not" (← toJson filter))
  | .raw _ => .error (.invalidFilter "raw filters cannot be serialised")

/-- The documents of filters, in their order. -/
def documentsOf : List Filter → Except Failure (List Json)
  | [] => .ok []
  | f :: rest => do
    let j ← toJson f
    .ok (j :: (← documentsOf rest))

end

end Filter

end EntitySql
