import EntitySql.Value.Basic

/-!
# Failures

Every operation of the library that cannot do what it was asked gives one of
these failures. The constructors name the causes; their wording is the one
function `Failure.message`.

- `Failure`: the causes.
- `Failure.kind`: how far an operation got, coarsely.
- `Failure.message`: the wording.
-/

namespace EntitySql

/-- Why an operation failed. -/
inductive Failure where
  /-- An entity has no such field that can be used. -/
  | fieldNotFound (entity field : String)
  /-- A filter, sort or page that makes no sense. -/
  | invalidFilter (detail : String)
  /-- An identity lacks a component. -/
  | missingIdentity (entity operation field : String)
  /-- An entity description that makes no sense. -/
  | invalidMetadata (detail : String)
  /-- A value that a field cannot hold. -/
  | conversion (detail : String)
  /-- A statement failed; it comes with its parameters, each under its token. -/
  | execution (detail sql : String) (params : List (String × Value))
  /-- The database reported a failure. -/
  | driver (detail : String)
  /-- A statement gave too few or too many rows. -/
  | cardinality (entity operation : String) (expected actual : Nat)
  /-- A cell of a result cannot be read. -/
  | decode (entity field detail : String)
  /-- A statement was attempted after the end of its transaction. -/
  | transactionCompleted
  /-- An operation that is not available. -/
  | unsupportedOperation (detail : String)
  /-- A configuration that makes no sense. -/
  | configuration (detail : String)

instance : Inhabited Failure := ⟨.transactionCompleted⟩

/-- How far an operation got before it failed. -/
inductive FailureKind where
  /-- No statement was sent. -/
  | structural
  /-- The database refused a statement. -/
  | execution
  /-- A result did not have exactly one row. -/
  | cardinality
  /-- A result could not be read. -/
  | decode
  /-- The transaction was over. -/
  | transactionCompleted
deriving DecidableEq, Repr

namespace Failure

/-- The kind of a failure. -/
def kind : Failure → FailureKind
  | .fieldNotFound .. | .invalidFilter _ | .missingIdentity .. | .invalidMetadata _
  | .conversion _ | .unsupportedOperation _ | .configuration _ => .structural
  | .execution .. | .driver _ => .execution
  | .cardinality .. => .cardinality
  | .decode .. => .decode
  | .transactionCompleted => .transactionCompleted

/-- The wording of a failure. -/
def message : Failure → String
  | .fieldNotFound entity field => s!"Field '{field}' not found in entity '{entity}'"
  | .invalidFilter detail => s!"Invalid filter: {detail}"
  | .missingIdentity entity operation field =>
    s!"Missing identity field '{field}' for {operation} on entity '{entity}'"
  | .invalidMetadata detail => s!"Invalid entity metadata: {detail}"
  | .conversion detail => s!"Conversion error: {detail}"
  | .execution detail sql _ => s!"{detail}\n  sql: {sql}"
  | .driver detail => s!"Driver error: {detail}"
  | .cardinality entity operation expected actual =>
    s!"Failed to {operation} row in '{entity}' - result contained {actual} rows, " ++
      s!"expected {expected}"
  | .decode entity field detail => s!"Failed to load from db: {entity}.{field}: {detail}"
  | .transactionCompleted => "can't run a command after the transaction was completed"
  | .unsupportedOperation detail => s!"Unsupported operation: {detail}"
  | .configuration detail => s!"Configuration error: {detail}"

end Failure

end EntitySql
