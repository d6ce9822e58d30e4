import EntitySql.Failure
import EntitySql.Json.Reader

/-!
# Converters

A converter stands between the values that an application uses for a field and
the values that the database stores for it. NULL passes every converter
unchanged in both directions.

- `Converter`: the converters.
- `Converter.toStored`, `Converter.ofStored`: a value on its way to the
  database, and on its way back.
- `Converter.typeHint`: what the converter says about the type of its column.
-/

namespace EntitySql

/-- The converters of fields. -/
inductive Converter where
  /-- Whole numbers. -/
  | integer
  /-- Floats. -/
  | number
  /-- Texts. -/
  | text
  /-- Truth values, stored by some databases as 0 and 1. -/
  | boolean
  /-- Instants, stored as text to the millisecond. -/
  | date
  /-- Documents in a column of their own type. -/
  | json
  /-- Documents in a text column. -/
  | jsonText
  /-- Every value as it is. -/
  | plain
deriving DecidableEq, Repr

namespace Converter

/-- The failure for a value that is not of the wanted kind. -/
def mismatch (wanted : String) (v : Value) : Failure :=
  .conversion s!"expected {wanted}, got {v.typeName} ({v.display})"

/-- A result, or the failure for a value that is not of the wanted kind. -/
def orMismatch (wanted : String) (v : Value) : Option Value → Except Failure Value
  | some w => .ok w
  | none => .error (mismatch wanted v)

/-- The value as a whole number. -/
def toInteger (v : Value) : Except Failure Value :=
  match v with
  | .null => .ok .null
  | .integer n => .ok (.integer n)
  | .float x => orMismatch "integer" v ((Value.int64OfFloat? x).map .integer)
  | .boolean b => .ok (.integer (if b then 1 else 0))
  | .text s => orMismatch "integer" v ((readInt64? (Text.trim s.toList)).map .integer)
  | _ => .error (mismatch "integer" v)

/-- The value as a float. -/
def toNumber (v : Value) : Except Failure Value :=
  match v with
  | .null => .ok .null
  | .integer n => .ok (.float (Value.floatOfInt64 n))
  | .float x => .ok (.float x)
  | .text s => orMismatch "number" v ((readFloat? (Text.trim s.toList)).map .float)
  | _ => .error (mismatch "number" v)

/-- The value as a text. -/
def toText (v : Value) : Except Failure Value :=
  match v with
  | .null => .ok .null
  | .text s => .ok (.text s)
  | .integer _ | .float _ | .boolean _ => .ok (.text v.display)
  | _ => .error (mismatch "text" v)

/-- The truth value that a text names. -/
def boolOfText? (s : String) : Option Bool :=
  let cs := (Text.trim s.toList).map Char.toLower
  if cs = "true".toList ∨ cs = ['1'] then some true
  else if cs = "false".toList ∨ cs = ['0'] then some false
  else none

/-- The value as a truth value. -/
def toBoolean (v : Value) : Except Failure Value :=
  match v with
  | .null => .ok .null
  | .boolean b => .ok (.boolean b)
  | .integer n => .ok (.boolean (n != 0))
  | .text s => orMismatch "boolean" v ((boolOfText? s).map .boolean)
  | _ => .error (mismatch "boolean" v)

/-- The instant that a value is; nothing for NULL. -/
def toInstant? (v : Value) : Except Failure (Option Instant) :=
  match v with
  | .null => .ok none
  | .timestamp t => .ok (some t)
  | .text s =>
    match Instant.ofText? s with
    | some t => .ok (some t)
    | none => .error (mismatch "timestamp" v)
  | .integer n =>
    match Instant.ofMillis? n.toInt with
    | some t => .ok (some t)
    | none => .error (mismatch "timestamp" v)
  | _ => .error (mismatch "timestamp" v)

/-- The value as a document. -/
def toDocument : Value → Value
  | .null => .null
  | v => .json v.document

/-- The document that a text is; none for the empty text. -/
def readDocument (v : Value) : Except Failure Value :=
  match v with
  | .null => .ok .null
  | .text s =>
    if s.isEmpty then .ok .null
    else match Json.read s with
      | .ok j => .ok (.json (.ofJson j))
      | .error fault => .error (.conversion s!"invalid JSON: {fault.message}")
  | .json d => .ok (.json d)
  | _ => .error (mismatch "json text" v)

/-- A value on its way to the database. -/
def toStored (c : Converter) (v : Value) : Except Failure Value :=
  match c with
  | .integer => toInteger v
  | .number => toNumber v
  | .text => toText v
  | .boolean => toBoolean v
  | .date => do
    match ← toInstant? v with
    | some t => .ok (.text t.text)
    | none => .ok .null
  | .json => .ok (toDocument v)
  | .jsonText =>
    match v with
    | .null => .ok .null
    | v => .ok (.text v.toJson.compact)
  | .plain => .ok v

/-- A value on its way back from the database. -/
def ofStored (c : Converter) (v : Value) : Except Failure Value :=
  match c with
  | .integer => toInteger v
  | .number => toNumber v
  | .text => toText v
  | .boolean => toBoolean v
  | .date => do
    match ← toInstant? v with
    | some t => .ok (.timestamp t)
    | none => .ok .null
  | .json =>
    match v with
    | .text s => readDocument (.text s)
    | v => .ok (toDocument v)
  | .jsonText => readDocument v
  | .plain => .ok v

/-- What a converter says about the type of its column. -/
def typeHint : Converter → Option String
  | .integer => some "integer"
  | .json => some "json"
  | .jsonText => some "text"
  | .plain => some "varchar"
  | .number | .text | .boolean | .date => none

end Converter

end EntitySql
