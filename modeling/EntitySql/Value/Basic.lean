import EntitySql.Instant.Text
import EntitySql.Json.Document

/-!
# Values

A value is what a field of a row holds, in the application or in the database.
Both sides share one type; the converter of a field says which values may
stand on which side.

- `Value`: values.
- `Value.toInt64?`, `Value.toFloat?`: the numbers among them.
- `Value.ofJson`, `Value.toJson`: values and documents.
- `Value.display`: a value as it appears in messages.
- `Value.literal`: a value as an SQL literal.
- `Value.same`: the equality that callers see, tolerant between floats.
-/

namespace EntitySql

/-- What a field of a row holds. -/
inductive Value where
  | null
  | integer (n : Int64)
  | float (x : Float)
  | text (s : String)
  | boolean (b : Bool)
  | timestamp (t : Instant)
  | json (d : Document)

instance : Inhabited Value := ⟨.null⟩

namespace Value

/-- The name of a kind of value. -/
def typeName : Value → String
  | .null => "NULL"
  | .integer _ => "INTEGER"
  | .float _ => "FLOAT"
  | .text _ => "TEXT"
  | .boolean _ => "BOOLEAN"
  | .timestamp _ => "TIMESTAMP"
  | .json _ => "JSON"

/-- The value is NULL. -/
def isNull : Value → Bool
  | .null => true
  | _ => false

/-- The float next to a word. -/
def floatOfInt64 (n : Int64) : Float := Float.ofInt n.toInt

/-- The word that a whole float is. `2 ^ 63` is still accepted and gives the greatest word. -/
def int64OfFloat? (x : Float) : Option Int64 :=
  match (Binary.ofFloat x).toInt? with
  | some n =>
    if FitsSigned n then some (Int64.ofInt n)
    else if n = 9223372036854775808 then some Int64.maxValue
    else none
  | none => none

/-- The whole number that a value is. -/
def toInt64? : Value → Option Int64
  | .integer n => some n
  | .float x => int64OfFloat? x
  | _ => none

/-- The float that a number is. -/
def toFloat? : Value → Option Float
  | .float x => some x
  | .integer n => some (floatOfInt64 n)
  | _ => none

/-- The text that a value is. -/
def toText? : Value → Option String
  | .text s => some s
  | _ => none

/-! ## Documents -/

/-- A number of a document: whole numbers of signed words stay whole. -/
def ofJsonNumber : JsonNumber → Value
  | .int n _ => if FitsSigned n then .integer (Int64.ofInt n) else .float (Float.ofInt n)
  | .float x _ => .float x

/-- Scalars of a document become scalar values; arrays and objects stay documents. -/
def ofJson : Json → Value
  | .null => .null
  | .bool b => .boolean b
  | .number n => ofJsonNumber n
  | .text s => .text s
  | .array items => .json (.ofJson (.array items))
  | .object members => .json (.ofJson (.object members))

/-- The tree of a value. Documents have no number for an infinity or a NaN. -/
def toJson : Value → Json
  | .null => .null
  | .integer n => .number (.ofInt64 n)
  | .float x =>
    match JsonNumber.ofFloat? x with
    | some n => .number n
    | none => .null
  | .text s => .text s
  | .boolean b => .bool b
  | .timestamp t => .text t.text
  | .json d => d.json

/-- Whatever a value is, its document has distinct keys. -/
theorem hasDistinctKeys_toJson (v : Value) : v.toJson.HasDistinctKeys := by
  cases v with
  | json d => exact d.keys
  | float x =>
    rw [toJson]
    split <;> trivial
  | _ => trivial

/-- The document of a value. -/
def document (v : Value) : Document := ⟨v.toJson, v.hasDistinctKeys_toJson⟩

/-! ## Text -/

/-- Floats in messages and statements: always positional, with nothing after a whole number;
of two equally near candidates the larger is taken. -/
def floatLayout : Layout := ⟨.up, none, ""⟩

/-- The text of a word. -/
def int64Text (n : Int64) : String := String.ofList (intText n.toInt)

/-- The name of a truth value. -/
def boolText (b : Bool) : String := if b then "true" else "false"

/-- A value as it appears in messages. -/
def display : Value → String
  | .null => "NULL"
  | .integer n => int64Text n
  | .float x => floatLayout.write x
  | .text s => s
  | .boolean b => boolText b
  | .timestamp t => t.text
  | .json d => d.compact

/-- A quote inside a literal is written twice. -/
def doubledQuotes : List Char → List Char
  | [] => []
  | c :: cs => if c = '\'' then '\'' :: '\'' :: doubledQuotes cs else c :: doubledQuotes cs

/-- A text as an SQL literal. -/
def quotedLiteral (s : String) : String :=
  String.ofList ('\'' :: doubledQuotes s.toList ++ ['\''])

/-- A value as an SQL literal; there is none for an infinity or a NaN. -/
def literal : Value → String
  | .null => "null"
  | .integer n => int64Text n
  | .float x => if finiteFloat x then floatLayout.write x else "null"
  | .boolean b => boolText b
  | .text s => quotedLiteral s
  | .timestamp t => quotedLiteral t.text
  | .json d => quotedLiteral d.compact

/-! ## Equality -/

/-- The tolerance between floats, `2 ^ -52`. -/
def tolerance : Float := Float.ofBits 0x3CB0000000000000

/-- The floats are less than the tolerance apart. -/
def near (x y : Float) : Bool := (x - y).abs < tolerance

/-- The equality that callers see: numbers of both kinds may be equal, floats are equal if they
are near, and documents if they differ in the order of members only. -/
def same : Value → Value → Bool
  | .null, .null => true
  | .integer m, .integer n => m == n
  | .float x, .float y => (x.isNaN && y.isNaN) || near x y
  | .integer n, .float x => near (floatOfInt64 n) x
  | .float x, .integer n => near (floatOfInt64 n) x
  | .text s, .text t => s == t
  | .boolean a, .boolean b => a == b
  | .timestamp t, .timestamp u => t == u
  | .json d, .json d' => d.json.same d'.json
  | _, _ => false

end Value

end EntitySql
