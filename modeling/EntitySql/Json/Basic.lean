import EntitySql.Decimal.Binary

/-!
# JSON documents

Filters, sorts and entity definitions are exchanged as JSON documents, and a
field may hold one. A document keeps what other readers lose: the order of the
members of an object, the difference between whole numbers and floats, and all
64-bit whole numbers, signed and unsigned.

- `Json`: documents.
- `Json.ofMembers`: an object from members of which some may repeat a key.
- `Json.same`: equality of documents, whatever the order of members.
-/

namespace EntitySql

/-- A number of a document: a whole number that fits a signed or an unsigned 64-bit word,
or a finite float. -/
inductive JsonNumber where
  | int (n : Int) (fits : FitsWord n)
  | float (x : Float) (finite : finiteFloat x = true)
deriving DecidableEq

/-- A JSON document as a tree. An object may have two members of one key. -/
inductive Json where
  | null
  | bool (b : Bool)
  | number (n : JsonNumber)
  | text (s : String)
  | array (items : List Json)
  | object (members : List (String × Json))

instance : Inhabited Json := ⟨.null⟩

namespace JsonNumber

/-- A signed word as a number. -/
def ofInt64 (n : Int64) : JsonNumber :=
  .int n.toInt ⟨Int64.le_toInt n, Int.lt_trans (Int64.toInt_lt n) (by decide)⟩

/-- A finite float as a number. -/
def ofFloat? (x : Float) : Option JsonNumber :=
  if h : finiteFloat x = true then some (.float x h) else none

/-- Numbers are the same if they are of one kind and equal; the kinds are whole numbers and
floats, and the two zeros are equal. -/
def same : JsonNumber → JsonNumber → Bool
  | .int m _, .int n _ => m == n
  | .float x _, .float y _ => x == y
  | _, _ => false

end JsonNumber

namespace Json

/-- Sets the member `key`: in its place if it is there, else at the end. -/
def setMember (key : String) (value : Json) : List (String × Json) → List (String × Json)
  | [] => [(key, value)]
  | (k, v) :: rest => if k = key then (k, value) :: rest else (k, v) :: setMember key value rest

/-- The object with the given members; a repeated key keeps its first place and its last value. -/
def ofMembers (members : List (String × Json)) : Json :=
  .object (members.foldl (fun ms m => setMember m.1 m.2 ms) [])

/-- The member of the given key. -/
def member? (key : String) (members : List (String × Json)) : Option Json :=
  (members.find? fun m => m.1 == key).map Prod.snd

mutual

/-- Documents are the same if they differ in the order of members only. -/
def same : Json → Json → Bool
  | .null, .null => true
  | .bool a, .bool b => a == b
  | .number a, .number b => a.same b
  | .text a, .text b => a == b
  | .array as, .array bs => sameItems as bs
  | .object as, .object bs => as.length == bs.length && sameMembers as bs
  | _, _ => false

/-- Item by item the same. -/
def sameItems : List Json → List Json → Bool
  | [], [] => true
  | a :: as, b :: bs => a.same b && sameItems as bs
  | _, _ => false

/-- Each member on the left is the same as the member of its key on the right. -/
def sameMembers : List (String × Json) → List (String × Json) → Bool
  | [], _ => true
  | (key, a) :: as, bs =>
    (match member? key bs with
      | some b => a.same b
      | none => false) && sameMembers as bs

end

end Json

end EntitySql
