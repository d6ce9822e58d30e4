import EntitySql.Decimal.Layout
import EntitySql.Json.Basic

/-!
# The compact text of a document

Documents are written without blanks, members in their order. In a text only
the quote, the backslash and the control characters below the space are
escaped; all others stand for themselves.

- `Json.floatLayout`: the format of floats in documents.
- `Json.quoted`: a text as a JSON string.
- `Json.compact`: the text of a document.
-/

namespace EntitySql.Json

/-- Floats are positional from `0.00001` up to sixteen digits before the point, show at least
one place, and of two equally near candidates take the even one. -/
def floatLayout : Layout := ⟨.even, some (-5, 15), ".0"⟩

/-- The text of a number. -/
def numberText : JsonNumber → List Char
  | .int n _ => intText n
  | .float x _ => floatLayout.writeBinary (Binary.ofFloat x)

/-- A hexadecimal digit in small letters. -/
def hexDigit (n : Nat) : Char :=
  if n < 10 then Char.ofNat ('0'.toNat + n) else Char.ofNat ('a'.toNat + (n - 10))

/-- A character inside a string. -/
def escaped (c : Char) : List Char :=
  if c = '"' then ['\\', '"']
  else if c = '\\' then ['\\', '\\']
  else if c = '\x08' then ['\\', 'b']
  else if c = '\t' then ['\\', 't']
  else if c = '\n' then ['\\', 'n']
  else if c = '\x0c' then ['\\', 'f']
  else if c = '\r' then ['\\', 'r']
  else if c.toNat < 0x20 then
    ['\\', 'u', '0', '0', hexDigit (c.toNat / 16), hexDigit (c.toNat % 16)]
  else [c]

/-- A text as a JSON string. -/
def quoted (cs : List Char) : List Char := '"' :: cs.flatMap escaped ++ ['"']

mutual

/-- The characters of the compact text. -/
def chars : Json → List Char
  | .null => "null".toList
  | .bool b => (if b then "true" else "false").toList
  | .number n => numberText n
  | .text s => quoted s.toList
  | .array items => '[' :: itemChars items
  | .object members => '\x7b' :: memberChars members

/-- What follows the opening bracket of an array. -/
def itemChars : List Json → List Char
  | [] => [']']
  | a :: as => chars a ++ moreItemChars as

/-- What follows an item of an array. -/
def moreItemChars : List Json → List Char
  | [] => [']']
  | a :: as => ',' :: chars a ++ moreItemChars as

/-- What follows the opening brace of an object. -/
def memberChars : List (String × Json) → List Char
  | [] => ['\x7d']
  | (key, a) :: as => quoted key.toList ++ ':' :: chars a ++ moreMemberChars as

/-- What follows a member of an object. -/
def moreMemberChars : List (String × Json) → List Char
  | [] => ['\x7d']
  | (key, a) :: as => ',' :: quoted key.toList ++ ':' :: chars a ++ moreMemberChars as

end

/-- The compact text of a document. -/
def compact (j : Json) : String := String.ofList j.chars

end EntitySql.Json
