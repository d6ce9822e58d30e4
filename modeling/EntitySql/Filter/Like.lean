import EntitySql.Filter.Basic

/-!
# Patterns

SQL matches texts against patterns in which `%` stands for any text and `_`
for any character. A caller's text means itself, so an escape character is
put in front of the characters that would mean something else.

- `Like.escape`: the text without any meaning.
- `MatchMode.pattern`: the pattern of a match.
-/

namespace EntitySql

namespace Like

/-- The character that takes the meaning from the one after it. -/
def escapeChar : Char := '!'

/-- A character that means something in a pattern. -/
def isSpecial (c : Char) : Bool := c == escapeChar || c == '%' || c == '_'

/-- A character that means itself. -/
def escaped (c : Char) : List Char := if isSpecial c then [escapeChar, c] else [c]

/-- A pattern that matches the text alone. -/
def escape (text : List Char) : List Char := text.flatMap escaped

end Like

/-- The characters of the pattern of a match. -/
def MatchMode.patternChars (mode : MatchMode) (text : List Char) : List Char :=
  match mode with
  | .contains | .notContains => '%' :: Like.escape text ++ ['%']
  | .startsWith => Like.escape text ++ ['%']
  | .endsWith => '%' :: Like.escape text

/-- The pattern of a match. -/
def MatchMode.pattern (mode : MatchMode) (text : String) : String :=
  String.ofList (mode.patternChars text.toList)

end EntitySql
