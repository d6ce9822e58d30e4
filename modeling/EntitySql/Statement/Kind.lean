import EntitySql.Text.Blank

/-!
# Kinds of statements

What a statement does is told from its words: the first one, and whether the
word `returning` is among them.

- `leadingKeyword`: the first word in capitals.
- `returnsRows`: the statement gives rows.
-/

namespace EntitySql

/-- A word in capital letters. -/
def capitals (word : List Char) : List Char := word.map Char.toUpper

/-- The first word in capitals, without parentheses before it. -/
def leadingKeyword (sql : String) : String :=
  match Text.words sql.toList with
  | [] => ""
  | word :: _ => String.ofList (capitals (word.dropWhile (· == '(')))

/-- The first words of statements that give rows. -/
def rowKeywords : List String := ["SELECT", "WITH", "VALUES", "PRAGMA", "EXPLAIN"]

/-- The statement gives rows: by what it does, or because it asks for the rows it changes. -/
def returnsRows (sql : String) : Bool :=
  rowKeywords.contains (leadingKeyword sql) ||
    (Text.words sql.toList).any fun word => capitals word == "RETURNING".toList

end EntitySql
