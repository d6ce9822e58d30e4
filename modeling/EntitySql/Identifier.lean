import EntitySql.Text.Parts

/-!
# Quoted identifiers

Names of tables and columns may be qualified: parts between dots. In a
statement each part is written between quotes, a quote inside it twice, so
that whatever a part holds, it ends where its closing quote stands.

- `Quoting`: the ways to quote a name.
- `Quoting.wrap`: a name as it stands in a statement.
- `doubled`: a text with every quote in it written twice.
-/

namespace EntitySql

/-- How names of tables and columns are quoted. -/
inductive Quoting where
  /-- Names stand as they are. -/
  | bare
  /-- Every part stands between quotes. -/
  | delimited (quote : Char)
  /-- Every part stands between double quotes; one that starts with a double quote is left as
  it is. -/
  | keepQuoted
deriving DecidableEq, Repr

/-- The text with every occurrence of a quote written twice. -/
def doubled (quote : Char) : List Char → List Char
  | [] => []
  | c :: cs => if c = quote then quote :: quote :: doubled quote cs else c :: doubled quote cs

/-- A part of a name between quotes. -/
def delimit (quote : Char) (part : List Char) : List Char :=
  quote :: doubled quote part ++ [quote]

namespace Quoting

/-- A part of a name. -/
def wrapPart : Quoting → List Char → List Char
  | .bare, part => part
  | .delimited quote, part => delimit quote part
  | .keepQuoted, part =>
    match part with
    | '"' :: _ => part
    | _ => delimit '"' part

/-- The characters of a name in a statement. -/
def wrapChars (q : Quoting) (name : List Char) : List Char :=
  Text.join '.' ((Text.split '.' name).map q.wrapPart)

/-- A name as it stands in a statement. -/
def wrap (q : Quoting) (name : String) : String := String.ofList (q.wrapChars name.toList)

/-- Bare names stand as they are. -/
theorem wrapChars_bare (name : List Char) : Quoting.bare.wrapChars name = name := by
  have h : (Quoting.bare.wrapPart : List Char → List Char) = id := rfl
  simp [wrapChars, h, Text.join_split]

end Quoting

end EntitySql
