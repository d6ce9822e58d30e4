import EntitySql.Decimal.Reading
import EntitySql.Entity.Names
import EntitySql.Filter.Basic
import EntitySql.Filter.Job
import EntitySql.Statement.Template

/-!
# The text of raw filters

A raw filter writes text in which values are marked by tokens: the number of a
value between two marks, a control character that SQL text does not need. It
may wait for other work while it writes. The text is then cut at the marks into
the pieces of a template.

- `RawPart.work`: the work of a raw filter, to the text and its values.
- `piecesOf`: the template of a text with tokens.
- `RawPart.build`: both steps.
-/

namespace EntitySql

/-- The control character around the number of a value. -/
def rawMark : Char := '\x01'

/-- The token of the value of the given number. -/
def rawToken (index : Nat) : String :=
  String.ofList (rawMark :: Nat.toDigits 10 index ++ [rawMark])

/-- The text that a raw filter writes, and the values that it binds. -/
structure RawText where
  text : String
  values : List Value

/-- The text written so far with more at its end. -/
def RawText.add (r : RawText) (s : String) : RawText := { r with text := r.text ++ s }

/-- Takes one step. -/
def RawPart.step (names : EntityNames) (r : RawText) : RawPart → Except Failure RawText
  | .text s => .ok (r.add s)
  | .param v => .ok ⟨r.text ++ rawToken r.values.length, r.values ++ [v]⟩
  | .bind v => .ok { r with values := r.values ++ [v] }
  | .reuse index => .ok (r.add (rawToken index))
  | .column key => do .ok (r.add (← names.columnOf key))
  | .table => .ok (r.add names.table)
  | .wait => .ok r
  | .fail detail => .error (.conversion detail)

/-- The work of steps, from left to right, after the text written so far. -/
def RawPart.work (names : EntityNames) : List RawPart → RawText → Job RawText
  | [], r => .done (.ok r)
  | .wait :: rest, r => .wait (work names rest r)
  | p :: rest, r =>
    match p.step names r with
    | .ok r => work names rest r
    | .error failure => .done (.error failure)

/-- The failure for marks that do not come in pairs. -/
def malformedToken : Failure :=
  .invalidFilter "raw filter contains a malformed parameter token"

/-- The failure for a token that stands for no value. -/
def unknownToken (part : List Char) : Failure :=
  .invalidFilter ("raw filter references unknown parameter '" ++ String.ofList part ++ "'")

/-- The value that the text of a token stands for. -/
def tokenValue (values : List Value) (part : List Char) : Except Failure Value :=
  match (readNat? part).bind fun index => values[index]? with
  | some v => .ok v
  | none => .error (unknownToken part)

/-- A piece of text, unless it is empty. -/
def textPiece (part : List Char) : Template :=
  if part.isEmpty then [] else [.text (String.ofList part)]

/-- The pieces of the parts between marks, of which every second one is a token. -/
def piecesOfParts (values : List Value) : List (List Char) → Except Failure Template
  | [] => .ok []
  | [part] => .ok (textPiece part)
  | part :: token :: rest => do
    let v ← tokenValue values token
    .ok (textPiece part ++ .param v :: (← piecesOfParts values rest))

/-- The template of a text with tokens for the values. -/
def piecesOf (r : RawText) : Except Failure Template :=
  let parts := Text.split rawMark r.text.toList
  if parts.length % 2 = 0 then .error malformedToken else piecesOfParts r.values parts

/-- The work of a raw filter, to its template. -/
def RawPart.build (names : EntityNames) (parts : List RawPart) : Job Template :=
  (work names parts ⟨"", []⟩).andThen piecesOf

end EntitySql
