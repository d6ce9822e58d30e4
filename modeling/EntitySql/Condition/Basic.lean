import EntitySql.Entity.Names
import EntitySql.Filter.Like
import EntitySql.Statement.Template

/-!
# Conditions

A condition is a filter in terms of the database: columns in place of fields,
stored values in place of application values, and the tests for NULL spelled
out. It is still a tree; its text is written at the end.

- `Test`: a test that a statement writes without parentheses.
- `Predicate`: one test, or two in parentheses where NULL needs one of its own.
- `Condition`: predicates, raw conditions and their combinations.
- `Condition.raws`, `Condition.fill`: its raw conditions, and texts in their
  places.
-/

namespace EntitySql

/-- A test of a column. -/
inductive Test where
  | isNull (column : String)
  | isNotNull (column : String)
  | compare (column : String) (op : CompareOp) (value : Value)
  | oneOf (column : String) (values : List Value)
  | noneOf (column : String) (values : List Value)
  | like (column pattern : String)
  | notLike (column pattern : String)

namespace Test

/-- The match of a column with a pattern, in small letters on both sides. -/
def likeTemplate (column keyword pattern : String) : Template :=
  [.text ("lower(" ++ column ++ ") " ++ keyword ++ " lower("), .param (.text pattern),
   .text ") escape '!'"]

/-- The text of a test. -/
def template : Test → Template
  | .isNull column => [.text (column ++ " is null")]
  | .isNotNull column => [.text (column ++ " is not null")]
  | .compare column op value => [.text (column ++ " " ++ op.sql ++ " "), .param value]
  | .oneOf column values =>
    .text (column ++ " in (") :: Template.parameters values ++ [.text ")"]
  | .noneOf column values =>
    .text (column ++ " not in (") :: Template.parameters values ++ [.text ")"]
  | .like column pattern => likeTemplate column "like" pattern
  | .notLike column pattern => likeTemplate column "not like" pattern

end Test

/-- A test, or two of them that belong together. -/
inductive Predicate where
  | one (test : Test)
  /-- One of two tests holds. -/
  | either (first second : Test)
  /-- Both tests hold. -/
  | both (first second : Test)

namespace Predicate

/-- The text of a predicate; two tests stand in parentheses. -/
def template : Predicate → Template
  | .one test => test.template
  | .either first second =>
    .text "(" :: first.template ++ .text " or " :: second.template ++ [.text ")"]
  | .both first second =>
    .text "(" :: first.template ++ .text " and " :: second.template ++ [.text ")"]

end Predicate

/-- A condition on rows; `ρ` is what stands for raw conditions. -/
inductive Condition (ρ : Type) where
  | always
  | never
  | predicate (p : Predicate)
  | raw (r : ρ)
  | and (conditions : List (Condition ρ))
  | or (conditions : List (Condition ρ))
  | not (condition : Condition ρ)

namespace Condition

variable {ρ σ : Type}

mutual

/-- The raw conditions in a condition, in the order of the tree. -/
def raws : Condition ρ → List ρ
  | .always => []
  | .never => []
  | .predicate _ => []
  | .raw r => [r]
  | .and cs => rawsAll cs
  | .or cs => rawsAll cs
  | .not c => raws c

/-- The raw conditions in conditions, one condition after the other. -/
def rawsAll : List (Condition ρ) → List ρ
  | [] => []
  | c :: cs => raws c ++ rawsAll cs

end

mutual

/-- Puts texts in the places of raw conditions, in the order of the tree; gives the texts that
are left over. -/
def fill : Condition ρ → List σ → Condition σ × List σ
  | .always, ts => (.always, ts)
  | .never, ts => (.never, ts)
  | .predicate p, ts => (.predicate p, ts)
  | .raw _, [] => (.always, [])
  | .raw _, t :: ts => (.raw t, ts)
  | .and cs, ts => ((fillAll cs ts).1 |> .and, (fillAll cs ts).2)
  | .or cs, ts => ((fillAll cs ts).1 |> .or, (fillAll cs ts).2)
  | .not c, ts => ((fill c ts).1 |> .not, (fill c ts).2)

/-- Puts texts in the places of raw conditions in a list. -/
def fillAll : List (Condition ρ) → List σ → List (Condition σ) × List σ
  | [], ts => ([], ts)
  | c :: cs, ts =>
    ((fill c ts).1 :: (fillAll cs (fill c ts).2).1, (fillAll cs (fill c ts).2).2)

end

end Condition

end EntitySql
