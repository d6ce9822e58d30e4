import EntitySql.Condition.Basic
import EntitySql.Text.Blank

/-!
# Clauses

Conditions that hold for every row or for none need no text. Simplification
removes them, and a conjunction or disjunction of one condition is that
condition. What is left is a clause, whose text needs parentheses exactly
where a conjunction, a disjunction or raw text stands inside a conjunction or
disjunction.

- `Clause`: conditions with text.
- `Condition.simplify`: the clause of a condition, or the fact that it needs none.
- `Clause.template`: the text.
-/

namespace EntitySql

/-- A condition that has a text; conjunctions and disjunctions have at least two members. -/
inductive Clause where
  | predicate (p : Predicate)
  | raw (t : Template)
  | and (clauses : List Clause)
  | or (clauses : List Clause)
  | not (clause : Clause)

namespace Clause

/-- The text needs parentheses inside a conjunction or disjunction. -/
def isCompound : Clause → Bool
  | .raw _ | .and _ | .or _ => true
  | .predicate _ | .not _ => false

/-- A text between parentheses, if it needs them. -/
def enclose (compound : Bool) (t : Template) : Template :=
  if compound then .text "(" :: t ++ [.text ")"] else t

mutual

/-- The text of a clause. -/
def template : Clause → Template
  | .predicate p => p.template
  | .raw t => t
  | .and clauses => Template.separated " and " (memberTemplates clauses)
  | .or clauses => Template.separated " or " (memberTemplates clauses)
  | .not clause => .text "not (" :: template clause ++ [.text ")"]

/-- The texts of the members of a conjunction or disjunction. -/
def memberTemplates : List Clause → List Template
  | [] => []
  | c :: rest => enclose c.isCompound (template c) :: memberTemplates rest

end

end Clause

/-- What is left of a condition. -/
inductive Simplified where
  /-- It holds for every row. -/
  | everything
  /-- It holds for no row. -/
  | nothing
  /-- It has a text. -/
  | clause (c : Clause)

namespace Simplified

/-- The condition that does not hold. -/
def negate : Simplified → Simplified
  | .everything => .nothing
  | .nothing => .everything
  | .clause c => .clause (.not c)

/-- The conjunction of clauses. -/
def ofAll : List Clause → Simplified
  | [] => .everything
  | [c] => .clause c
  | cs => .clause (.and cs)

/-- The disjunction of clauses. -/
def ofAny : List Clause → Simplified
  | [] => .nothing
  | [c] => .clause c
  | cs => .clause (.or cs)

/-- One more member for a conjunction; none is left if a member holds for no row. -/
def conjoin : Simplified → Option (List Clause) → Option (List Clause)
  | .everything, cs => cs
  | .nothing, _ => none
  | .clause c, cs => cs.map (c :: ·)

/-- One more member for a disjunction; none is left if a member holds for every row. -/
def disjoin : Simplified → Option (List Clause) → Option (List Clause)
  | .everything, _ => none
  | .nothing, cs => cs
  | .clause c, cs => cs.map (c :: ·)

end Simplified

/-- Raw text with no parameter and nothing but blanks. -/
def isBlankTemplate (t : Template) : Bool :=
  t.all fun
    | .text s => Text.isBlankText s.toList
    | .param _ => false

namespace Condition

mutual

/-- What is left of a condition. Blank raw text holds for every row. -/
def simplify : Condition Template → Simplified
  | .always => .everything
  | .never => .nothing
  | .predicate p => .clause (.predicate p)
  | .raw t => if isBlankTemplate t then .everything else .clause (.raw t)
  | .and conditions =>
    match conjuncts conditions with
    | some cs => .ofAll cs
    | none => .nothing
  | .or conditions =>
    match disjuncts conditions with
    | some cs => .ofAny cs
    | none => .everything
  | .not condition => (simplify condition).negate

/-- The members left in a conjunction; nothing if one of them holds for no row. -/
def conjuncts : List (Condition Template) → Option (List Clause)
  | [] => some []
  | c :: rest => (simplify c).conjoin (conjuncts rest)

/-- The members left in a disjunction; nothing if one of them holds for every row. -/
def disjuncts : List (Condition Template) → Option (List Clause)
  | [] => some []
  | c :: rest => (simplify c).disjoin (disjuncts rest)

end

end Condition

end EntitySql
