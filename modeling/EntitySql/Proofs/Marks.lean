import EntitySql.Proofs.Characters
import EntitySql.Proofs.Sentence
import Mathlib.Data.List.Forall2

/-!
# The text of clauses with operands set apart

What a statement is made of are strings, in which a column is no longer told
from the words around it. Here the text of a clause is written a second time
with the columns and parameters set apart, as the reader of `Sentence.lean`
wants it, and shown to be the same text.

- `Clause.IsReadable`: no raw text, no empty list, groups of at least two.
- `Clause.marks`: the text of a clause with its operands set apart.
- `Clause.flat_marks`: it is the text that statements have.
-/

namespace EntitySql

namespace Mark

/-- The characters of a text as marks are its characters. -/
@[simp] theorem flat_ofText (s : String) : (template (ofText s)).flat = s.toList.map .inl := by
  have hchars : ∀ cs : List Char, (template (cs.map Mark.char)).flat = cs.map .inl := by
    intro cs
    induction cs with
    | nil => rfl
    | cons c cs ih =>
      have hcons : template ((c :: cs).map Mark.char) =
          .text (String.singleton c) :: template (cs.map Mark.char) := rfl
      rw [hcons, Template.flat, ih]
      simp
  exact hchars s.toList

@[simp] theorem flat_column (s : String) (ms : List Mark) :
    (template (.column s :: ms)).flat = s.toList.map .inl ++ (template ms).flat := rfl

@[simp] theorem flat_param (v : Value) (ms : List Mark) :
    (template (.param v :: ms)).flat = .inr v :: (template ms).flat := rfl

@[simp] theorem flat_nil : (template []).flat = [] := rfl

/-- Marks with a separating text between, against templates with that text between. -/
theorem flat_intercalate (s : String) :
    ∀ {mss : List (List Mark)} {ts : List Template},
      List.Forall₂ (fun ms t => (template ms).flat = t.flat) mss ts →
      (template ((ofText s).intercalate mss)).flat = (Template.separated s ts).flat
  | _, _, .nil => rfl
  | _, _, .cons h .nil => by simpa [Template.separated] using h
  | _, _, .cons h (.cons h' hs) => by
    rw [List.intercalate_cons_cons, template_append, template_append, Template.flat_append,
      Template.flat_append, h, flat_ofText, flat_intercalate s (.cons h' hs), Template.separated,
      Template.flat_append, Template.flat]
    simp

end Mark

/-! ## Clauses that can be read -/

section

variable (known : String → Prop)

/-- A test of a known column, whose list is not empty. -/
def Test.IsReadable : Test → Prop
  | .oneOf column vs | .noneOf column vs => known column ∧ vs ≠ []
  | .isNull column | .isNotNull column | .compare column _ _ | .like column _
  | .notLike column _ => known column

/-- A predicate of tests of known columns, whose lists are not empty. -/
def Predicate.IsReadable : Predicate → Prop
  | .one t => t.IsReadable known
  | .either t u | .both t u => t.IsReadable known ∧ u.IsReadable known

mutual

/-- A clause of tests of known columns, without raw text and empty lists, whose conjunctions and
disjunctions have at least two members. -/
def Clause.IsReadable : Clause → Prop
  | .predicate p => p.IsReadable known
  | .raw _ => False
  | .and cs | .or cs => 2 ≤ cs.length ∧ Clause.AllReadable cs
  | .not c => Clause.IsReadable c

/-- Every clause of a list is readable. -/
def Clause.AllReadable : List Clause → Prop
  | [] => True
  | c :: cs => Clause.IsReadable c ∧ Clause.AllReadable cs

end

end

/-! ## Text with operands set apart -/

open Mark (ofText flat_intercalate)

/-- The parameters of a list. -/
def Mark.parameters (vs : List Value) : List Mark :=
  (ofText ", ").intercalate (vs.map fun v => [.param v])

/-- The match of a column with a pattern. -/
def Mark.matching (column keyword pattern : String) : List Mark :=
  ofText "lower(" ++ .column column ::
    (ofText (") " ++ keyword ++ " lower(") ++ .param (.text pattern) :: ofText ") escape '!'")

/-- The text of a test with its operands set apart. -/
def Test.marks : Test → List Mark
  | .isNull column => .column column :: ofText " is null"
  | .isNotNull column => .column column :: ofText " is not null"
  | .compare column op v => .column column :: (ofText (" " ++ op.sql ++ " ") ++ [.param v])
  | .oneOf column vs => .column column :: (ofText " in (" ++ (Mark.parameters vs ++ ofText ")"))
  | .noneOf column vs =>
    .column column :: (ofText " not in (" ++ (Mark.parameters vs ++ ofText ")"))
  | .like column pattern => Mark.matching column "like" pattern
  | .notLike column pattern => Mark.matching column "not like" pattern

/-- The text of a predicate with its operands set apart. -/
def Predicate.marks : Predicate → List Mark
  | .one t => t.marks
  | .either t u => ofText "(" ++ (t.marks ++ (ofText " or " ++ (u.marks ++ ofText ")")))
  | .both t u => ofText "(" ++ (t.marks ++ (ofText " and " ++ (u.marks ++ ofText ")")))

/-- A text between parentheses, if it needs them. -/
def Mark.enclose (compound : Bool) (ms : List Mark) : List Mark :=
  if compound then ofText "(" ++ (ms ++ ofText ")") else ms

mutual

/-- The text of a clause with its operands set apart. -/
def Clause.marks : Clause → List Mark
  | .predicate p => p.marks
  | .raw t => t.flatMap fun
    | .text s => ofText s
    | .param v => [.param v]
  | .and cs => (ofText " and ").intercalate (Clause.memberMarks cs)
  | .or cs => (ofText " or ").intercalate (Clause.memberMarks cs)
  | .not c => ofText "not (" ++ (Clause.marks c ++ ofText ")")

/-- The texts of the members of a conjunction or disjunction. -/
def Clause.memberMarks : List Clause → List (List Mark)
  | [] => []
  | c :: cs => Mark.enclose c.isCompound (Clause.marks c) :: Clause.memberMarks cs

end

/-! ## The text of a clause -/

/-- Parameters of a list are written as statements write them. -/
theorem Mark.flat_parameters (vs : List Value) :
    (Mark.template (Mark.parameters vs)).flat = (Template.parameters vs).flat := by
  refine flat_intercalate ", " ?_
  induction vs with
  | nil => exact .nil
  | cons v vs ih => exact .cons rfl ih

/-- A match is written as statements write it. -/
theorem Mark.flat_matching (column keyword pattern : String) :
    (Mark.template (Mark.matching column keyword pattern)).flat =
      (Test.likeTemplate column keyword pattern).flat := by
  simp [Mark.matching, Test.likeTemplate, Template.flat]

/-- A test is written as statements write it. -/
theorem Test.flat_marks (t : Test) : (Mark.template t.marks).flat = t.template.flat := by
  cases t with
  | isNull column => simp [marks, Test.template, Template.flat]
  | isNotNull column => simp [marks, Test.template, Template.flat]
  | compare column op v => simp [marks, Test.template, Template.flat]
  | oneOf column vs => simp [marks, Test.template, Template.flat, Mark.flat_parameters]
  | noneOf column vs => simp [marks, Test.template, Template.flat, Mark.flat_parameters]
  | like column pattern => exact Mark.flat_matching column "like" pattern
  | notLike column pattern => exact Mark.flat_matching column "not like" pattern

theorem Predicate.flat_marks (p : Predicate) : (Mark.template p.marks).flat = p.template.flat := by
  cases p with
  | one t => exact t.flat_marks
  | either t u => simp [marks, Predicate.template, Template.flat, Test.flat_marks]
  | both t u => simp [marks, Predicate.template, Template.flat, Test.flat_marks]

theorem Mark.flat_enclose {ms : List Mark} {t : Template} (h : (Mark.template ms).flat = t.flat)
    (compound : Bool) :
    (Mark.template (Mark.enclose compound ms)).flat = (Clause.enclose compound t).flat := by
  cases compound <;> simp [Mark.enclose, Clause.enclose, Template.flat, h]

/-- Raw text is written as it is. -/
theorem Mark.flat_raw (t : Template) :
    (Mark.template (Clause.marks (.raw t))).flat = t.flat := by
  rw [Clause.marks]
  induction t with
  | nil => rfl
  | cons p t ih => cases p <;> simp [Template.flat, ih]

mutual

theorem Clause.flat_marks : ∀ c : Clause, (Mark.template c.marks).flat = c.template.flat
  | .predicate p => p.flat_marks
  | .raw t => Mark.flat_raw t
  | .and cs => by
    rw [Clause.marks, Clause.template]
    exact flat_intercalate " and " (Clause.flat_memberMarks cs)
  | .or cs => by
    rw [Clause.marks, Clause.template]
    exact flat_intercalate " or " (Clause.flat_memberMarks cs)
  | .not c => by simp [Clause.marks, Clause.template, Template.flat, Clause.flat_marks c]

theorem Clause.flat_memberMarks : ∀ cs : List Clause,
    List.Forall₂ (fun ms t => (Mark.template ms).flat = t.flat) (Clause.memberMarks cs)
      (Clause.memberTemplates cs)
  | [] => by
    rw [Clause.memberMarks, Clause.memberTemplates]
    exact .nil
  | c :: cs => by
    rw [Clause.memberMarks, Clause.memberTemplates]
    exact .cons (Mark.flat_enclose (Clause.flat_marks c) _) (Clause.flat_memberMarks cs)

end

/-! ## The columns of a clause -/

/-- The columns set apart in a text are known. -/
def Mark.AllKnown (known : String → Prop) (ms : List Mark) : Prop :=
  ∀ column, Mark.column column ∈ ms → known column

namespace Mark

variable {known : String → Prop}

@[simp] theorem allKnown_append (ms ns : List Mark) :
    AllKnown known (ms ++ ns) ↔ AllKnown known ms ∧ AllKnown known ns := by
  simp [AllKnown, or_imp, forall_and]

@[simp] theorem allKnown_ofText (s : String) : AllKnown known (ofText s) := by
  simp [AllKnown, ofText]

@[simp] theorem allKnown_column (column : String) (ms : List Mark) :
    AllKnown known (.column column :: ms) ↔ known column ∧ AllKnown known ms := by
  simp [AllKnown]

@[simp] theorem allKnown_param (v : Value) (ms : List Mark) :
    AllKnown known (.param v :: ms) ↔ AllKnown known ms := by
  simp [AllKnown]

@[simp] theorem allKnown_nil : AllKnown known [] := by simp [AllKnown]

/-- A separating text has no columns. -/
theorem allKnown_intercalate (s : String) : ∀ {mss : List (List Mark)},
    (∀ ms ∈ mss, AllKnown known ms) → AllKnown known ((ofText s).intercalate mss)
  | [], _ => allKnown_nil
  | [ms], h => by
    rw [List.intercalate_singleton]
    exact h ms List.mem_cons_self
  | ms :: ns :: mss, h => by
    rw [List.intercalate_cons_cons, allKnown_append, allKnown_append]
    exact ⟨⟨h ms List.mem_cons_self, allKnown_ofText s⟩,
      allKnown_intercalate s fun ms hms => h ms (List.mem_cons_of_mem _ hms)⟩

@[simp] theorem allKnown_parameters (vs : List Value) : AllKnown known (parameters vs) := by
  refine allKnown_intercalate ", " ?_
  simp

@[simp] theorem allKnown_enclose (compound : Bool) (ms : List Mark) :
    AllKnown known (enclose compound ms) ↔ AllKnown known ms := by
  cases compound <;> simp [enclose]

end Mark

section

variable {known : String → Prop}

/-- The column of a readable test is known. -/
theorem Test.allKnown_marks {t : Test} (ht : t.IsReadable known) :
    Mark.AllKnown known t.marks := by
  cases t with
  | isNull column => simpa [marks, IsReadable] using ht
  | isNotNull column => simpa [marks, IsReadable] using ht
  | compare column op v => simpa [marks, IsReadable] using ht
  | oneOf column vs => simpa [marks] using ht.1
  | noneOf column vs => simpa [marks] using ht.1
  | like column pattern => simpa [marks, Mark.matching, IsReadable] using ht
  | notLike column pattern => simpa [marks, Mark.matching, IsReadable] using ht

theorem Predicate.allKnown_marks {p : Predicate} (hp : p.IsReadable known) :
    Mark.AllKnown known p.marks := by
  cases p with
  | one t => exact Test.allKnown_marks hp
  | either t u => simp [marks, Test.allKnown_marks hp.1, Test.allKnown_marks hp.2]
  | both t u => simp [marks, Test.allKnown_marks hp.1, Test.allKnown_marks hp.2]

mutual

theorem Clause.allKnown_marks : ∀ {c : Clause}, c.IsReadable known → Mark.AllKnown known c.marks
  | .predicate p, hc => by
    rw [Clause.IsReadable] at hc
    rw [Clause.marks]
    exact Predicate.allKnown_marks hc
  | .raw t, hc => by
    rw [Clause.IsReadable] at hc
    exact hc.elim
  | .and cs, hc => by
    rw [Clause.IsReadable] at hc
    rw [Clause.marks]
    exact Mark.allKnown_intercalate " and " (Clause.allKnown_memberMarks hc.2)
  | .or cs, hc => by
    rw [Clause.IsReadable] at hc
    rw [Clause.marks]
    exact Mark.allKnown_intercalate " or " (Clause.allKnown_memberMarks hc.2)
  | .not c, hc => by
    rw [Clause.IsReadable] at hc
    simp [Clause.marks, Clause.allKnown_marks hc]

theorem Clause.allKnown_memberMarks : ∀ {cs : List Clause}, Clause.AllReadable known cs →
    ∀ ms ∈ Clause.memberMarks cs, Mark.AllKnown known ms
  | [], _ => by simp [Clause.memberMarks]
  | c :: cs, hcs => by
    rw [Clause.AllReadable] at hcs
    simp only [Clause.memberMarks, List.forall_mem_cons, Mark.allKnown_enclose]
    exact ⟨Clause.allKnown_marks hcs.1, Clause.allKnown_memberMarks hcs.2⟩

end

end

end EntitySql
