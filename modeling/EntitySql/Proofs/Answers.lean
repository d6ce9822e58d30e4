import EntitySql.Proofs.Structural

/-!
# Failures of answers

What is wrong with the answer to a statement is found after the statement was
sent: the answer has too many rows or too few, or a cell of it cannot be read.

- `Failure.IsOfAnswer`: these failures.
- `Store.countOf_ofAnswer`, `Store.decodeSingle_ofAnswer` and the like, one for each
  way in which answers are read.
-/

namespace EntitySql

/-- The failure is found in the answer to a statement. -/
def Failure.IsOfAnswer : Failure → Prop
  | .cardinality .. | .decode .. => True
  | _ => False

namespace Failure.IsOfAnswer

variable {failure : Failure}

/-- Such failures come too late to be structural. -/
theorem kind_ne_structural (h : failure.IsOfAnswer) : failure.kind ≠ .structural := by
  cases failure <;> first | exact h.elim | exact nofun

/-- The statement itself was not refused. -/
theorem kind_ne_execution (h : failure.IsOfAnswer) : failure.kind ≠ .execution := by
  cases failure <;> first | exact h.elim | exact nofun

end Failure.IsOfAnswer

namespace Store

variable {e : Entity}

/-- A count that cannot be read. -/
theorem countOf_ofAnswer (result : RowSet) : FailsAs Failure.IsOfAnswer (countOf e result) := by
  rw [countOf]
  split
  · exact .of_ok _
  · exact .of_error trivial

theorem decodeRow_ofAnswer (row : List Value) :
    FailsAs Failure.IsOfAnswer (decodeRow e row) := by
  have hcells : ∀ (fs : List Field) (place : Nat),
      FailsAs Failure.IsOfAnswer (decodeCells e row place fs) := by
    intro fs
    induction fs with
    | nil => exact fun place => .of_ok _
    | cons f fs ih =>
      intro place
      refine FailsAs.bind ?_ fun v => (ih (place + 1)).bind_ok
      rw [decodeCell]
      split
      · exact .of_error trivial
      · split
        · exact .of_ok _
        · exact .of_error trivial
  exact (hcells e.selected 0).bind_ok

theorem decodeRows_ofAnswer : ∀ rows : List (List Value),
    FailsAs Failure.IsOfAnswer (decodeRows e rows)
  | [] => .of_ok _
  | row :: rows => (decodeRow_ofAnswer row).bind fun _ => (decodeRows_ofAnswer rows).bind_ok

/-- A row that is not alone, or cannot be read. -/
theorem decodeSingle_ofAnswer (operation : String) (result : RowSet) :
    FailsAs Failure.IsOfAnswer (decodeSingle e operation result) := by
  rw [decodeSingle]
  split
  · exact decodeRow_ofAnswer _
  · exact .of_error trivial

/-- An update that changed other rows. -/
theorem expectOneChanged_ofAnswer (result : RowSet) :
    FailsAs Failure.IsOfAnswer (expectOneChanged e result) := by
  rw [expectOneChanged]
  split
  · split
    · exact .of_ok _
    · exact .of_error trivial
  · exact .of_ok _

end Store

end EntitySql
