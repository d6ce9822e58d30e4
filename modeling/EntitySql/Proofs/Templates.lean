import EntitySql.Proofs.Outcomes
import EntitySql.Store.Statements
import Mathlib.Data.List.Forall2

/-!
# The templates of statements

A statement is built in steps, and any of them may fail. Once all have
succeeded, the statement is put together of what they gave, and a proof about
statements starts from these parts.

- `Store.columnTexts_eq_ok`: lists of columns.
- `Store.countStatement_eq_ok`, `Store.findStatement_eq_ok`,
  `Store.selectStatement_eq_ok`: statements that read rows.
- `Store.insertStatement_eq_ok`, `Store.updateStatement_eq_ok`,
  `Store.deleteStatement_eq_ok`, `Store.bulkStatement_eq_ok`: statements that
  write rows.
-/

namespace EntitySql

namespace Store

variable {e : Entity} {names : EntityNames} {d : Dialect} {t : Template}

/-! ## Columns -/

/-- There is a text for each field, in the order of the fields. -/
theorem columnTexts_eq_ok {fs : List Field} {columns : List String} :
    columnTexts names fs = .ok columns ↔
      List.Forall₂ (fun f column => names.columnOf f.key = .ok column) fs columns := by
  induction fs generalizing columns with
  | nil => rw [columnTexts, List.forall₂_nil_left_iff, Except.ok.injEq, eq_comm]
  | cons f fs ih =>
    simp only [columnTexts, bind_eq_ok, Except.ok.injEq, ih, List.forall₂_cons_left_iff]
    constructor
    · rintro ⟨column, hcolumn, rest, hrest, rfl⟩
      exact ⟨column, rest, hcolumn, hrest, rfl⟩
    · rintro ⟨column, rest, hcolumn, hrest, rfl⟩
      exact ⟨column, hcolumn, rest, hrest, rfl⟩

/-! ## Reading -/

theorem countStatement_eq_ok {f : Filter} : countStatement e names f = .ok t ↔
    ∃ clause, f.whereClause e names = .ok clause ∧
      t = .text ("select count(*) as count from " ++ names.table) :: clause := by
  simp only [countStatement, bind_eq_ok, Except.ok.injEq, eq_comm (a := t)]

theorem findStatement_eq_ok {o : FindOptions} : findStatement e names d o = .ok t ↔
    ∃ columns, selectList e names = .ok columns ∧
    ∃ clause, optionalClause e names o.filter = .ok clause ∧
    ∃ order, (o.rowOrder e).orderBy names d.capabilities.nullsFirst = .ok order ∧
    ∃ page, o.pageText d = .ok page ∧
      t = .text ("select " ++ columns ++ " from " ++ names.table) :: clause ++
        [.text (" order by " ++ order ++ page)] := by
  simp only [findStatement, bind_eq_ok, Except.ok.injEq, eq_comm (a := t)]

theorem selectStatement_eq_ok {f : Filter} : selectStatement e names f = .ok t ↔
    ∃ clause, f.whereClause e names = .ok clause ∧
    ∃ columns, selectList e names = .ok columns ∧
      t = .text ("select " ++ columns ++ " from " ++ names.table) :: clause := by
  simp only [selectStatement, bind_eq_ok, Except.ok.injEq, eq_comm (a := t)]

/-! ## Writing -/

/-- Rows that were written are asked for with a list of columns, or not at all. -/
theorem returningClause_eq_ok : returningClause e names d = .ok t ↔
    if d.capabilities.returning then
      ∃ columns, selectList e names = .ok columns ∧ t = [.text (" returning " ++ columns)]
    else t = [] := by
  rw [returningClause]
  split
  · simp only [bind_eq_ok, Except.ok.injEq, eq_comm (a := t)]
  · rw [Except.ok.injEq, eq_comm]

/-- An insertion names the columns that it writes, unless it writes none. -/
theorem insertStatement_eq_ok {data : Record} : insertStatement e names d data = .ok t ↔
    ∃ written, writtenValues e data true = .ok written ∧
    ∃ insert, (written = [] ∧
          insert = [.text ("insert into " ++ names.table ++ " default values")] ∨
        written ≠ [] ∧ ∃ columns, columnTexts names (written.map Prod.fst) = .ok columns ∧
          insert = .text (insertHead names columns) :: tuple (written.map Prod.snd)) ∧
    ∃ returning, returningClause e names d = .ok returning ∧ t = insert ++ returning := by
  rw [insertStatement, bind_eq_ok]
  refine exists_congr fun written => and_congr_right fun _ => ?_
  cases written with
  | nil => simp [bind_eq_ok, eq_comm (a := t)]
  | cons a written =>
    constructor
    · intro h
      obtain ⟨columns, hcolumns, h⟩ := bind_eq_ok.1 h
      obtain ⟨insert, hinsert, h⟩ := bind_eq_ok.1 h
      obtain ⟨returning, hreturning, heq⟩ := bind_eq_ok.1 h
      cases hinsert
      cases heq
      exact ⟨_, .inr ⟨List.cons_ne_nil _ _, columns, hcolumns, rfl⟩, returning, hreturning, rfl⟩
    · rintro ⟨_, ⟨hnil, -⟩ | ⟨-, columns, hcolumns, rfl⟩, returning, hreturning, rfl⟩
      · cases hnil
      · exact bind_eq_ok.2 ⟨columns, hcolumns, bind_eq_ok.2 ⟨_, rfl,
          bind_eq_ok.2 ⟨returning, hreturning, rfl⟩⟩⟩

theorem updateStatement_eq_ok {identity : Record} {written : List (Field × Value)} :
    updateStatement e names d identity written = .ok t ↔
      ∃ columns, columnTexts names (written.map Prod.fst) = .ok columns ∧
      ∃ clause, (identityFilter identity).whereClause e names = .ok clause ∧
      ∃ returning, returningClause e names d = .ok returning ∧
        t = .text ("update " ++ names.table ++ " set ") ::
          assignments columns (written.map Prod.snd) ++ clause ++ returning := by
  simp only [updateStatement, bind_eq_ok, Except.ok.injEq, eq_comm (a := t)]

theorem deleteStatement_eq_ok {identity : Record} : deleteStatement e names identity = .ok t ↔
    ∃ clause, (identityFilter identity).whereClause e names = .ok clause ∧
      t = .text ("delete from " ++ names.table) :: clause := by
  simp only [deleteStatement, bind_eq_ok, Except.ok.injEq, eq_comm (a := t)]

theorem bulkStatement_eq_ok {fields : List Field} {rows : List (List (Field × Value))} :
    bulkStatement names fields rows = .ok t ↔
      ∃ columns, columnTexts names fields = .ok columns ∧
        t = .text (insertHead names columns) ::
          Template.separated ", " (rows.map fun row => tuple (fields.map (valueFor row))) := by
  simp only [bulkStatement, bind_eq_ok, Except.ok.injEq, eq_comm (a := t)]

end Store

end EntitySql
