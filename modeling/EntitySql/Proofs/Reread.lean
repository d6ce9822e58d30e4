import EntitySql.Proofs.Exchange
import EntitySql.Proofs.Pins
import EntitySql.Proofs.Requests
import EntitySql.Proofs.Templates
import EntitySql.Proofs.Truth

/-!
# Rows that are read again

A database that does not give the rows that it writes is asked for the row
afterwards, by its identity. The statement that writes and the one that reads
decide in different places what the identity is: the first one writes the
fields that statements may write, the second one takes what the record has. If
they disagree, the row that is read is not the one that was written.

- `Store.Updated`, `Store.Inserted`: statements that have written a row.
- `Field.KeepsPlace`: the second statement asks a field for what it then holds.
- `Store.Updated.rereads`, `Store.Inserted.rereads`: what the second statement
  asks for, when this is the row that was written, and that the result then is
  the same for all databases.
-/

namespace EntitySql

open Store

/-- The same store in a database that gives the rows it writes, or does not. -/
def Store.withReturning (st : Store) (returning : Bool) : Store :=
  { st with database := { st.database with dialect := { st.database.dialect with
      capabilities := { st.database.dialect.capabilities with returning } } } }

/-! ## The identity after an update -/

/-- The value of an identity field that an update looks for afterwards. -/
def Store.currentValue (data : Record) (key : String) (v : Value) : Value :=
  match data.get? key with
  | some changed => if changed.isNull then v else changed
  | none => v

/-- The value of a field after an update: the one that was written, or else the one before. -/
def Field.updatedValue (f : Field) (written : List (Field × Value)) (v : Value) : Value :=
  (assigned written f.key).getD (f.converter.stored v)

/-- An update with a record looks for what the field then holds, if it held `v` before: a field
that statements may write is not set to NULL, and the record has no other value for a field that
they only read. -/
def Field.KeepsPlace (f : Field) (data : Record) (v : Value) : Prop :=
  ∀ changed, data.get? f.key = some changed →
    if f.isReadOnly then
      changed.isNull = true ∨ f.converter.toStored changed = .ok (f.converter.stored v)
    else changed.isNull = false

namespace Store

/-- The entries of the identity after an update. -/
theorem entries_currentIdentity (before data : Record) :
    (currentIdentity before data).entries =
      before.entries.map fun a => (a.1, currentValue data a.1 a.2) := by
  have hpairs : currentIdentity before data =
      Record.ofPairs (before.entries.map fun a => (a.1, currentValue data a.1 a.2)) := by
    refine congrArg Record.ofPairs (List.map_congr_left fun a _ => ?_)
    dsimp only [currentValue]
    cases data.get? a.1 with
    | none => rfl
    | some changed =>
      dsimp only
      cases changed.isNull <;> rfl
  rw [hpairs]
  exact Record.entries_ofPairs (List.pairwise_map.2 before.ascending)

theorem isNull_currentValue {data : Record} {key : String} {v : Value} (h : v.isNull = false) :
    (currentValue data key v).isNull = false := by
  unfold currentValue
  split
  · split
    · exact h
    · next hnull => simpa using hnull
  · exact h

/-- An update looks for a value in each identity field that had one. -/
theorem get?_currentIdentity {before data : Record} {key : String} {v : Value}
    (h : before.get? key = some v) :
    (currentIdentity before data).get? key = some (currentValue data key v) := by
  refine Record.get?_of_mem ?_
  rw [entries_currentIdentity]
  exact List.mem_map.2 ⟨(key, v), Record.mem_of_get? h, rfl⟩

theorem isIdentity_currentIdentity {e : Entity} {before : Record} (h : before.IsIdentity e)
    (data : Record) : (currentIdentity before data).IsIdentity e := by
  refine ⟨fun key hkey => ?_, fun key w hw => ?_⟩
  · obtain ⟨v, hv⟩ := h.complete key hkey
    exact ⟨_, get?_currentIdentity hv⟩
  · have hmem := Record.mem_of_get? hw
    rw [entries_currentIdentity] at hmem
    obtain ⟨⟨k, v⟩, ha, heq⟩ := List.mem_map.1 hmem
    cases heq
    obtain ⟨hkey, hnull⟩ := h.only k v (Record.get?_of_mem ha)
    exact ⟨hkey, isNull_currentValue hnull⟩

/-- An update looks for what a field then holds exactly if the field keeps its place. -/
theorem toStored_currentValue_iff {e : Entity} (he : e.IsSound) {data : Record}
    {written : List (Field × Value)} (hwritten : writtenValues e data false = .ok written)
    {f : Field} (hf : f ∈ e.fields) {v : Value} (hnull : v.isNull = false)
    (hv : f.converter.toStored v = .ok (f.converter.stored v)) :
    f.converter.toStored (currentValue data f.key v) = .ok (f.updatedValue written v) ↔
      f.KeepsPlace data v := by
  obtain ⟨hread, hwrite⟩ := assigned_writtenValues he hwritten hf
  unfold currentValue Field.updatedValue Field.KeepsPlace
  cases hget : data.get? f.key with
  | none =>
    have hnone : assigned written f.key = none := by
      cases hreadOnly : f.isReadOnly with
      | true => exact hread hreadOnly
      | false => rw [(hwrite hreadOnly).1, Field.given_false, hget, Option.map_none]
    simp [hnone, hv]
  | some changed =>
    cases hreadOnly : f.isReadOnly with
    | true =>
      rw [hread hreadOnly]
      cases hchanged : changed.isNull <;> simp [hchanged, hv]
    | false =>
      obtain ⟨hgiven, hstored⟩ := hwrite hreadOnly
      rw [Field.given_false, hget, Option.map_some] at hgiven
      have hchanged' := hstored changed hget
      cases hchanged : changed.isNull with
      | false => simp [hgiven, hchanged, hchanged']
      | true =>
        -- the column is set to NULL, and the value before is not NULL
        have hne : f.converter.stored v ≠ f.converter.stored changed := by
          intro heq
          rw [← Converter.isNull_of_toStored hv, heq, Converter.isNull_of_toStored hchanged',
            hchanged] at hnull
          cases hnull
        simp [hgiven, hchanged, hv, hne]

/-! ## Statements that have written a row -/

/-- The statement that reads the rows with the values that columns are asked for. -/
def readTemplate (names : EntityNames) (columns : String) (pins : List (String × Value)) :
    Template :=
  .text ("select " ++ columns ++ " from " ++ names.table) :: .text " where " :: pinTemplate pins

/-- The statement that reads the row of an identity. -/
theorem selectStatement_identityFilter {e : Entity} (he : e.IsSound) {names : EntityNames}
    {r : Record} (hr : r.IsIdentity e) {pins : List (String × Value)}
    (hpins : e.pins names r.entries = .ok pins) {columns : String}
    (hcolumns : selectList e names = .ok columns) :
    selectStatement e names (identityFilter r) = .ok (readTemplate names columns pins) := by
  rw [selectStatement, whereClause_identityFilter he hr, hpins, ok_bind, ok_bind, hcolumns]
  rfl

/-- An update whose statement has changed one row, as far as the database says. -/
structure Updated (st : Store) (id : RowId) (data : Record) (s : Session) where
  /-- The identity before. -/
  before : Record
  names : EntityNames
  written : List (Field × Value)
  statement : Template
  result : RowSet
  /-- The session in which the names have become known. -/
  named : Session
  /-- The session in which the statement has been answered. -/
  sent : Session
  before_eq : identityValues st.entity "update" id = .ok before
  names_eq : st.database.names st.entity s = (.ok names, named)
  written_eq : writtenValues st.entity data false = .ok written
  written_ne : written.isEmpty = false
  statement_eq : updateStatement st.entity names st.database.dialect before written = .ok statement
  sent_eq : st.database.send statement named = (.ok result, sent)
  one : expectOneChanged st.entity result = .ok ()

/-- An insert whose statement has been answered. -/
structure Inserted (st : Store) (data : Record) (s : Session) where
  names : EntityNames
  written : List (Field × Value)
  statement : Template
  result : RowSet
  /-- The session in which the names have become known. -/
  named : Session
  /-- The session in which the statement has been answered. -/
  sent : Session
  names_eq : st.database.names st.entity s = (.ok names, named)
  written_eq : writtenValues st.entity data true = .ok written
  statement_eq : insertStatement st.entity names st.database.dialect data = .ok statement
  sent_eq : st.database.send statement named = (.ok result, sent)

section

variable {st : Store} {id : RowId} {data : Record} {s : Session}

/-- The session after a statement that was answered, and after its change was signalled. -/
theorem exists_signalled {names : EntityNames} {named sent : Session} {statement : Template}
    {result : RowSet} (hnames : st.database.names st.entity s = (.ok names, named))
    (hsent : st.database.send statement named = (.ok result, sent)) :
    ∃ t, st.database.signalChange sent = (.ok (), t) ∧
      st.database.names st.entity t = (.ok names, t) ∧
      t.isOpen st.database.scope = true ∧
      t.statements = s.statements ++ [statement.statement st.database.dialect.style] ∧
      t.scripted = sent.scripted := by
  obtain ⟨hstatements, _, hknown⟩ := Database.names_ok hnames
  obtain ⟨hopen, hsentStatements, hscopes, _⟩ := Database.send_ok hsent
  obtain ⟨t, ht, htStatements, htScripted, htScopes⟩ :
      ∃ t, st.database.signalChange sent = (.ok (), t) ∧ _ := Database.signalChange_eq
  refine ⟨t, ht, hknown t (htScopes.trans hscopes), ?_, ?_, htScripted⟩
  · rw [Session.isOpen, htScopes, hscopes]
    exact hopen
  · rw [htStatements, hsentStatements, hstatements]

theorem Updated.update_after (u : st.Updated id data s) :
    st.update id data s = st.afterUpdate u.before data u.result u.sent := by
  rw [update_eq, Action.bind_of_ok (Action.lift_of_ok u.before_eq), Action.bind_of_ok u.names_eq,
    updateWith, Action.bind_of_ok (Action.lift_of_ok u.written_eq), u.written_ne]
  simp only [Bool.false_eq_true, if_false]
  rw [Action.bind_of_ok (Action.lift_of_ok u.statement_eq), Action.bind_of_ok u.sent_eq]

/-- What comes after the statement of an update in a database that does not give the rows it
writes: the row is read. -/
theorem Updated.update_eq (u : st.Updated id data s)
    (hreturning : st.database.dialect.capabilities.returning = false) {t : Session}
    (ht : st.database.signalChange u.sent = (.ok (), t)) :
    st.update id data s =
      st.findOne "update" (identityFilter (currentIdentity u.before data)) t := by
  rw [u.update_after, afterUpdate, if_neg (Bool.not_eq_true _ ▸ hreturning),
    Action.bind_of_ok (Action.lift_of_ok u.one), Action.bind_of_ok ht]

theorem Updated.update_returning (u : st.Updated id data s)
    (hreturning : st.database.dialect.capabilities.returning = true) :
    (st.update id data s).1 = decodeSingle st.entity "update" u.result := by
  rw [u.update_after, afterUpdate, if_pos hreturning]
  cases hrow : decodeSingle st.entity "update" u.result with
  | error f => rw [Action.bind_of_error (Action.lift_of_error rfl)]
  | ok row =>
    obtain ⟨t, ht, _⟩ : ∃ t, st.database.signalChange u.sent = (.ok (), t) ∧ _ :=
      Database.signalChange_eq
    rw [Action.bind_of_ok (Action.lift_of_ok rfl), Action.bind_of_ok ht]
    rfl

theorem Inserted.insert_after (i : st.Inserted data s) : st.insert data s =
    st.afterInsert data (i.statement.sql st.database.dialect.style) i.result i.sent := by
  rw [Store.insert_eq, Action.bind_of_ok i.names_eq,
    Action.bind_of_ok (Action.lift_of_ok i.statement_eq), Action.bind_of_ok i.sent_eq]

/-- What comes after the statement of an insert, if the database neither numbers the row nor
gives it: the row is read. -/
theorem Inserted.insert_eq (i : st.Inserted data s)
    (hreturning : st.database.dialect.capabilities.returning = false)
    (hauto : st.entity.autoIdentity? = none) {identity : Record}
    (hidentity : identityValues st.entity "insert" (.compound data) = .ok identity) {t : Session}
    (ht : st.database.signalChange i.sent = (.ok (), t)) :
    st.insert data s = st.findOne "insert" (identityFilter identity) t := by
  have hfilter : insertedFilter st data (i.statement.sql st.database.dialect.style) i.result =
      .ok (identityFilter identity) := by
    rw [insertedFilter, hauto]
    simp only [hidentity, ok_bind]
  rw [i.insert_after, afterInsert, if_neg (Bool.not_eq_true _ ▸ hreturning),
    Action.bind_of_ok ht, Action.bind_of_ok (Action.lift_of_ok hfilter)]

end

/-! ## The row in its table -/

end Store

/-- A row has the values that its columns are asked for. -/
def Engine.meets (g : Engine) (pins : List (String × Value)) (row : Row) : Bool :=
  pins.all fun p => g.compare .eq (row p.1) p.2 == .yes

/-- A row has all values that its columns are asked for. -/
theorem Engine.meets_iff {g : Engine} {pins : List (String × Value)} {row : Row} :
    g.meets pins row = true ↔
      ∀ column w, (column, w) ∈ pins → g.compare .eq (row column) w = .yes := by
  simp [meets, List.all_eq_true]

theorem Engine.compare_self {g : Engine} (hrefl : ∀ v, v.isNull = false → g.holds .eq v v = true)
    {v : Value} (h : v.isNull = false) : g.compare .eq v v = .yes := by
  simp [compare, h, hrefl v h, Truth.ofBool]

namespace Store

variable {st : Store} {id : RowId} {data : Record} {s : Session}

/-- What an update does to a table with the rows `old` and `others`: the row `old` becomes
`new`. -/
structure Updated.InTable (u : st.Updated id data s) (g : Engine) (old new : Row)
    (others : List Row) : Prop where
  /-- The row has the identity before. -/
  found : ∀ pins, st.entity.pins u.names u.before.entries = .ok pins → g.meets pins old = true
  /-- What is written to a field is in its column; the other columns are as they were. -/
  set : ∀ key column, u.names.columnOf key = .ok column →
    new column = (assigned u.written key).getD (old column)
  /-- No other row has the identity that the row has now. -/
  alone : ∀ row ∈ others, ¬ ∀ a ∈ u.before.entries, ∀ f column,
    Condition.lookUp st.entity u.names a.1 = .ok (f, column) →
      g.compare .eq (row column) (f.updatedValue u.written a.2) = .yes

/-- An update finds the place of the row afterwards: each identity field keeps its place. -/
def Updated.KeepsPlace (u : st.Updated id data s) : Prop :=
  ∀ key v f, u.before.get? key = some v → st.entity.field key = .ok f → f.KeepsPlace data v

/-- What an update does to find the row that it has written. -/
structure Updated.Rereads (u : st.Updated id data s) : Prop where
  /-- There is a value to look for in each identity field. -/
  complete : ∀ key ∈ st.entity.identity, ∃ v, u.before.get? key = some v ∧
    (currentIdentity u.before data).get? key = some (currentValue data key v)
  /-- The row is read by these values. -/
  asks : ∀ pins columns,
    st.entity.pins u.names (currentIdentity u.before data).entries = .ok pins →
    selectList st.entity u.names = .ok columns →
      (st.update id data s).2.statements = s.statements ++
        [u.statement.statement st.database.dialect.style,
          (readTemplate u.names columns pins).statement st.database.dialect.style]
  /-- The value that is looked for in a field is the one that it holds after the update exactly
  if the field keeps its place. -/
  exact_iff : ∀ key v f, u.before.get? key = some v → st.entity.field key = .ok f →
    (f.converter.toStored (currentValue data key v) = .ok (f.updatedValue u.written v) ↔
      f.KeepsPlace data v)
  /-- If all of them do, there is something to ask for: each column for what the field then
  holds. -/
  asks_written : u.KeepsPlace → ∃ pins,
    st.entity.pins u.names (currentIdentity u.before data).entries = .ok pins ∧
    ∀ column w, (column, w) ∈ pins ↔ ∃ a ∈ u.before.entries, ∃ f,
      Condition.lookUp st.entity u.names a.1 = .ok (f, column) ∧
        w = f.updatedValue u.written a.2
  /-- Then the row that is read from the table is the one that was written. It is what the update
  gives in a database that answers with the rows it writes. -/
  same_row : u.KeepsPlace → ∀ (g : Engine), (∀ v, v.isNull = false → g.holds .eq v v = true) →
    ∀ old new others, u.InTable g old new others →
    ∀ columns, columnTexts u.names st.entity.selected = .ok columns →
    ∀ answer rest, u.sent.scripted = .rows answer :: rest →
    (∀ pins, st.entity.pins u.names (currentIdentity u.before data).entries = .ok pins →
      answer.rows = ((new :: others).filter (g.meets pins)).map fun row => columns.map row) →
      (st.update id data s).1 = decodeRow st.entity (columns.map new) ∧
      ∀ s' (u' : (st.withReturning true).Updated id data s'),
        u'.result.rows = [columns.map new] →
          ((st.withReturning true).update id data s').1 = (st.update id data s).1

section

variable (u : st.Updated id data s)

theorem Updated.exists_before_pins (he : st.entity.IsSound) :
    ∃ pins, st.entity.pins u.names u.before.entries = .ok pins := by
  have hbefore := identityValues_complete u.before_eq
  obtain ⟨columns, -, clause, hclause, -⟩ := updateStatement_eq_ok.1 u.statement_eq
  obtain ⟨pins, hpins, -⟩ := exists_pins_of_whereClause he hbefore hclause
  exact ⟨pins, hpins⟩

theorem Updated.exists_field (he : st.entity.IsSound) {a : String × Value}
    (ha : a ∈ u.before.entries) : ∃ f column,
      Condition.lookUp st.entity u.names a.1 = .ok (f, column) ∧
        f.converter.toStored a.2 = .ok (f.converter.stored a.2) := by
  obtain ⟨pins, hpins⟩ := u.exists_before_pins he
  obtain ⟨f, column, w, hlook, hw⟩ := lookUp_of_pins hpins a ha
  exact ⟨f, column, hlook, by rw [hw, Converter.stored_of_toStored hw]⟩

/-- An update looks for what an identity field then holds exactly if the field keeps its place. -/
theorem Updated.exact_iff (he : st.entity.IsSound)
    {key : String} {v : Value} {f : Field} (hv : u.before.get? key = some v)
    (hf : st.entity.field key = .ok f) :
    f.converter.toStored (currentValue data key v) = .ok (f.updatedValue u.written v) ↔
      f.KeepsPlace data v := by
  obtain ⟨hmem, rfl⟩ := Entity.mem_of_field hf
  obtain ⟨g, column, hlook, hstored⟩ := u.exists_field he (Record.mem_of_get? hv)
  obtain ⟨hg, hkey⟩ := Condition.mem_of_lookUp hlook
  rw [he.eq_of_key hg hmem hkey] at hstored
  exact toStored_currentValue_iff he u.written_eq hmem
    ((identityValues_complete u.before_eq).only f.key v hv).2 hstored

/-- If all identity fields keep their places, what is looked for are the values that they then
hold. -/
theorem Updated.toStored_current (he : st.entity.IsSound) (hkeeps : u.KeepsPlace)
    {a : String × Value} (ha : a ∈ u.before.entries) {f : Field} {column : String}
    (hlook : Condition.lookUp st.entity u.names a.1 = .ok (f, column)) :
    f.converter.toStored (currentValue data a.1 a.2) = .ok (f.updatedValue u.written a.2) := by
  have hget := Record.get?_of_mem ha
  have hf := (Condition.lookUp_eq_ok.1 hlook).1
  exact (u.exact_iff he hget hf).2 (hkeeps a.1 a.2 f hget hf)

theorem Updated.mem_pins_iff (he : st.entity.IsSound)
    (hkeeps : u.KeepsPlace) {pins : List (String × Value)}
    (hpins : st.entity.pins u.names (currentIdentity u.before data).entries = .ok pins)
    {column : String} {w : Value} :
    (column, w) ∈ pins ↔ ∃ a ∈ u.before.entries, ∃ f,
      Condition.lookUp st.entity u.names a.1 = .ok (f, column) ∧
        w = f.updatedValue u.written a.2 := by
  rw [entries_currentIdentity] at hpins
  rw [mem_pins hpins]
  constructor
  · rintro ⟨b, hb, f, hlook, hw⟩
    obtain ⟨a, ha, rfl⟩ := List.mem_map.1 hb
    rw [u.toStored_current he hkeeps ha hlook] at hw
    cases hw
    exact ⟨a, ha, f, hlook, rfl⟩
  · rintro ⟨a, ha, f, hlook, rfl⟩
    exact ⟨_, List.mem_map.2 ⟨a, ha, rfl⟩, f, hlook,
      u.toStored_current he hkeeps ha hlook⟩

/-- If all identity fields keep their places, there is something to ask for. -/
theorem Updated.exists_current_pins (he : st.entity.IsSound) (hkeeps : u.KeepsPlace) :
    ∃ pins, st.entity.pins u.names (currentIdentity u.before data).entries = .ok pins := by
  refine exists_pins fun b hb => ?_
  rw [entries_currentIdentity, List.mem_map] at hb
  obtain ⟨a, ha, rfl⟩ := hb
  obtain ⟨f, column, hlook, _⟩ := u.exists_field he ha
  exact ⟨f, column, _, hlook, u.toStored_current he hkeeps ha hlook⟩

/-- If all identity fields keep their places, the row that was written is the one that is found. -/
theorem Updated.filter_meets (he : st.entity.IsSound)
    (hkeeps : u.KeepsPlace) {g : Engine}
    (hrefl : ∀ v, v.isNull = false → g.holds .eq v v = true) {old new : Row} {others : List Row}
    (h : u.InTable g old new others) {pins : List (String × Value)}
    (hpins : st.entity.pins u.names (currentIdentity u.before data).entries = .ok pins) :
    (new :: others).filter (g.meets pins) = [new] := by
  have hnew : g.meets pins new = true := by
    refine Engine.meets_iff.2 fun column w hw => ?_
    obtain ⟨a, ha, f, hlook, rfl⟩ := (u.mem_pins_iff he hkeeps hpins).1 hw
    have hkey := (Condition.mem_of_lookUp hlook).2
    have hset := h.set a.1 column (Condition.lookUp_eq_ok.1 hlook).2
    rw [Field.updatedValue, hkey, hset]
    cases hassigned : assigned u.written a.1 with
    | some x =>
      have hstored := u.toStored_current he hkeeps ha hlook
      rw [Field.updatedValue, hkey, hassigned] at hstored
      refine g.compare_self hrefl ?_
      rw [Option.getD_some] at hstored ⊢
      rw [Converter.isNull_of_toStored hstored]
      exact isNull_currentValue ((identityValues_complete u.before_eq).isNull_of_mem ha)
    | none =>
      -- the column is as it was when the statement found the row
      obtain ⟨asked, hasked⟩ := u.exists_before_pins he
      obtain ⟨f', column', hlook', hstored⟩ := u.exists_field he ha
      rw [hlook] at hlook'
      cases hlook'
      exact Engine.meets_iff.1 (h.found asked hasked) column _
        ((mem_pins hasked).2 ⟨a, ha, f, hlook, hstored⟩)
  have hothers : others.filter (g.meets pins) = [] := by
    refine List.filter_eq_nil_iff.2 fun row hrow hmeets => h.alone row hrow ?_
    intro a ha f column hlook
    exact Engine.meets_iff.1 hmeets column _
      ((u.mem_pins_iff he hkeeps hpins).2 ⟨a, ha, f, hlook, rfl⟩)
  rw [List.filter_cons_of_pos hnew, hothers]

/-- What an update does to find the row that it has written. -/
theorem Updated.rereads (he : st.entity.IsSound)
    (hreturning : st.database.dialect.capabilities.returning = false) : u.Rereads := by
  obtain ⟨t, ht, hnames, hopen, hstatements, hscripted⟩ := exists_signalled u.names_eq u.sent_eq
  have hrun := u.update_eq hreturning ht
  have hbefore := identityValues_complete u.before_eq
  have hcurrent := isIdentity_currentIdentity hbefore data
  refine ⟨?_, ?_, fun key v f hv hf => u.exact_iff he hv hf, fun hkeeps => ?_, ?_⟩
  · intro key hkey
    obtain ⟨v, hv⟩ := hbefore.complete key hkey
    exact ⟨v, hv, get?_currentIdentity hv⟩
  · intro pins columns hpins hcolumns
    have hselect := selectStatement_identityFilter he hcurrent hpins hcolumns
    rw [hrun, (findOne_of_known hnames hopen hselect "update").1, hstatements, List.append_assoc]
    rfl
  · obtain ⟨pins, hpins⟩ := u.exists_current_pins he hkeeps
    exact ⟨pins, hpins, fun column w => u.mem_pins_iff he hkeeps hpins⟩
  · intro hkeeps g hrefl old new others hrow columns hcolumns answer rest hanswer hrows
    obtain ⟨pins, hpins⟩ := u.exists_current_pins he hkeeps
    have hlist : selectList st.entity u.names = .ok (String.intercalate ", " columns) := by
      rw [selectList, hcolumns, ok_bind]
    have hselect := selectStatement_identityFilter he hcurrent hpins hlist
    have hresult := (findOne_of_known hnames hopen hselect "update").2 answer rest
      (hscripted.trans hanswer)
    have hsingle : answer.rows = [columns.map new] := by
      rw [hrows pins hpins, u.filter_meets he hkeeps hrefl hrow hpins]
      rfl
    have hdecode : (st.update id data s).1 = decodeRow st.entity (columns.map new) := by
      rw [hrun, hresult, decodeSingle, hsingle]
    refine ⟨hdecode, fun s' u' hrows' => ?_⟩
    rw [hdecode, u'.update_returning rfl, decodeSingle, hrows']
    rfl

end

/-! ## Rows that were inserted -/

/-- What an insert does to find the row that it has written, if the database did not number it. -/
structure Inserted.Rereads (i : st.Inserted data s) : Prop where
  /-- There is an identity exactly if the record has a value for each identity field. -/
  complete : (∃ identity, identityValues st.entity "insert" (.compound data) = .ok identity) ↔
    ∀ key ∈ st.entity.identity, ∃ v, data.get? key = some v ∧ v.isNull = false
  /-- The row is read by the values in the record. -/
  asks : ∀ identity pins columns,
    identityValues st.entity "insert" (.compound data) = .ok identity →
    st.entity.pins i.names identity.entries = .ok pins →
    selectList st.entity i.names = .ok columns →
      (∀ key ∈ st.entity.identity, identity.get? key = data.get? key) ∧
      (st.insert data s).2.statements = s.statements ++
        [i.statement.statement st.database.dialect.style,
          (readTemplate i.names columns pins).statement st.database.dialect.style]
  /-- The value that is looked for in a field was written to it exactly if statements may write
  the field. -/
  exact_iff : ∀ identity key v f,
    identityValues st.entity "insert" (.compound data) = .ok identity →
    identity.get? key = some v → st.entity.field key = .ok f →
      ((∃ w, f.converter.toStored v = .ok w ∧ assigned i.written key = some w) ↔
        f.isReadOnly = false)
  /-- If they may write all of them, there is something to ask for: each column for what was
  written to it. -/
  asks_written : ∀ identity,
    identityValues st.entity "insert" (.compound data) = .ok identity →
    (∀ key ∈ st.entity.identity, ∀ f, st.entity.field key = .ok f → f.isReadOnly = false) →
      ∃ pins, st.entity.pins i.names identity.entries = .ok pins ∧
        ∀ column w, (column, w) ∈ pins → ∃ key ∈ st.entity.identity,
          i.names.columnOf key = .ok column ∧ assigned i.written key = some w

section

variable (i : st.Inserted data s)

/-- What an insert looks for in a field was written to it exactly if statements may write the
field. -/
theorem Inserted.exact_iff (he : st.entity.IsSound) {identity : Record}
    (h : identityValues st.entity "insert" (.compound data) = .ok identity) {key : String}
    {v : Value} {f : Field} (hv : identity.get? key = some v) (hf : st.entity.field key = .ok f) :
    (∃ w, f.converter.toStored v = .ok w ∧ assigned i.written key = some w) ↔
      f.isReadOnly = false := by
  obtain ⟨hmem, rfl⟩ := Entity.mem_of_field hf
  obtain ⟨hcomplete, hget⟩ := identityValues_compound h
  obtain ⟨hkey, hnull⟩ := hcomplete.only f.key v hv
  rw [hget f.key hkey] at hv
  obtain ⟨hread, hwrite⟩ := assigned_writtenValues he i.written_eq hmem
  constructor
  · rintro ⟨w, _, hw⟩
    cases hreadOnly : f.isReadOnly with
    | false => rfl
    | true =>
      rw [hread hreadOnly] at hw
      cases hw
  · intro hreadOnly
    obtain ⟨hgiven, hstored⟩ := hwrite hreadOnly
    -- a value that is not NULL is not left out of the statement
    have hstoredNull : (f.converter.stored v).isNull = false := by
      rw [Converter.isNull_of_toStored (hstored v hv), hnull]
    refine ⟨_, hstored v hv, ?_⟩
    rw [hgiven, Field.given, hv]
    simp [Option.filter, hstoredNull]

theorem Inserted.exists_pins (he : st.entity.IsSound) {identity : Record}
    (h : identityValues st.entity "insert" (.compound data) = .ok identity)
    (hwritable : ∀ key ∈ st.entity.identity, ∀ f, st.entity.field key = .ok f →
      f.isReadOnly = false) :
    ∃ pins, st.entity.pins i.names identity.entries = .ok pins ∧
      ∀ column w, (column, w) ∈ pins → ∃ key ∈ st.entity.identity,
        i.names.columnOf key = .ok column ∧ assigned i.written key = some w := by
  have hentry : ∀ a ∈ identity.entries, a.1 ∈ st.entity.identity ∧ ∃ f column w,
      Condition.lookUp st.entity i.names a.1 = .ok (f, column) ∧
      f.converter.toStored a.2 = .ok w ∧ assigned i.written a.1 = some w := by
    intro a ha
    have hget := Record.get?_of_mem ha
    have hkey := ((identityValues_compound h).1.only a.1 a.2 hget).1
    obtain ⟨f, hf, _⟩ := he.identity_found a.1 hkey
    obtain ⟨w, hw, hassigned⟩ := (i.exact_iff he h hget hf).2 (hwritable a.1 hkey f hf)
    obtain ⟨column, hcolumn⟩ := columnOf_of_insertStatement i.written_eq i.statement_eq hassigned
    exact ⟨hkey, f, column, w, Condition.lookUp_eq_ok.2 ⟨hf, hcolumn⟩, hw, hassigned⟩
  obtain ⟨pins, hpins⟩ : ∃ pins, st.entity.pins i.names identity.entries = .ok pins := by
    refine EntitySql.exists_pins fun a ha => ?_
    obtain ⟨_, f, column, w, hlook, hw, _⟩ := hentry a ha
    exact ⟨f, column, w, hlook, hw⟩
  refine ⟨pins, hpins, fun column w hmem => ?_⟩
  obtain ⟨a, ha, f, hlook, hw⟩ := (mem_pins hpins).1 hmem
  obtain ⟨hkey, f', column', w', hlook', hw', hassigned⟩ := hentry a ha
  rw [hlook] at hlook'
  cases hlook'
  rw [hw] at hw'
  cases hw'
  exact ⟨a.1, hkey, (Condition.lookUp_eq_ok.1 hlook).2, hassigned⟩

/-- What an insert does to find the row that it has written. -/
theorem Inserted.rereads (he : st.entity.IsSound)
    (hreturning : st.database.dialect.capabilities.returning = false)
    (hauto : st.entity.autoIdentity? = none) : i.Rereads := by
  refine ⟨⟨?_, ?_⟩, ?_, fun identity key v f h hv hf => i.exact_iff he h hv hf,
    fun identity h hwritable => i.exists_pins he h hwritable⟩
  · rintro ⟨identity, h⟩ key hkey
    obtain ⟨hcomplete, hget⟩ := identityValues_compound h
    obtain ⟨v, hv⟩ := hcomplete.complete key hkey
    exact ⟨v, by rw [← hget key hkey, hv], (hcomplete.only key v hv).2⟩
  · intro h
    obtain ⟨pairs, hpairs⟩ := exists_componentsOf h
    exact ⟨Record.ofPairs pairs, by rw [identityValues, hpairs, ok_bind]⟩
  · intro identity pins columns h hpins hcolumns
    obtain ⟨hcomplete, hget⟩ := identityValues_compound h
    refine ⟨hget, ?_⟩
    obtain ⟨t, ht, hnames, hopen, hstatements, _⟩ := exists_signalled i.names_eq i.sent_eq
    have hselect := selectStatement_identityFilter he hcomplete hpins hcolumns
    rw [i.insert_eq hreturning hauto h ht, (findOne_of_known hnames hopen hselect "insert").1,
      hstatements, List.append_assoc]
    rfl

end

/-- In a database that does not give the rows it writes, an update reads its row by the values
that the record has, or that the identity had; the row is the one that was written if each identity
field keeps its place, and exactly the fields that do are asked for what they hold. An insert of a
row that the database does not number reads it by the values in the record, and exactly the fields
that statements may write are asked for what was written to them. -/
theorem finds_written_row {e : BuiltEntity}
    {db : Database} (hreturning : db.dialect.capabilities.returning = false) :
    (∀ id data s (u : (db.store e).Updated id data s), u.Rereads) ∧
      ((db.store e).entity.autoIdentity? = none →
        ∀ data s (i : (db.store e).Inserted data s), i.Rereads) := by
  have he : (db.store e).entity.IsSound := e.isSound.storedAs _
  exact ⟨fun _ _ _ u => u.rereads he hreturning,
    fun hauto _ _ i => i.rereads he hreturning hauto⟩

/-- An entity whose rows the database numbers. -/
def task : Entity :=
  { key := "task", table := "task"
    fields := [{ Field.ofType "id" .integer with autoIncrement := true }, .ofType "title" .text]
    identity := ["id"] }

/-- A database that does not give the rows that it writes. -/
def taskDatabase : Database :=
  .root { Dialect.plain with capabilities := ⟨false, false, false⟩ } ⟨.off, .zero⟩

/-- The tasks in it. -/
def tasks : Store := taskDatabase.store task

/-- The row of a task. -/
def taskRow (number : Int64) (title : String) : Row := fun column =>
  if column = "id" then .integer number else .text title

/-- A database that compares numbers. -/
def numberEngine : Engine where
  holds _ v w :=
    match v, w with
    | .integer m, .integer n => m == n
    | _, _ => true
  fits _ _ := true

/-- A session with answers. -/
def answering (answers : List RowSet) : Session :=
  { Session.fresh with scripted := answers.map .rows }

/-- The answer with the row of a task. -/
def taskAnswer (number : Int64) (title : String) : RowSet :=
  { RowSet.empty with rows := [[.integer number, .text title]] }

/-- A task that is given a title is found again, next to another one. -/
theorem finds_written_row_title :
    (tasks.update (.single (.integer 1)) (.ofPairs [("title", .text "b")])
      (answering [.oneChanged, taskAnswer 1 "b"])).1 =
        decodeRow tasks.entity [.integer 1, .text "b"] := by
  let u : tasks.Updated (.single (.integer 1)) (.ofPairs [("title", .text "b")])
      (answering [.oneChanged, taskAnswer 1 "b"]) :=
    ⟨_, _, _, _, _, _, _, rfl, rfl, rfl, rfl, rfl, rfl, rfl⟩
  have hrereads :=
    (@finds_written_row ⟨task, "task", none, task.fields, ["id"], rfl⟩ taskDatabase rfl).1 _ _ _ u
  have hkeeps : u.KeepsPlace := by
    intro key v f hv hf changed hchanged
    have hkey := ((identityValues_complete u.before_eq).only key v hv).1
    obtain rfl : key = "id" := List.mem_singleton.1 hkey
    rw [(Entity.mem_of_field hf).2] at hchanged
    cases hchanged
  have hrefl : ∀ v, v.isNull = false → numberEngine.holds .eq v v = true := by
    intro v _
    cases v <;> simp [numberEngine]
  have htable : u.InTable numberEngine (taskRow 1 "a") (taskRow 1 "b") [taskRow 2 "c"] := by
    refine ⟨?_, ?_, ?_⟩
    · intro pins hpins
      cases hpins
      rfl
    · intro key column hcolumn
      unfold EntityNames.columnOf at hcolumn
      split at hcolumn
      · next c hc =>
        cases hcolumn
        have hmem : c ∈ [("id", "id"), ("title", "title")] := List.mem_of_find?_eq_some hc
        obtain rfl : c.1 = key := by simpa using List.find?_some hc
        rcases List.mem_cons.1 hmem with rfl | hmem
        · rfl
        · obtain rfl := List.mem_singleton.1 hmem
          rfl
      · cases hcolumn
    · intro row hrow hall
      obtain rfl := List.mem_singleton.1 hrow
      exact absurd (hall ("id", .integer 1) List.mem_cons_self _ "id" rfl) (by decide)
  refine (hrereads.same_row hkeeps numberEngine hrefl _ _ _ htable ["id", "title"] rfl
    (taskAnswer 1 "b") [] rfl ?_).1
  intro pins hpins
  cases hpins
  rfl

/-- A record that has another number for a task makes an update read the task of that number: the
number is never written, and it is asked for all the same. A database that gives the rows it writes
gives the task that was updated. -/
theorem update_reads_other_row :
    (tasks.update (.single (.integer 1)) (.ofPairs [("id", .integer 2), ("title", .text "b")])
        (answering [.oneChanged, taskAnswer 2 "c"])).2.statements =
      [⟨"update task set title = ? where id = ?", [.text "b", .integer 1]⟩,
        ⟨"select id, title from task where id = ?", [.integer 2]⟩] ∧
    (tasks.update (.single (.integer 1)) (.ofPairs [("id", .integer 2), ("title", .text "b")])
        (answering [.oneChanged, taskAnswer 2 "c"])).1 =
      .ok (.ofPairs [("id", .integer 2), ("title", .text "c")]) ∧
    ((tasks.withReturning true).update (.single (.integer 1))
        (.ofPairs [("id", .integer 2), ("title", .text "b")]) (answering [taskAnswer 1 "b"])).1 =
      .ok (.ofPairs [("id", .integer 1), ("title", .text "b")]) :=
  ⟨rfl, rfl, rfl⟩

end Store

end EntitySql
