import EntitySql.Proofs.Bindings
import EntitySql.Proofs.Exchange
import EntitySql.Proofs.Kinds
import EntitySql.Proofs.Operations
import EntitySql.Proofs.Templates

/-!
# Tokens and values in every statement

A value that loses its token, or a token that is written twice, binds every
later value to the wrong column, and no database notices. Here all runs of an
operation, one for each style of tokens, are followed in step: what they send
are the same templates, and the values of a template are those that the
operation has for it.

- `Operation.Sends`: the statements of an operation, with their values.
- `Operation.statements_after`: all that an operation sends, under every style.
-/

namespace EntitySql

open Store

/-- The templates that an operation sends, by the values that they have. -/
inductive Operation.Sends (st : Store) (names : EntityNames) : Operation → Template → Prop
  | count {f : Filter} {t : Template} (h : t.values = f.sends st.entity names) :
    Sends st names (.count f) t
  | find {o : FindOptions} {t : Template}
    (h : t.values = o.filter.elim [] (Filter.sends st.entity names)) : Sends st names (.find o) t
  /-- The values that are written of the record. -/
  | insert {data : Record} {written : List (Field × Value)} {t : Template}
    (hwritten : writtenValues st.entity data true = .ok written)
    (h : t.values = written.map Prod.snd) : Sends st names (.insert data) t
  /-- The identity of the new row. -/
  | reread {data : Record} {sql : String} {result : RowSet} {f : Filter} {t : Template}
    (hf : insertedFilter st data sql result = .ok f) (h : t.values = f.sends st.entity names) :
    Sends st names (.insert data) t
  /-- The values that are written of the record, and after them those of the identity. -/
  | update {id : RowId} {data before : Record} {written : List (Field × Value)}
    {set clause returning : Template}
    (hbefore : identityValues st.entity "update" id = .ok before)
    (hwritten : writtenValues st.entity data false = .ok written)
    (hset : set.values = written.map Prod.snd)
    (hclause : clause.values = (identityFilter before).sends st.entity names)
    (hreturning : returning.values = []) :
    Sends st names (.update id data) (set ++ clause ++ returning)
  /-- The identity of a row for which nothing is written. -/
  | read {id : RowId} {data before : Record} {t : Template}
    (hbefore : identityValues st.entity "update" id = .ok before)
    (h : t.values = (identityFilter before).sends st.entity names) :
    Sends st names (.update id data) t
  /-- The identity of a row after its update. -/
  | rereadUpdated {id : RowId} {data before : Record} {t : Template}
    (hbefore : identityValues st.entity "update" id = .ok before)
    (h : t.values = (identityFilter (currentIdentity before data)).sends st.entity names) :
    Sends st names (.update id data) t
  | delete {id : RowId} {identity : Record} {t : Template}
    (hidentity : identityValues st.entity "delete" id = .ok identity)
    (h : t.values = (identityFilter identity).sends st.entity names) :
    Sends st names (.delete id) t
  /-- The values of a piece of the rows, row by row; NULL where a row gives none. -/
  | rows {rows chunk : List Record} {written : List (List (Field × Value))} {t : Template}
    (hchunk : chunk ∈ chunks (bulkSize - 1) rows)
    (hwritten : writtenRows st.entity chunk = .ok written)
    (h : t.values = written.flatMap fun row =>
      (bulkFields st.entity written).map (valueFor row)) :
    Sends st names (.bulkInsert rows) t
  /-- A row of defaults. -/
  | defaults {rows : List Record} {t : Template}
    (h : Sends st names (.insert Record.empty) t) : Sends st names (.bulkInsert rows) t

/-! ## The values of statements -/

namespace Store

variable {e : Entity} {names : EntityNames} {d : Dialect} {t : Template}

/-- A count has the values of its filter. -/
theorem values_countStatement {f : Filter} (h : countStatement e names f = .ok t) :
    t.values = f.sends e names := by
  obtain ⟨clause, hclause, rfl⟩ := countStatement_eq_ok.1 h
  show clause.values = _
  exact Filter.values_whereClause hclause

theorem values_findStatement {o : FindOptions} (h : findStatement e names d o = .ok t) :
    t.values = o.filter.elim [] (Filter.sends e names) := by
  obtain ⟨columns, -, clause, hclause, order, -, page, -, rfl⟩ := findStatement_eq_ok.1 h
  have hvalues : clause.values = o.filter.elim [] (Filter.sends e names) := by
    cases hf : o.filter with
    | none =>
      rw [hf] at hclause
      cases hclause
      rfl
    | some f =>
      rw [hf] at hclause
      exact Filter.values_whereClause hclause
  rw [← hvalues, List.cons_append, Template.values, Template.values_append]
  simp [Template.values]

theorem values_selectStatement {f : Filter} (h : selectStatement e names f = .ok t) :
    t.values = f.sends e names := by
  obtain ⟨clause, hclause, columns, -, rfl⟩ := selectStatement_eq_ok.1 h
  show clause.values = _
  exact Filter.values_whereClause hclause

/-- The clause for the rows that were written has no values. -/
theorem values_returningClause (h : returningClause e names d = .ok t) : t.values = [] := by
  rw [returningClause_eq_ok] at h
  split at h
  · obtain ⟨columns, -, rfl⟩ := h
    rfl
  · rw [h, Template.values]

/-- A list of parameters in parentheses has the values of the parameters. -/
@[simp] theorem values_tuple (vs : List Value) : (tuple vs).values = vs := by
  simp [tuple, Template.values]

/-- An insertion has the values that are written of its record. -/
theorem values_insertStatement {data : Record} (h : insertStatement e names d data = .ok t) :
    ∃ written, writtenValues e data true = .ok written ∧ t.values = written.map Prod.snd := by
  obtain ⟨written, hwritten, insert, hinsert, returning, hreturning, rfl⟩ :=
    insertStatement_eq_ok.1 h
  refine ⟨written, hwritten, ?_⟩
  rw [Template.values_append, values_returningClause hreturning, List.append_nil]
  obtain ⟨rfl, rfl⟩ | ⟨-, columns, -, rfl⟩ := hinsert
  · rfl
  · rw [Template.values, values_tuple]

/-- There is a text for each field. -/
theorem length_columnTexts {fs : List Field} {columns : List String}
    (h : columnTexts names fs = .ok columns) : columns.length = fs.length :=
  (columnTexts_eq_ok.1 h).length_eq.symm

/-- Assignments have the values that are assigned. -/
theorem values_assignments {columns : List String} {vs : List Value}
    (h : columns.length = vs.length) : (assignments columns vs).values = vs := by
  rw [assignments, Template.values_separated, List.flatMap_map]
  induction columns generalizing vs with
  | nil =>
    cases vs with
    | nil => rfl
    | cons v vs => cases h
  | cons column columns ih =>
    cases vs with
    | nil => cases h
    | cons v vs =>
      rw [List.zip_cons_cons, List.flatMap_cons, ih (Nat.succ.inj h)]
      rfl

/-- An update has the values that are written of its record, and after them those of the
identity. -/
theorem values_updateStatement {identity : Record} {written : List (Field × Value)}
    (h : updateStatement e names d identity written = .ok t) :
    ∃ set clause returning, t = set ++ clause ++ returning ∧
      set.values = written.map Prod.snd ∧
      clause.values = (identityFilter identity).sends e names ∧ returning.values = [] := by
  obtain ⟨columns, hcolumns, clause, hclause, returning, hreturning, rfl⟩ :=
    updateStatement_eq_ok.1 h
  refine ⟨_ :: assignments columns (written.map Prod.snd), clause, returning, rfl, ?_,
    Filter.values_whereClause hclause, values_returningClause hreturning⟩
  rw [Template.values]
  refine values_assignments ?_
  rw [length_columnTexts hcolumns, List.length_map, List.length_map]

theorem values_deleteStatement {identity : Record}
    (h : deleteStatement e names identity = .ok t) :
    t.values = (identityFilter identity).sends e names := by
  obtain ⟨clause, hclause, rfl⟩ := deleteStatement_eq_ok.1 h
  show clause.values = _
  exact Filter.values_whereClause hclause

/-- An insertion of rows has a value of each row for each field. -/
theorem values_bulkStatement {fields : List Field} {rows : List (List (Field × Value))}
    (h : bulkStatement names fields rows = .ok t) :
    t.values = rows.flatMap fun row => fields.map (valueFor row) := by
  obtain ⟨columns, -, rfl⟩ := bulkStatement_eq_ok.1 h
  rw [Template.values, Template.values_separated, List.flatMap_map]
  simp

end Store

/-! ## All styles of tokens in step -/

namespace Operation

/-- What the database hands out for the entity of a store in the given scopes is what it hands out
in a session. -/
def NamesAsIn (st : Store) (s : Session) (scopes : List Scope) : Prop :=
  ∀ u : Session, u.scopes = scopes →
    (st.database.names st.entity u).1 = (st.database.names st.entity s).1

/-- The names that the database hands out for the entity of a store in a session. -/
def HandsOut (st : Store) (s : Session) (names : EntityNames) : Prop :=
  (st.database.names st.entity s).1 = .ok names

/-- The runs send the same template of an operation, with the names of a session. -/
def SendsSame (st : Store) (s : Session) (op : Operation) (t : TokenStyle → Template) : Prop :=
  ∃ u names, (∀ style, t style = u) ∧ HandsOut st s names ∧ op.Sends st names u

variable {st : Store} {s : Session} {op : Operation}

/-- Runs that send the same template are told apart by no database. -/
theorem sameKind_sendsSame (st : Store) (s : Session) (op : Operation) :
    SameKind id (SendsSame st s op) := by
  rintro t ⟨u, _, ht, _⟩ i j
  rw [ht i, ht j]
  exact returnsRows_sql u i j

/-- Asking for names does not change what is handed out: what is handed out once is known, and a
failure leaves no trace. -/
theorem namesAsIn_names {u : Session} (h : NamesAsIn st s u.scopes) :
    NamesAsIn st s (st.database.names st.entity u).2.scopes := by
  intro v hv
  cases hnames : st.database.names st.entity u with
  | mk r t =>
    rw [hnames] at hv
    rw [← h u rfl, hnames]
    cases r with
    | ok known => rw [(Database.names_ok hnames).2.2 v hv]
    | error f =>
      rw [Database.names_of_scopes (hv.trans (Database.scopes_of_names_error hnames)), hnames]

/-- All runs have the names of the session that they start from. -/
theorem runsAlike_sendsSame (st : Store) (s : Session) (op : Operation) :
    RunsAlike (NamesAsIn st s) (HandsOut st s) id (SendsSame st s op) st where
  kind := sameKind_sendsSame st s op
  named := by
    refine ((Database.names_inStep st.database st.entity).keeping ?_).imp ?_
    · intro style u h
      exact namesAsIn_names h
    · rintro a ⟨⟨names, hnames⟩, hfound⟩
      obtain ⟨u, hu, hok⟩ := hfound .question
      refine ⟨names, ?_, hnames⟩
      rw [HandsOut, ← hu u rfl, ← hnames .question]
      exact hok

/-- What is built in the same way in all runs is the same template. -/
theorem agree_sendsSame {x : Except Failure Template} {names : EntityNames}
    (hnames : HandsOut st s names) (h : ∀ t, x = .ok t → op.Sends st names t) :
    Agree (SendsSame st s op) fun _ => x := by
  refine (Agree.of_const x).imp ?_
  rintro a ⟨r, hr, ha⟩
  exact ⟨r, names, ha, hnames, h r hr⟩

/-- What all runs find in the same way. -/
def Found {α : Type} (x : Except Failure α) (a : TokenStyle → α) : Prop :=
  ∃ r, x = .ok r ∧ ∀ style, a style = r

/-- The runs of an action of an operation, one for each style of tokens, from a session. -/
abbrev StylesInStep {α : Type} (st : Store) (s : Session) (op : Operation)
    (Q : (TokenStyle → α) → Prop) (m : TokenStyle → Action α) : Prop :=
  InStep (NamesAsIn st s) id (SendsSame st s op) Q m

/-- An operation is in step with itself under all styles of tokens. -/
def InStepWithItself (st : Store) (op : Operation) : Prop :=
  ∀ s : Session, ∃ ts : List (TokenStyle → Template), (∀ t ∈ ts, SendsSame st s op t) ∧
    ∀ style, (op.after (st.withStyle style) s).statements =
      s.statements ++ ts.map fun t => (t style).statement style

/-- Actions in step, from the same session. -/
theorem inStepWithItself {α : Type} {Q : (TokenStyle → α) → Prop} {m : TokenStyle → Action α}
    (h : ∀ s, StylesInStep st s op Q m)
    (hm : ∀ style s, op.after (st.withStyle style) s = (m style s).2) :
    InStepWithItself st op := by
  intro s
  obtain ⟨ts, hts, hsent, _, _⟩ := h s (fun _ => s)
    ⟨s.scripted, s.scopes, fun _ hu => Database.names_of_scopes hu, fun _ => ⟨rfl, rfl⟩⟩
  refine ⟨ts, hts, fun style => ?_⟩
  rw [hm]
  exact hsent style

/-- Rows that pass one filter are read by the same statement in all runs. -/
theorem selectsAlike_sendsSame {f : Filter}
    (h : ∀ names t, t.values = f.sends st.entity names → op.Sends st names t) :
    SelectsAlike (HandsOut st s) (SendsSame st s op) st.entity fun _ => f :=
  fun names hnames =>
    agree_sendsSame hnames fun t ht => h names t (values_selectStatement ht)

/-- Insertions are in step with themselves. `op` is the insertion, or one that it is a part of. -/
theorem insert_sendsSame (st : Store) (s : Session) (data : Record) {op : Operation}
    (hop : ∀ names t, Operation.Sends st names (.insert data) t → op.Sends st names t) :
    StylesInStep st s op AllSame fun style => (st.withStyle style).insert data := by
  refine insert_inStep (runsAlike_sendsSame st s op) ?_ ?_
  · intro names hnames
    refine agree_sendsSame hnames fun t ht => hop names t ?_
    obtain ⟨written, hwritten, hvalues⟩ := values_insertStatement ht
    exact .insert hwritten hvalues
  · intro result sql
    have hselects : ∀ f, (∃ sql, insertedFilter st data sql result = .ok f) →
        SelectsAlike (HandsOut st s) (SendsSame st s op) st.entity fun _ => f := by
      rintro f ⟨sql, hf⟩
      exact selectsAlike_sendsSame fun names t ht => hop names t (.reread hf ht)
    -- the text of the insertion only appears in a failure
    cases hauto : st.entity.autoIdentity? with
    | none =>
      have hfilter : ∀ sql, insertedFilter st data sql result = (do
          .ok (identityFilter (← identityValues st.entity "insert" (.compound data)))) := by
        intro sql
        rw [insertedFilter, hauto]
      simp only [hfilter]
      refine (Agree.of_const _).imp ?_
      rintro f ⟨r, hr, hf⟩
      rw [funext hf]
      exact hselects r ⟨"", (hfilter "").trans hr⟩
    | some field =>
      cases hlast : result.lastId with
      | none =>
        simp only [insertedFilter, hauto, hlast]
        exact .of_error _
      | some n =>
        have hfilter : ∀ sql, insertedFilter st data sql result =
            .ok (.compare field.key .eq (.integer n)) := by
          intro sql
          rw [insertedFilter, hauto, hlast]
        simp only [hfilter]
        exact .of_ok (hselects _ ⟨"", hfilter ""⟩)

/-- All runs of an update send the same templates. -/
theorem update_sendsSame (st : Store) (s : Session) (rowId : RowId) (data : Record) :
    StylesInStep st s (.update rowId data) AllSame fun style =>
      (st.withStyle style).update rowId data := by
  have hst := runsAlike_sendsSame st s (.update rowId data)
  refine update_inStep hst (B := Found (identityValues st.entity "update" rowId))
    (W := Found (writtenValues st.entity data false)) (Agree.of_const _) (Agree.of_const _)
    ?_ ?_ ?_ ?_
  -- the update is left out in all runs or in none
  · rintro w ⟨written, _, hw⟩
    exact ⟨written.isEmpty, fun style => congrArg List.isEmpty (hw style)⟩
  · rintro names b w hnames ⟨before, hbefore, hb⟩ ⟨written, hwritten, hw⟩
    simp only [hb, hw]
    refine agree_sendsSame hnames fun t ht => ?_
    obtain ⟨set, clause, returning, rfl, hset, hclause, hreturning⟩ :=
      values_updateStatement ht
    exact .update hbefore hwritten hset hclause hreturning
  · rintro b ⟨before, hbefore, hb⟩
    simp only [hb]
    exact selectsAlike_sendsSame fun names t ht => .read hbefore ht
  · rintro b ⟨before, hbefore, hb⟩
    simp only [hb]
    exact selectsAlike_sendsSame fun names t ht => .rereadUpdated hbefore ht

theorem delete_sendsSame (st : Store) (s : Session) (rowId : RowId) :
    StylesInStep st s (.delete rowId) (fun _ => True) fun style =>
      (st.withStyle style).delete rowId := by
  have hst := runsAlike_sendsSame st s (.delete rowId)
  refine delete_inStep hst (B := Found (identityValues st.entity "delete" rowId))
    (Agree.of_const _) ?_
  rintro names b hnames ⟨identity, hidentity, hb⟩
  simp only [hb]
  exact agree_sendsSame hnames fun t ht => .delete hidentity (values_deleteStatement ht)

theorem bulkInsert_sendsSame (st : Store) (s : Session) (rows : List Record) :
    StylesInStep st s (.bulkInsert rows) AllSame fun style =>
      (st.withStyle style).bulkInsert rows := by
  have hst := runsAlike_sendsSame st s (.bulkInsert rows)
  have hdefault : StylesInStep st s (.bulkInsert rows) AllSame fun style =>
      (st.withStyle style).insert Record.empty :=
    insert_sendsSame st s Record.empty fun _ _ h => .defaults h
  -- a list of rows is the same list in all runs
  have hsame : ∀ (rows : List Record) (style : TokenStyle),
      ((rows.map fun r (_ : TokenStyle) => r).map fun r => r style) = rows := by
    intro rows style
    rw [List.map_map]
    exact List.map_id rows
  have hstep := bulkInsert_inStep hst
    (W := fun w => ∃ chunk ∈ chunks (bulkSize - 1) rows,
      Found (writtenRows st.entity chunk) w)
    (rows.map fun r _ => r) hdefault ?_
  · simp only [hsame] at hstep
    exact hstep
  · intro chunk hchunk
    rw [chunks_map, List.mem_map] at hchunk
    obtain ⟨piece, hpiece, rfl⟩ := hchunk
    refine ⟨?_, ?_, ?_⟩
    · simp only [hsame]
      exact (Agree.of_const _).imp fun w hw => ⟨piece, hpiece, hw⟩
    · rintro w ⟨_, _, written, _, hw⟩
      exact ⟨bulkFields st.entity written, fun style => congrArg _ (hw style)⟩
    · rintro names w hnames ⟨piece, hpiece, written, hwritten, hw⟩
      simp only [hw]
      exact agree_sendsSame hnames fun t ht => .rows hpiece hwritten (values_bulkStatement ht)

/-- Every operation is in step with itself under all styles of tokens. -/
theorem isInStepWithItself (st : Store) (op : Operation) : InStepWithItself st op := by
  have hst := fun s => runsAlike_sendsSame st s op
  cases op with
  | count f =>
    refine inStepWithItself (fun s => count_inStep (hst s) (f := fun _ => f) ?_) fun _ _ => rfl
    exact fun names hnames => agree_sendsSame hnames fun t ht => .count (values_countStatement ht)
  | find o =>
    refine inStepWithItself (fun s => find_inStep (hst s) (o := fun _ => o) ?_) fun _ _ => rfl
    exact fun names hnames => agree_sendsSame hnames fun t ht => .find (values_findStatement ht)
  | insert data =>
    exact inStepWithItself (fun s => insert_sendsSame st s data fun _ _ h => h) fun _ _ => rfl
  | update rowId data =>
    exact inStepWithItself (fun s => update_sendsSame st s rowId data) fun _ _ => rfl
  | delete rowId => exact inStepWithItself (fun s => delete_sendsSame st s rowId) fun _ _ => rfl
  | bulkInsert rows =>
    exact inStepWithItself (fun s => bulkInsert_sendsSame st s rows) fun _ _ => rfl

/-- All that an operation sends are templates that do not depend on how tokens are written. What
is sent for a template is its texts with the tokens of the positions `1`, `2`, … in turn between
them, and its values in the same order: those that the operation has for the statement, with the
names that the database hands out for the entity. For a raw filter these are the values whose tokens
it writes, each as often as it writes it. -/
theorem statements_after (st : Store) (op : Operation) (s : Session) :
    (∃ ts : List Template,
      (∀ style, (op.after (st.withStyle style) s).statements =
        s.statements ++ ts.map fun t =>
          ⟨weave t.texts ((List.range' 1 t.values.length).map style.token), t.values⟩) ∧
      ∀ t ∈ ts, ∃ names, (st.database.names st.entity s).1 = .ok names ∧ op.Sends st names t) ∧
    ∀ names parts, (∀ p ∈ parts, RawPart.IsMarkFree names p) →
      ∀ t, RawPart.template names parts = .ok t →
        (Filter.raw parts).sends st.entity names =
          parts.flatMap (RawPart.sends (parts.flatMap RawPart.binds)) := by
  constructor
  · obtain ⟨ts, hts, hsent⟩ := isInStepWithItself st op s
    refine ⟨ts.map fun t => t .question, ?_, ?_⟩
    · intro style
      rw [hsent, List.map_map]
      congr 1
      refine List.map_congr_left fun t ht => ?_
      obtain ⟨u, _, hu, _⟩ := hts t ht
      show (t style).statement style =
        ⟨weave (t .question).texts ((List.range' 1 (t .question).values.length).map style.token),
          (t .question).values⟩
      rw [hu, hu, Template.statement, Template.sql_eq_weave]
    · intro u hu
      obtain ⟨t, ht, rfl⟩ := List.mem_map.1 hu
      obtain ⟨u, names, hu, hnames, hsends⟩ := hts t ht
      rw [hu]
      exact ⟨names, hnames, hsends⟩
  · intro names parts hfree t ht
    rw [Filter.sends, ht]
    exact RawPart.values_template hfree ht

end Operation

end EntitySql
