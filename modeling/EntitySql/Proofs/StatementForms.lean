import EntitySql.Proofs.Meaning
import EntitySql.Proofs.Sorting
import EntitySql.Proofs.Templates

/-!
# Forms of statements

The statements of a store are made of columns, conditions, terms of an order and
values. Here they are taken apart into these, so that it can be told which
columns a statement reads and which it writes.

Nothing is told of raw text, apart from the fields that it asks to be named.

- `Condition.columns`, `Condition.known_columns_ofFilter`: the columns of a
  condition stand for the fields of its filter.
- `Store.Form`: statements as they are made, with what they read and write.
- `Store.Purpose`: what statements are for, with their forms.
- `Store.Purpose.exists_form`: a statement is made of its form.
- `Store.Purpose.HasForm`: what is worked out for the form.
-/

namespace EntitySql

/-! ## The columns of conditions -/

/-- The column of a test. -/
def Test.column : Test → String
  | .isNull column | .isNotNull column | .compare column _ _ | .oneOf column _
  | .noneOf column _ | .like column _ | .notLike column _ => column

/-- The columns of a predicate. -/
def Predicate.columns : Predicate → List String
  | .one t => [t.column]
  | .either t u | .both t u => [t.column, u.column]

/-- A field that raw text asks to be named. -/
def RawPart.key? : RawPart → Option String
  | .column key => some key
  | _ => none

mutual

/-- The keys of the fields in a filter. -/
def Filter.keys : Filter → List String
  | .compare key _ _ | .among key _ _ | .matching key _ _ => [key]
  | .and fs | .or fs => Filter.allKeys fs
  | .not f => Filter.keys f
  | .raw parts => parts.filterMap RawPart.key?

/-- The keys of the fields in filters. -/
def Filter.allKeys : List Filter → List String
  | [] => []
  | f :: fs => Filter.keys f ++ Filter.allKeys fs

end

section

variable (names : EntityNames)

mutual

/-- The columns of a condition, with those that its raw text names. -/
def Condition.columns : Condition (List RawPart) → List String
  | .always | .never => []
  | .predicate p => p.columns
  | .raw parts => (parts.filterMap RawPart.key?).filterMap fun key => (names.columnOf key).toOption
  | .and cs | .or cs => Condition.allColumns cs
  | .not c => Condition.columns c

/-- The columns of conditions. -/
def Condition.allColumns : List (Condition (List RawPart)) → List String
  | [] => []
  | c :: cs => Condition.columns c ++ Condition.allColumns cs

end

end

section

variable {known : String → Prop}

/-- The column of a test that can be read is known. -/
theorem Test.known_column {t : Test} (h : t.IsReadable known) : known t.column := by
  cases t with
  | oneOf column vs => exact h.1
  | noneOf column vs => exact h.1
  | _ => exact h

theorem Predicate.known_columns {p : Predicate} (h : p.IsReadable known) :
    ∀ column ∈ p.columns, known column := by
  cases p with
  | one t => exact List.forall_mem_singleton.2 (Test.known_column h)
  | either t u =>
    exact List.forall_mem_cons.2 ⟨Test.known_column h.1,
      List.forall_mem_singleton.2 (Test.known_column h.2)⟩
  | both t u =>
    exact List.forall_mem_cons.2 ⟨Test.known_column h.1,
      List.forall_mem_singleton.2 (Test.known_column h.2)⟩

variable {e : Entity} {names : EntityNames}

mutual

/-- The columns of the condition of a filter stand for its fields. -/
theorem Condition.known_columns_ofFilter : ∀ {f : Filter} {c : Condition (List RawPart)},
    (∀ key ∈ f.keys, ∀ column, names.columnOf key = .ok column → known column) →
      Condition.ofFilter e names f = .ok c → ∀ column ∈ c.columns names, known column
  | .compare key op v, c, hkeys, h => by
    obtain ⟨f, column, w, p, hlook, -, hp, rfl⟩ := Condition.ofFilter_compare_eq_ok h
    rw [Filter.keys, List.forall_mem_singleton] at hkeys
    have hcolumn := hkeys column (Condition.lookUp_eq_ok.1 hlook).2
    rw [Condition.columns]
    exact Predicate.known_columns (Predicate.readable_ofCompare hcolumn hp)
  | .among key negated vs, c, hkeys, h => by
    obtain ⟨f, column, hlook, ⟨rfl, rfl⟩ | ⟨hne, hasNull, ws, hlist, rfl⟩⟩ :=
      Condition.ofFilter_among_eq_ok h
    · cases negated <;> simp [Condition.columns]
    · rw [Filter.keys, List.forall_mem_singleton] at hkeys
      have hcolumn := hkeys column (Condition.lookUp_eq_ok.1 hlook).2
      have hws := Condition.storedList_ne_nil hne hlist
      rw [Condition.columns]
      cases negated
      · exact Predicate.known_columns (Predicate.readable_ofOneOf hcolumn hws)
      · exact Predicate.known_columns (Predicate.readable_ofNoneOf hcolumn hws)
  | .matching key mode text, c, hkeys, h => by
    obtain ⟨f, column, hlook, rfl⟩ := Condition.ofFilter_matching_eq_ok h
    rw [Filter.keys, List.forall_mem_singleton] at hkeys
    have hcolumn := hkeys column (Condition.lookUp_eq_ok.1 hlook).2
    rw [Condition.columns]
    exact Predicate.known_columns (Predicate.readable_ofMatch hcolumn mode text)
  | .and fs, c, hkeys, h => by
    obtain ⟨cs, hcs, rfl⟩ := Condition.ofFilter_and_eq_ok h
    rw [Filter.keys] at hkeys
    rw [Condition.columns]
    exact Condition.known_columns_ofFilters hkeys hcs
  | .or fs, c, hkeys, h => by
    obtain ⟨cs, hcs, rfl⟩ := Condition.ofFilter_or_eq_ok h
    rw [Filter.keys] at hkeys
    rw [Condition.columns]
    exact Condition.known_columns_ofFilters hkeys hcs
  | .not f, c, hkeys, h => by
    obtain ⟨c', hc', rfl⟩ := Condition.ofFilter_not_eq_ok h
    rw [Filter.keys] at hkeys
    rw [Condition.columns]
    exact Condition.known_columns_ofFilter hkeys hc'
  | .raw parts, c, hkeys, h => by
    cases h
    rw [Filter.keys] at hkeys
    rw [Condition.columns]
    intro column hcolumn
    obtain ⟨key, hkey, hfound⟩ := List.mem_filterMap.1 hcolumn
    exact hkeys key hkey column (toOption_eq_some.1 hfound)

theorem Condition.known_columns_ofFilters : ∀ {fs : List Filter}
    {cs : List (Condition (List RawPart))},
    (∀ key ∈ Filter.allKeys fs, ∀ column, names.columnOf key = .ok column → known column) →
      Condition.ofFilters e names fs = .ok cs → ∀ column ∈ Condition.allColumns names cs,
        known column
  | [], cs, _, h => by
    cases h
    simp [Condition.allColumns]
  | f :: fs, cs, hkeys, h => by
    obtain ⟨c, rest, hc, hrest, rfl⟩ := Condition.ofFilters_cons_eq_ok h
    rw [Filter.allKeys, List.forall_mem_append] at hkeys
    rw [Condition.allColumns, List.forall_mem_append]
    exact ⟨Condition.known_columns_ofFilter hkeys.1 hc,
      Condition.known_columns_ofFilters hkeys.2 hrest⟩

end

end

namespace Store

/-! ## Forms of statements -/

/-- The `where` clause of a condition. -/
def conditionClause (names : EntityNames) (c : Condition (List RawPart)) :
    Except Failure Template := do
  .ok (Filter.clauseOf (← c.await names).simplify.template?)

/-- The clause that asks for columns of the rows that were written; empty if there are none to be
given back. -/
def returnedClause : Option (List String) → Template
  | none => []
  | some columns => [.text (" returning " ++ String.intercalate ", " columns)]

/-- A statement as it is made of columns, conditions and values. -/
inductive Form where
  | count (condition : Condition (List RawPart))
  | search (columns : List String) (condition : Option (Condition (List RawPart)))
    (order : List OrderTerm) (page : String)
  | read (columns : List String) (condition : Condition (List RawPart))
  | insert (columns : List String) (tuples : List (List Value)) (returned : Option (List String))
  | insertDefaults (returned : Option (List String))
  | update (columns : List String) (vs : List Value) (condition : Condition (List RawPart))
    (returned : Option (List String))
  | delete (condition : Condition (List RawPart))

namespace Form

variable (names : EntityNames)

/-- The statement of a form. -/
def template : Form → Except Failure Template
  | .count condition => do
    .ok (.text ("select count(*) as count from " ++ names.table) ::
      (← conditionClause names condition))
  | .search columns condition order page => do
    let clause ← condition.elim (.ok []) (conditionClause names)
    .ok (.text ("select " ++ String.intercalate ", " columns ++ " from " ++ names.table) ::
      clause ++
        [.text (" order by " ++ String.intercalate ", " (order.map OrderTerm.text) ++ page)])
  | .read columns condition => do
    .ok (.text ("select " ++ String.intercalate ", " columns ++ " from " ++ names.table) ::
      (← conditionClause names condition))
  | .insert columns tuples returned =>
    .ok (.text (insertHead names columns) :: Template.separated ", " (tuples.map tuple) ++
      returnedClause returned)
  | .insertDefaults returned =>
    .ok ([.text ("insert into " ++ names.table ++ " default values")] ++ returnedClause returned)
  | .update columns vs condition returned => do
    .ok (.text ("update " ++ names.table ++ " set ") :: assignments columns vs ++
      (← conditionClause names condition) ++ returnedClause returned)
  | .delete condition => do
    .ok (.text ("delete from " ++ names.table) :: (← conditionClause names condition))

/-- The columns that a statement reads: all those of a query, and those that it gives back of the
rows that it writes. -/
def reads : Form → List String
  | .count condition => condition.columns names
  | .search columns condition order _ =>
    columns ++ condition.elim [] (Condition.columns names) ++ order.map OrderTerm.column
  | .read columns condition => columns ++ condition.columns names
  | .insert _ _ returned | .insertDefaults returned | .update _ _ _ returned => returned.getD []
  | .delete _ => []

/-- The columns of rows that a statement writes: those that it sets, and those by which it finds the
rows. -/
def writes : Form → List String
  | .insert columns _ _ => columns
  | .update columns _ condition _ => columns ++ condition.columns names
  | .delete condition => condition.columns names
  | .count _ | .search _ _ _ _ | .read _ _ | .insertDefaults _ => []

end Form

/-! ## What statements are for -/

/-- What a statement of a store is for. -/
inductive Purpose where
  | count (f : Filter)
  | find (o : FindOptions)
  | select (f : Filter)
  | insert (data : Record)
  | update (id : RowId) (data : Record)
  | delete (id : RowId)
  /-- Records are inserted together. -/
  | bulk (records : List Record)

section

variable (e : Entity) (names : EntityNames) (d : Dialect)

/-- The condition of an optional filter. -/
def optionalCondition : Option Filter → Except Failure (Option (Condition (List RawPart)))
  | none => .ok none
  | some f => do .ok (some (← Condition.ofFilter e names f))

/-- The columns that a statement gives back of the rows that it writes, where the database does
this. -/
def returnedColumns : Except Failure (Option (List String)) :=
  if d.capabilities.returning then do .ok (some (← columnTexts names e.selected)) else .ok none

namespace Purpose

/-- The statement that a store sends. -/
def statement : Purpose → Except Failure Template
  | .count f => countStatement e names f
  | .find o => findStatement e names d o
  | .select f => selectStatement e names f
  | .insert data => insertStatement e names d data
  | .update id data => do
    let identity ← identityValues e "update" id
    let written ← writtenValues e data false
    updateStatement e names d identity written
  | .delete id => do
    let identity ← identityValues e "delete" id
    deleteStatement e names identity
  | .bulk records => do
    let rows ← writtenRows e records
    bulkStatement names (bulkFields e rows) rows

/-- The form of the statement. -/
def form : Purpose → Except Failure Form
  | .count f => do .ok (.count (← Condition.ofFilter e names f))
  | .find o => do
    let columns ← columnTexts names e.selected
    let condition ← optionalCondition e names o.filter
    let order ← (o.rowOrder e).terms names d.capabilities.nullsFirst
    .ok (.search columns condition order (← o.pageText d))
  | .select f => do
    let columns ← columnTexts names e.selected
    .ok (.read columns (← Condition.ofFilter e names f))
  | .insert data => do
    let written ← writtenValues e data true
    let returned ← returnedColumns e names d
    if written.isEmpty then .ok (.insertDefaults returned)
    else do
      let columns ← columnTexts names (written.map Prod.fst)
      .ok (.insert columns [written.map Prod.snd] returned)
  | .update id data => do
    let identity ← identityValues e "update" id
    let written ← writtenValues e data false
    let columns ← columnTexts names (written.map Prod.fst)
    let condition ← Condition.ofFilter e names (identityFilter identity)
    .ok (.update columns (written.map Prod.snd) condition (← returnedColumns e names d))
  | .delete id => do
    let identity ← identityValues e "delete" id
    .ok (.delete (← Condition.ofFilter e names (identityFilter identity)))
  | .bulk records => do
    let rows ← writtenRows e records
    let columns ← columnTexts names (bulkFields e rows)
    .ok (.insert columns (rows.map fun row => (bulkFields e rows).map (valueFor row)) none)

end Purpose

end

/-! ## Statements have their forms -/

variable {e : Entity} {names : EntityNames} {d : Dialect}

/-- The `where` clause of a filter is that of its condition. -/
theorem whereClause_eq_ok {f : Filter} {clause : Template}
    (h : f.whereClause e names = .ok clause) :
    ∃ c, Condition.ofFilter e names f = .ok c ∧ conditionClause names c = .ok clause := by
  obtain ⟨text, hcompile, hclause⟩ := bind_eq_ok.1 h
  obtain ⟨c, hc, hcompile⟩ := bind_eq_ok.1 hcompile
  obtain ⟨awaited, hawaited, htext⟩ := bind_eq_ok.1 hcompile
  cases htext
  exact ⟨c, hc, bind_eq_ok.2 ⟨awaited, hawaited, hclause⟩⟩

theorem optionalClause_eq_ok {f? : Option Filter} {clause : Template}
    (h : optionalClause e names f? = .ok clause) :
    ∃ c?, optionalCondition e names f? = .ok c? ∧
      c?.elim (.ok []) (conditionClause names) = .ok clause := by
  cases f? with
  | none => exact ⟨none, rfl, h⟩
  | some f =>
    obtain ⟨c, hc, hclause⟩ := whereClause_eq_ok h
    exact ⟨some c, bind_eq_ok.2 ⟨c, hc, rfl⟩, hclause⟩

/-- The list of all columns that the database knows, taken apart. -/
theorem selectList_eq_ok {text : String} (h : selectList e names = .ok text) :
    ∃ columns, columnTexts names e.selected = .ok columns ∧
      text = String.intercalate ", " columns := by
  obtain ⟨columns, hcolumns, heq⟩ := bind_eq_ok.1 h
  cases heq
  exact ⟨columns, hcolumns, rfl⟩

/-- The clause for rows that are written, taken apart. -/
theorem returnedClause_of_returningClause {returning : Template}
    (h : returningClause e names d = .ok returning) :
    ∃ returned, returnedColumns e names d = .ok returned ∧
      returning = returnedClause returned := by
  rw [returningClause_eq_ok] at h
  rw [returnedColumns]
  split at h
  · next hreturning =>
    obtain ⟨text, htext, rfl⟩ := h
    obtain ⟨columns, hcolumns, rfl⟩ := selectList_eq_ok htext
    exact ⟨some columns, by rw [if_pos hreturning, hcolumns]; rfl, rfl⟩
  · next hreturning => exact ⟨none, by rw [if_neg hreturning], h⟩

/-- The list of an `order by` clause, taken apart. -/
theorem orderBy_eq_ok {order : RowOrder} {nullsSmallest : Bool} {text : String}
    (h : order.orderBy names nullsSmallest = .ok text) :
    ∃ ts, order.terms names nullsSmallest = .ok ts ∧
      text = String.intercalate ", " (ts.map OrderTerm.text) := by
  rw [RowOrder.orderBy_eq] at h
  obtain ⟨ts, hts, heq⟩ := bind_eq_ok.1 h
  cases heq
  exact ⟨ts, hts, rfl⟩

/-- A statement is made of its form. -/
theorem Purpose.exists_form {p : Purpose} {t : Template} (h : p.statement e names d = .ok t) :
    ∃ form, p.form e names d = .ok form ∧ form.template names = .ok t := by
  cases p with
  | count f =>
    obtain ⟨clause, hclause, rfl⟩ := countStatement_eq_ok.1 h
    obtain ⟨c, hc, hcondition⟩ := whereClause_eq_ok hclause
    refine ⟨.count c, ?_, bind_eq_ok.2 ⟨clause, hcondition, rfl⟩⟩
    simp only [form, hc, ok_bind]
  | find o =>
    obtain ⟨text, htext, clause, hclause, order, horder, page, hpage, rfl⟩ :=
      findStatement_eq_ok.1 h
    obtain ⟨columns, hcolumns, rfl⟩ := selectList_eq_ok htext
    obtain ⟨c?, hc, hcondition⟩ := optionalClause_eq_ok hclause
    obtain ⟨ts, hts, rfl⟩ := orderBy_eq_ok horder
    refine ⟨.search columns c? ts page, ?_, bind_eq_ok.2 ⟨clause, hcondition, rfl⟩⟩
    simp only [form, hcolumns, hc, hts, hpage, ok_bind]
  | select f =>
    obtain ⟨clause, hclause, text, htext, rfl⟩ := selectStatement_eq_ok.1 h
    obtain ⟨c, hc, hcondition⟩ := whereClause_eq_ok hclause
    obtain ⟨columns, hcolumns, rfl⟩ := selectList_eq_ok htext
    refine ⟨.read columns c, ?_, bind_eq_ok.2 ⟨clause, hcondition, rfl⟩⟩
    simp only [form, hcolumns, hc, ok_bind]
  | insert data =>
    obtain ⟨written, hwritten, insert, hinsert, returning, hreturning, rfl⟩ :=
      insertStatement_eq_ok.1 h
    obtain ⟨returned, hreturned, rfl⟩ := returnedClause_of_returningClause hreturning
    rw [form, hwritten, ok_bind, hreturned, ok_bind]
    obtain ⟨rfl, rfl⟩ | ⟨hne, columns, hcolumns, rfl⟩ := hinsert
    · exact ⟨.insertDefaults returned, rfl, rfl⟩
    · rw [if_neg (by simpa using hne), hcolumns]
      exact ⟨.insert columns [written.map Prod.snd] returned, rfl, rfl⟩
  | update id data =>
    obtain ⟨identity, hidentity, h⟩ := bind_eq_ok.1 h
    obtain ⟨written, hwritten, h⟩ := bind_eq_ok.1 h
    obtain ⟨columns, hcolumns, clause, hclause, returning, hreturning, rfl⟩ :=
      updateStatement_eq_ok.1 h
    obtain ⟨c, hc, hcondition⟩ := whereClause_eq_ok hclause
    obtain ⟨returned, hreturned, rfl⟩ := returnedClause_of_returningClause hreturning
    refine ⟨.update columns (written.map Prod.snd) c returned, ?_,
      bind_eq_ok.2 ⟨clause, hcondition, rfl⟩⟩
    simp only [form, hidentity, hwritten, hcolumns, hc, hreturned, ok_bind]
  | delete id =>
    obtain ⟨identity, hidentity, h⟩ := bind_eq_ok.1 h
    obtain ⟨clause, hclause, rfl⟩ := deleteStatement_eq_ok.1 h
    obtain ⟨c, hc, hcondition⟩ := whereClause_eq_ok hclause
    refine ⟨.delete c, ?_, bind_eq_ok.2 ⟨clause, hcondition, rfl⟩⟩
    simp only [form, hidentity, hc, ok_bind]
  | bulk records =>
    obtain ⟨rows, hrows, h⟩ := bind_eq_ok.1 h
    obtain ⟨columns, hcolumns, rfl⟩ := bulkStatement_eq_ok.1 h
    refine ⟨.insert columns (rows.map fun row => (bulkFields e rows).map (valueFor row)) none,
      ?_, ?_⟩
    · simp only [form, hrows, hcolumns, ok_bind]
    · rw [Form.template, returnedClause, List.append_nil, List.map_map]
      rfl

/-! ## What forms are made of -/

/-- The form of a statement, with what is worked out for it. -/
inductive Purpose.HasForm (e : Entity) (names : EntityNames) (d : Dialect) : Purpose → Form → Prop
  | count {f : Filter} {c : Condition (List RawPart)} :
      Condition.ofFilter e names f = .ok c → HasForm e names d (.count f) (.count c)
  | find {o : FindOptions} {columns : List String} {c? : Option (Condition (List RawPart))}
      {order : List OrderTerm} {page : String} : columnTexts names e.selected = .ok columns →
      optionalCondition e names o.filter = .ok c? →
      (o.rowOrder e).terms names d.capabilities.nullsFirst = .ok order →
      o.pageText d = .ok page → HasForm e names d (.find o) (.search columns c? order page)
  | select {f : Filter} {columns : List String} {c : Condition (List RawPart)} :
      columnTexts names e.selected = .ok columns → Condition.ofFilter e names f = .ok c →
      HasForm e names d (.select f) (.read columns c)
  | insertDefaults {data : Record} {returned : Option (List String)} :
      writtenValues e data true = .ok [] → returnedColumns e names d = .ok returned →
      HasForm e names d (.insert data) (.insertDefaults returned)
  | insert {data : Record} {written : List (Field × Value)} {columns : List String}
      {returned : Option (List String)} : writtenValues e data true = .ok written →
      columnTexts names (written.map Prod.fst) = .ok columns →
      returnedColumns e names d = .ok returned →
      HasForm e names d (.insert data) (.insert columns [written.map Prod.snd] returned)
  | update {id : RowId} {data : Record} {identity : Record} {written : List (Field × Value)}
      {columns : List String} {c : Condition (List RawPart)} {returned : Option (List String)} :
      identityValues e "update" id = .ok identity → writtenValues e data false = .ok written →
      columnTexts names (written.map Prod.fst) = .ok columns →
      Condition.ofFilter e names (identityFilter identity) = .ok c →
      returnedColumns e names d = .ok returned →
      HasForm e names d (.update id data) (.update columns (written.map Prod.snd) c returned)
  | delete {id : RowId} {identity : Record} {c : Condition (List RawPart)} :
      identityValues e "delete" id = .ok identity →
      Condition.ofFilter e names (identityFilter identity) = .ok c →
      HasForm e names d (.delete id) (.delete c)
  | bulk {records : List Record} {rows : List (List (Field × Value))} {columns : List String} :
      writtenRows e records = .ok rows → columnTexts names (bulkFields e rows) = .ok columns →
      HasForm e names d (.bulk records)
        (.insert columns (rows.map fun row => (bulkFields e rows).map (valueFor row)) none)

/-- A form that is found is made of these parts. -/
theorem Purpose.hasForm_of_form {p : Purpose} {form : Form} (h : p.form e names d = .ok form) :
    p.HasForm e names d form := by
  cases p with
  | count f =>
    obtain ⟨c, hc, heq⟩ := bind_eq_ok.1 h
    cases heq
    exact .count hc
  | find o =>
    simp only [Purpose.form, bind_eq_ok, Except.ok.injEq] at h
    obtain ⟨columns, hcolumns, c?, hc, order, horder, page, hpage, rfl⟩ := h
    exact .find hcolumns hc horder hpage
  | select f =>
    simp only [Purpose.form, bind_eq_ok, Except.ok.injEq] at h
    obtain ⟨columns, hcolumns, c, hc, rfl⟩ := h
    exact .select hcolumns hc
  | insert data =>
    obtain ⟨written, hwritten, h⟩ := bind_eq_ok.1 h
    obtain ⟨returned, hreturned, h⟩ := bind_eq_ok.1 h
    cases written with
    | nil =>
      cases h
      exact .insertDefaults hwritten hreturned
    | cons a written =>
      obtain ⟨columns, hcolumns, heq⟩ := bind_eq_ok.1 h
      cases heq
      exact .insert hwritten hcolumns hreturned
  | update id data =>
    simp only [Purpose.form, bind_eq_ok, Except.ok.injEq] at h
    obtain ⟨identity, hidentity, written, hwritten, columns, hcolumns, c, hc, returned, hreturned,
      rfl⟩ := h
    exact .update hidentity hwritten hcolumns hc hreturned
  | delete id =>
    simp only [Purpose.form, bind_eq_ok, Except.ok.injEq] at h
    obtain ⟨identity, hidentity, c, hc, rfl⟩ := h
    exact .delete hidentity hc
  | bulk records =>
    simp only [Purpose.form, bind_eq_ok, Except.ok.injEq] at h
    obtain ⟨rows, hrows, columns, hcolumns, rfl⟩ := h
    exact .bulk hrows hcolumns

end Store

end EntitySql
