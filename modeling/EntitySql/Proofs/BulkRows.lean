import EntitySql.Proofs.Queries
import EntitySql.Proofs.Reread

/-!
# Many rows at once

A row that is inserted alone gives values to some columns and leaves the others
to their defaults. Rows that are inserted together share one list of columns:
those that any of them gives a value to. A row that gives none to such a column
does not leave it to its default but sets it to NULL, because of a row that
happens to be next to it.

- `Store.Inserts`: the rows that a statement inserts, each with its columns and
  values.
- `Action.Writes`: what an action sends, apart from queries.
- `Store.bulkRow`: what is written of a record among others.
- `Store.bulkRow_eq_iff`: when this is what is written of it alone.
- `Store.bulkInsert_row_eq_insert_row_iff`: the statements of both ways, what
  they give to each row, and when this is the same.
-/

namespace EntitySql

/-! ## Rows of statements -/

/-- The text of tuples of tokens for tuples of values; positions count from `position`. -/
def tupleTexts (style : TokenStyle) : (position : Nat) → List (List Value) → List String
  | _, [] => []
  | position, vs :: rest =>
    ("(" ++ String.intercalate ", " ((List.range' position vs.length).map style.token) ++ ")") ::
      tupleTexts style (position + vs.length) rest

/-- The columns and the values of what is written. -/
def columnValues (q : Quoting) (written : List (Field × Value)) : List (String × Value) :=
  written.map fun a => (q.wrap a.1.column, a.2)

namespace Store

/-- A statement asks for the rows that it writes, or for nothing. -/
def AsksForRows (e : Entity) (names : EntityNames) (returning : String) : Prop :=
  returning = "" ∨ ∃ list, selectList e names = .ok list ∧ returning = " returning " ++ list

/-- A statement inserts rows, each of them with the columns that it gives a value to. -/
inductive Inserts (st : Store) (names : EntityNames) :
    List (List (String × Value)) → Statement → Prop
  /-- One row with the defaults of all columns. -/
  | defaults {returning : String} (h : AsksForRows st.entity names returning) :
    Inserts st names [[]] ⟨"insert into " ++ names.table ++ " default values" ++ returning, []⟩
  /-- A tuple of values for each row, all for the same columns. -/
  | values {columns : List String} {tuples : List (List Value)} {returning : String}
    (hne : columns ≠ []) (hwidth : ∀ vs ∈ tuples, vs.length = columns.length)
    (h : AsksForRows st.entity names returning) :
    Inserts st names (tuples.map columns.zip)
      ⟨insertHead names columns ++
        String.intercalate ", " (tupleTexts st.database.dialect.style 1 tuples) ++ returning,
        tuples.flatten⟩

end Store

/-! ## What actions write -/

/-- A statement is a query by its first word. -/
def Statement.isQuery (x : Statement) : Bool := leadingKeyword x.sql == "SELECT"

/-- An action sends queries and the given statements, in their order: all of them if it succeeds,
and none that comes after a failure. -/
def Action.Writes {α : Type} (m : Action α) (s : Session) (xs : List Statement) : Prop :=
  ∃ sent, (m s).2.statements = s.statements ++ sent ∧
    sent.filter (fun x => !x.isQuery) <+: xs ∧
      ((∃ a, (m s).1 = .ok a) → sent.filter (fun x => !x.isQuery) = xs)

namespace Action.Writes

variable {α β : Type} {s : Session} {xs ys : List Statement}

theorem of_quiet {m : Action α} (h : (m s).2.statements = s.statements) : m.Writes s [] :=
  ⟨[], by rw [h, List.append_nil], List.prefix_rfl, fun _ => rfl⟩

/-- Only queries are sent. -/
theorem of_queries {db : Database} {sent : Bool} {m : Action α}
    (h : Through db (fun x => x.isQuery = true) sent m) : m.Writes s [] := by
  obtain ⟨xs, hxs⟩ := h.exchanges s
  have hnone : xs.filter (fun x => !x.isQuery) = [] := by
    refine List.filter_eq_nil_iff.2 fun x hx => ?_
    simp [hxs.property x hx]
  exact ⟨xs, hxs.statements, by simp [hnone], fun _ => hnone⟩

theorem bind {m : Action α} {f : α → Action β} (hm : m.Writes s xs)
    (hf : ∀ a t, m s = (.ok a, t) → (f a).Writes t ys) : (m >>= f).Writes s (xs ++ ys) := by
  obtain ⟨sent, hstatements, hbefore, hall⟩ := hm
  cases hresult : m s with
  | mk result t =>
    rw [hresult] at hstatements hall
    cases result with
    | error failure =>
      rw [Writes, bind_of_error hresult]
      refine ⟨sent, hstatements, hbefore.trans (List.prefix_append xs ys), ?_⟩
      rintro ⟨a, ha⟩
      cases ha
    | ok a =>
      obtain ⟨sent', hstatements', hbefore', hall'⟩ := hf a t hresult
      rw [Writes, bind_of_ok hresult]
      refine ⟨sent ++ sent', by rw [hstatements', hstatements, List.append_assoc], ?_,
        fun hok => ?_⟩
      · rw [List.filter_append, hall ⟨a, rfl⟩]
        exact (List.prefix_append_right_inj xs).2 hbefore'
      · rw [List.filter_append, hall ⟨a, rfl⟩, hall' hok]

theorem send {db : Database} {t : Template}
    (hquery : (t.statement db.dialect.style).isQuery = false) :
    (db.send t).Writes s [t.statement db.dialect.style] := by
  refine ⟨_, Database.statements_send_eq t s, ?_, ?_⟩
  · cases s.isOpen db.scope with
    | true => simp [hquery]
    | false => exact List.nil_prefix
  · rintro ⟨result, hresult⟩
    have hopen := (Database.send_ok (Prod.ext hresult rfl : db.send t s = (.ok result, _))).1
    simp [hopen, hquery]

end Action.Writes

namespace Store

/-! ## What is written of a record -/

section

variable {e : Entity} {data : Record} {w : List (Field × Value)}
  {rows : List (List (Field × Value))}

/-- What is written of a record among others: a value for each field that one of them gives a
value to. -/
def bulkRow (e : Entity) (rows : List (List (Field × Value))) (w : List (Field × Value)) :
    List (Field × Value) :=
  (bulkFields e rows).map fun f => (f, valueFor w f)

/-- Values are written to some of the fields, in their order. -/
theorem sublist_storedValues {skipNulls : Bool} {fs : List Field}
    (h : storedValues data skipNulls fs = .ok w) : (w.map Prod.fst).Sublist fs := by
  obtain ⟨-, rfl⟩ := storedValues_eq_ok.1 h
  rw [map_fst_givenValues]
  exact List.filter_sublist

/-- A record gives values to some of the fields of its entity, in their order. -/
theorem sublist_writtenValues (h : writtenValues e data true = .ok w) :
    (w.map Prod.fst).Sublist e.fields :=
  (sublist_storedValues h).trans List.filter_sublist

/-- Statements may write the fields that a record gives values to. -/
theorem mem_writable {skipNulls : Bool} (h : writtenValues e data skipNulls = .ok w)
    {a : Field × Value} (ha : a ∈ w) : a.1 ∈ e.writable :=
  (sublist_storedValues h).subset (List.mem_map_of_mem ha)

theorem gives_of_mem {a : Field × Value} (ha : a ∈ w) : gives w a.1 = true :=
  List.any_eq_true.2 ⟨a, ha, beq_self_eq_true _⟩

/-- A row that gives no value to a field has NULL for it. -/
theorem valueFor_of_not_gives {f : Field} (h : gives w f = false) : valueFor w f = .null := by
  have hnone : w.find? (fun a => a.1.key == f.key) = none :=
    List.find?_eq_none.2 fun a ha => by simpa using List.any_eq_false.1 h a ha
  rw [valueFor, hnone]

end

/-- Among fields with keys of their own, those with the key of one of them are the same. -/
theorem filter_sameKey {fs gs : List Field} (h : gs.Sublist fs)
    (hkeys : fs.Pairwise fun f g => f.key ≠ g.key) :
    fs.filter (fun f => gs.any fun g => g.key == f.key) = gs := by
  induction h with
  | slnil => rfl
  | cons f h ih =>
    obtain ⟨hnew, hkeys⟩ := List.pairwise_cons.1 hkeys
    rw [List.filter_cons_of_neg, ih hkeys]
    simpa using fun g hg => (hnew g (h.subset hg)).symm
  | @cons_cons gs fs f h ih =>
    obtain ⟨hnew, hkeys⟩ := List.pairwise_cons.1 hkeys
    have hrest : fs.filter (fun g => (f :: gs).any fun k => k.key == g.key) =
        fs.filter (fun g => gs.any fun k => k.key == g.key) :=
      List.filter_congr fun g hg => by simp [hnew g hg]
    rw [List.filter_cons_of_pos (by simp), hrest, ih hkeys]

theorem valueFor_of_mem {w : List (Field × Value)}
    (hkeys : w.Pairwise fun a b => a.1.key ≠ b.1.key) {a : Field × Value} (ha : a ∈ w) :
    valueFor w a.1 = a.2 := by
  induction w with
  | nil => cases ha
  | cons b w ih =>
    obtain ⟨hnew, hkeys⟩ := List.pairwise_cons.1 hkeys
    rw [valueFor, List.find?_cons]
    rcases List.mem_cons.1 ha with rfl | ha
    · simp
    · have hne : (b.1.key == a.1.key) = false := by simpa using hnew a ha
      rw [hne]
      exact ih hkeys ha

section

variable {e : Entity} {rows : List (List (Field × Value))} {w : List (Field × Value)}
  (hkeys : e.fields.Pairwise fun f g => f.key ≠ g.key) (hw : (w.map Prod.fst).Sublist e.fields)

include hkeys hw

/-- Of what is written of a record among others, the fields that it gives a value to are what is
written of it alone. -/
theorem filter_bulkRow (hmem : w ∈ rows) :
    (bulkRow e rows w).filter (fun a => gives w a.1) = w := by
  have hfields : (bulkFields e rows).filter (gives w) = w.map Prod.fst := by
    have hgives : (fun f => (w.map Prod.fst).any fun g => g.key == f.key) = gives w :=
      funext fun f => List.any_map
    rw [bulkFields, List.filter_filter, ← filter_sameKey hw hkeys, hgives]
    refine List.filter_congr fun f _ => ?_
    cases hf : gives w f with
    | false => rfl
    | true => simpa using ⟨w, hmem, hf⟩
  have hdistinct : (w.map Prod.fst).Pairwise fun f g => f.key ≠ g.key := hkeys.sublist hw
  rw [List.pairwise_map] at hdistinct
  rw [bulkRow, List.filter_map]
  change ((bulkFields e rows).filter (gives w)).map _ = w
  rw [hfields, List.map_map]
  conv_rhs => rw [← List.map_id w]
  exact List.map_congr_left fun a ha => Prod.ext rfl (valueFor_of_mem hdistinct ha)

/-- What is written of a record among others is what is written of it alone exactly if it gives a
value to each field that one of them gives a value to. -/
theorem bulkRow_eq_iff (q : Quoting) (hmem : w ∈ rows)
    (hrows : ∀ row ∈ rows, (row.map Prod.fst).Sublist e.fields) :
    columnValues q (bulkRow e rows w) = columnValues q w ↔
      ∀ row ∈ rows, ∀ a ∈ row, gives w a.1 = true := by
  have hfilter := filter_bulkRow hkeys hw hmem
  constructor
  · intro heq row hrow a ha
    have hlength : ((bulkRow e rows w).filter fun a => gives w a.1).length =
        (bulkRow e rows w).length := by
      rw [hfilter]
      simpa [columnValues] using (congrArg List.length heq).symm
    have hfield : a.1 ∈ bulkFields e rows :=
      List.mem_filter.2 ⟨(hrows row hrow).subset (List.mem_map_of_mem ha),
        List.any_eq_true.2 ⟨row, hrow, gives_of_mem ha⟩⟩
    exact List.length_filter_eq_length_iff.1 hlength (a.1, valueFor w a.1)
      (List.mem_map_of_mem hfield)
  · intro hall
    have hself : bulkRow e rows w = w := by
      rw [List.filter_eq_self.2] at hfilter
      · exact hfilter
      · intro a ha
        obtain ⟨f, hf, rfl⟩ := List.mem_map.1 ha
        obtain ⟨_, hany⟩ := List.mem_filter.1 hf
        obtain ⟨row, hrow, hgives⟩ := List.any_eq_true.1 hany
        obtain ⟨b, hb, hkey⟩ := List.any_eq_true.1 hgives
        have hgiven := hall row hrow b hb
        rwa [gives, beq_iff_eq.1 hkey] at hgiven
    rw [hself]

end

/-! ## Texts of tuples -/

end Store

/-- The text of parameters is their tokens. -/
theorem Template.render_parameters (style : TokenStyle) (vs : List Value) (position : Nat) :
    (parameters vs).render (fun k _ => style.token k) position =
      String.intercalate ", " ((List.range' position vs.length).map style.token) := by
  have htokens : renderEach (fun k _ => style.token k) position (vs.map fun v => [.param v]) =
      (List.range' position vs.length).map style.token := by
    induction vs generalizing position with
    | nil => rfl
    | cons v vs ih =>
      rw [List.map_cons, renderEach, ih, List.length_cons, List.range'_succ, List.map_cons]
      simp [render, values]
  rw [parameters, render_separated, htokens]

namespace Store

/-- The text of a tuple. -/
theorem render_tuple (style : TokenStyle) (vs : List Value) (position : Nat) :
    (tuple vs).render (fun k _ => style.token k) position =
      "(" ++ String.intercalate ", " ((List.range' position vs.length).map style.token) ++ ")" := by
  simp [tuple, Template.render, Template.render_append, Template.render_parameters,
    String.append_assoc]

theorem render_tuples (style : TokenStyle) (tuples : List (List Value)) (position : Nat) :
    (Template.separated ", " (tuples.map tuple)).render (fun k _ => style.token k) position =
      String.intercalate ", " (tupleTexts style position tuples) := by
  have htexts : Template.renderEach (fun k _ => style.token k) position (tuples.map tuple) =
      tupleTexts style position tuples := by
    induction tuples generalizing position with
    | nil => rfl
    | cons vs tuples ih =>
      rw [List.map_cons, Template.renderEach, ih, render_tuple, values_tuple, tupleTexts]
  rw [Template.render_separated, htexts]

/-! ## Statements of inserts -/

variable {st : Store} {w : List (Field × Value)} {rows : List (List (Field × Value))}

theorem columnTexts_writable (he : st.entity.IsSound) (q : Quoting) {fs : List Field}
    (h : ∀ f ∈ fs, f ∈ st.entity.writable) :
    columnTexts (.resolve st.entity q) fs = .ok (fs.map fun f => q.wrap f.column) := by
  have hcolumn : ∀ f ∈ fs, f ∈ st.entity.selected ∧
      EntityNames.fieldText q f = q.wrap f.column := by
    intro f hf
    obtain ⟨hmem, hwritable⟩ := List.mem_filter.1 (h f hf)
    simp only [Field.isReadOnly, Field.hasColumn, Bool.not_or, Bool.and_eq_true,
      Bool.not_not, Option.isNone_iff_eq_none] at hwritable
    obtain ⟨⟨-, hknown, hexpression⟩, -⟩ := hwritable
    exact ⟨List.mem_filter.2 ⟨hmem, hknown⟩, by
      rw [EntityNames.fieldText, EntityNames.fieldTextBy, hexpression]⟩
  rw [columnTexts_resolve he q fun f hf => (hcolumn f hf).1]
  exact congrArg _ (List.map_congr_left fun f hf => (hcolumn f hf).2)

/-- What is written of a record is known by its own columns. -/
theorem columnTexts_written (he : st.entity.IsSound) (q : Quoting) {data : Record}
    {skipNulls : Bool} (hw : writtenValues st.entity data skipNulls = .ok w) :
    columnTexts (.resolve st.entity q) (w.map Prod.fst) =
      .ok ((w.map Prod.fst).map fun f => q.wrap f.column) := by
  refine columnTexts_writable he q fun f hf => ?_
  obtain ⟨a, ha, rfl⟩ := List.mem_map.1 hf
  exact mem_writable hw ha

/-- There is a clause that asks for the rows that are written, or an empty one. -/
theorem exists_returningClause (he : st.entity.IsSound) (q : Quoting) :
    ∃ returning, returningClause st.entity (.resolve st.entity q) st.database.dialect =
      .ok returning := by
  rw [returningClause, selectList_resolve he q]
  split <;> exact ⟨_, rfl⟩

/-- The clause for the rows that are written, as the end of a statement. -/
structure IsReturning (st : Store) (names : EntityNames) (returning : Template) : Prop where
  asks : ∀ position, AsksForRows st.entity names
    (returning.render (fun k _ => st.database.dialect.style.token k) position)
  values : returning.values = []

theorem inserts_defaults {names : EntityNames} {returning : Template}
    (h : st.IsReturning names returning) :
    st.Inserts names [[]] (Template.statement st.database.dialect.style
      (.text ("insert into " ++ names.table ++ " default values") :: returning)) := by
  have hinserts : st.Inserts names _ _ := .defaults (h.asks 1)
  simpa [Template.statement, Template.sql, Template.render, Template.values, h.values]
    using hinserts

theorem inserts_values {names : EntityNames} (columns : List String)
    (tuples : List (List Value)) {returning : Template} (hne : columns ≠ [])
    (hwidth : ∀ vs ∈ tuples, vs.length = columns.length) (h : st.IsReturning names returning) :
    st.Inserts names (tuples.map columns.zip) (Template.statement st.database.dialect.style
      (.text (insertHead names columns) ::
        (Template.separated ", " (tuples.map tuple) ++ returning))) := by
  have hinserts : st.Inserts names _ _ := .values hne hwidth
    (h.asks (1 + (Template.separated ", " (tuples.map tuple)).values.length))
  have hvalues : (tuples.map tuple).flatMap Template.values = tuples.flatten := by
    rw [List.flatMap_map, ← List.flatMap_id]
    exact List.flatMap_congr fun vs _ => values_tuple vs
  simpa [Template.statement, Template.sql, Template.render, Template.render_append,
    Template.values, Template.values_separated, render_tuples, hvalues, h.values,
    String.append_assoc] using hinserts

/-- An insert gives its row what is written of the record. -/
theorem exists_insertStatement (he : st.entity.IsSound) (q : Quoting) {data : Record}
    (hw : writtenValues st.entity data true = .ok w) :
    ∃ t, insertStatement st.entity (.resolve st.entity q) st.database.dialect data = .ok t ∧
      st.Inserts (.resolve st.entity q) [columnValues q w]
        (t.statement st.database.dialect.style) := by
  obtain ⟨returning, hreturning⟩ := exists_returningClause he q
  have hend : st.IsReturning (.resolve st.entity q) returning :=
    ⟨fun position => render_returningClause _ position hreturning,
      values_returningClause hreturning⟩
  have hcolumns := columnTexts_written he q hw
  cases w with
  | nil =>
    refine ⟨_, ?_, inserts_defaults hend⟩
    rw [insertStatement, hw, hreturning]
    rfl
  | cons a w =>
    have hrow : [columnValues q (a :: w)] = [(a :: w).map Prod.snd].map
        (((a :: w).map Prod.fst).map fun f => q.wrap f.column).zip := by
      rw [List.map_map]
      exact congrArg (fun row => [row]) List.zip_map'.symm
    rw [hrow]
    refine ⟨_, ?_, inserts_values _ [_] (List.cons_ne_nil _ _) (by simp) hend⟩
    simp only [insertStatement, hw, ok_bind, hcolumns, hreturning, List.isEmpty_cons,
      Bool.false_eq_true, if_false]
    rfl

/-- Rows that are inserted together give values to fields that statements may write. -/
theorem mem_writable_of_bulkFields {e : Entity} (he : e.IsSound)
    (hrows : ∀ row ∈ rows, ∀ a ∈ row, a.1 ∈ e.writable) :
    ∀ f ∈ bulkFields e rows, f ∈ e.writable := by
  intro f hf
  obtain ⟨hmem, hany⟩ := List.mem_filter.1 hf
  obtain ⟨row, hrow, hgives⟩ := List.any_eq_true.1 hany
  obtain ⟨a, ha, hkey⟩ := List.any_eq_true.1 hgives
  have hwritten := hrows row hrow a ha
  rwa [← he.eq_of_key (List.mem_filter.1 hwritten).1 hmem (beq_iff_eq.1 hkey)]

/-- Rows that are inserted together get what is written of them among each other. -/
theorem exists_bulkStatement (he : st.entity.IsSound) (q : Quoting)
    (hrows : ∀ row ∈ rows, ∀ a ∈ row, a.1 ∈ st.entity.writable)
    (hfields : bulkFields st.entity rows ≠ []) :
    ∃ t, bulkStatement (.resolve st.entity q) (bulkFields st.entity rows) rows = .ok t ∧
      st.Inserts (.resolve st.entity q)
        (rows.map fun row => columnValues q (bulkRow st.entity rows row))
        (t.statement st.database.dialect.style) := by
  have hwritable := mem_writable_of_bulkFields he hrows
  have hend : st.IsReturning (.resolve st.entity q) [] := ⟨fun _ => .inl rfl, rfl⟩
  have hassigned : (rows.map fun row => columnValues q (bulkRow st.entity rows row)) =
      (rows.map fun row => (bulkFields st.entity rows).map (valueFor row)).map
        ((bulkFields st.entity rows).map fun f => q.wrap f.column).zip := by
    rw [List.map_map]
    refine List.map_congr_left fun row _ => ?_
    rw [columnValues, bulkRow, List.map_map]
    exact List.zip_map'.symm
  rw [bulkStatement, columnTexts_writable he q hwritable, hassigned]
  refine ⟨_, rfl, ?_⟩
  have hinserts : st.Inserts (.resolve st.entity q) _ _ :=
    inserts_values ((bulkFields st.entity rows).map fun f => q.wrap f.column)
      (rows.map fun row => (bulkFields st.entity rows).map (valueFor row))
      (by simpa using hfields) (by simp) hend
  simpa [List.map_map, Function.comp_def] using hinserts

/-- A statement that inserts rows is no query. -/
theorem Inserts.isQuery_eq {names : EntityNames} {rows : List (List (String × Value))}
    {x : Statement} (h : st.Inserts names rows x) : x.isQuery = false := by
  have hinsert : ∀ (sql : String) (rest : List Char), sql.toList = "insert".toList ++ ' ' :: rest →
      (leadingKeyword sql == "SELECT") = false := by
    intro sql rest hsql
    rw [leadingKeyword_of_word "insert".toList (List.cons_ne_nil _ _) rfl hsql]
    decide
  cases h with
  | defaults _ => exact hinsert _ _ (by simp [String.append_assoc]; rfl)
  | values _ _ _ => exact hinsert _ _ (by delta insertHead; simp [String.append_assoc]; rfl)

/-! ## Runs -/

/-- Wherever the names of the entity are known, an action writes the given statements, and it leaves
the scopes as they are. -/
def AlwaysWrites {α : Type} (st : Store) (names : EntityNames) (m : Action α)
    (xs : List Statement) : Prop :=
  ∀ s, st.Knows names s → m.Writes s xs ∧ ∀ a t, m s = (.ok a, t) → t.scopes = s.scopes

namespace AlwaysWrites

variable {α β : Type} {names : EntityNames} {xs ys : List Statement}

theorem of_pure (a : α) : st.AlwaysWrites names (pure a : Action α) [] := by
  intro s _
  refine ⟨.of_quiet rfl, fun _ _ h => ?_⟩
  cases h
  rfl

theorem bind {m : Action α} {f : α → Action β} (hm : st.AlwaysWrites names m xs)
    (hf : ∀ a, st.AlwaysWrites names (f a) ys) : st.AlwaysWrites names (m >>= f) (xs ++ ys) := by
  intro s hs
  obtain ⟨hwrites, hscopes⟩ := hm s hs
  have hrest : ∀ a t, m s = (.ok a, t) → st.Knows names t :=
    fun a t h => hs.of_scopes (hscopes a t h)
  refine ⟨hwrites.bind fun a t h => (hf a t (hrest a t h)).1, fun b u h => ?_⟩
  obtain ⟨a, t, ha, hb⟩ := Action.bind_eq_ok.1 h
  exact ((hf a t (hrest a t ha)).2 b u hb).trans (hscopes a t ha)

/-- An action with something that was found. -/
theorem build {x : Except Failure α} {a : α} (hx : x = .ok a) {f : α → Action β}
    (hf : st.AlwaysWrites names (f a) ys) :
    st.AlwaysWrites names ((liftM x : Action α) >>= f) ys := by
  intro s hs
  rw [Action.Writes, Action.bind_of_ok (Action.lift_of_ok hx)]
  exact hf s hs

theorem signal : st.AlwaysWrites names st.database.signalChange [] := by
  intro s _
  obtain ⟨t, ht, hstatements, -, hscopes⟩ : ∃ t, st.database.signalChange s = (.ok (), t) ∧ _ :=
    Database.signalChange_eq
  refine ⟨.of_quiet (by rw [ht, hstatements]), fun a u hu => ?_⟩
  cases ht.symm.trans hu
  exact hscopes

theorem send {rows : List (List (String × Value))} {t : Template}
    (hx : st.Inserts names rows (t.statement st.database.dialect.style)) :
    st.AlwaysWrites names (st.database.send t) [t.statement st.database.dialect.style] :=
  fun _ _ => ⟨.send hx.isQuery_eq, fun _ _ h => (Database.send_ok h).2.2.1⟩

end AlwaysWrites

/-- The names of an entity are looked up without a statement. -/
theorem names_writes {α : Type} {names : EntityNames} {s named : Session} {xs : List Statement}
    (hnames : st.database.names st.entity s = (.ok names, named)) {f : EntityNames → Action α}
    (h : (f names).Writes named xs) : (st.database.names st.entity >>= f).Writes s xs := by
  have hquiet : (st.database.names st.entity s).2.statements = s.statements := by
    rw [hnames]
    exact (Database.quiet_names hnames).1
  refine (Action.Writes.of_quiet hquiet).bind fun names' u hnames' => ?_
  cases hnames.symm.trans hnames'
  exact h

/-- An insert writes its statement. -/
theorem insert_writes {q : Quoting} {data : Record} {t : Template}
    (ht : insertStatement st.entity (.resolve st.entity q) st.database.dialect data = .ok t)
    (hquery : (t.statement st.database.dialect.style).isQuery = false) {s named : Session}
    (hnames : st.database.names st.entity s = (.ok (.resolve st.entity q), named)) :
    (st.insert data).Writes s [t.statement st.database.dialect.style] := by
  rw [insert_eq]
  refine names_writes hnames ?_
  rw [Action.Writes, Action.bind_of_ok (Action.lift_of_ok ht)]
  refine (Action.Writes.send hquery).bind fun result v _ => ?_
  exact .of_queries (afterInsert_through fun _ _ _ h =>
    beq_iff_eq.2 (leadingKeyword_selectStatement h _))

theorem exists_insert_writes (he : st.entity.IsSound) {q : Quoting} {data : Record}
    (hw : writtenValues st.entity data true = .ok w) :
    ∃ x, st.Inserts (.resolve st.entity q) [columnValues q w] x ∧ ∀ s named,
      st.database.names st.entity s = (.ok (.resolve st.entity q), named) →
        (st.insert data).Writes s [x] := by
  obtain ⟨t, ht, hx⟩ := exists_insertStatement he q hw
  exact ⟨_, hx, fun s named hnames => insert_writes ht hx.isQuery_eq hnames⟩

/-- Rows of defaults are written one by one. -/
theorem insertDefaults_writes {names : EntityNames} {x : Statement}
    (hinsert : st.AlwaysWrites names (st.insert Record.empty) [x]) :
    ∀ records : List Record,
      st.AlwaysWrites names (st.insertDefaults records) (records.map fun _ => x)
  | [] => .of_pure ()
  | _ :: records => hinsert.bind fun _ => insertDefaults_writes hinsert records

theorem writtenRows_eq_ok {e : Entity} : ∀ {records : List Record}
    {rows : List (List (Field × Value))}, writtenRows e records = .ok rows ↔
      List.Forall₂ (fun r w => writtenValues e r true = .ok w) records rows
  | [], rows => by
    rw [List.forall₂_nil_left_iff, writtenRows]
    exact ⟨fun h => by cases h; rfl, fun h => by rw [h]⟩
  | r :: records, rows => by
    simp only [writtenRows, bind_eq_ok, writtenRows_eq_ok, List.forall₂_cons_left_iff]
    constructor
    · rintro ⟨w, hw, rest, hrest, heq⟩
      cases heq
      exact ⟨w, rest, hw, hrest, rfl⟩
    · rintro ⟨w, rest, hw, hrest, rfl⟩
      exact ⟨w, hw, rest, hrest, rfl⟩

/-- What is written of records is written of one of them. -/
theorem exists_record {e : Entity} {records : List Record} {rows : List (List (Field × Value))}
    (h : writtenRows e records = .ok rows) :
    ∀ w ∈ rows, ∃ r ∈ records, writtenValues e r true = .ok w :=
  exists_of_forall₂ (writtenRows_eq_ok.1 h).flip

/-- Statements may write the fields that records give values to. -/
theorem mem_writable_of_rows {e : Entity} {records : List Record}
    {rows : List (List (Field × Value))} (h : writtenRows e records = .ok rows) :
    ∀ row ∈ rows, ∀ a ∈ row, a.1 ∈ e.writable := by
  intro row hrow a ha
  obtain ⟨r, -, hwritten⟩ := exists_record h row hrow
  exact mem_writable hwritten ha

/-- Nothing is written of an empty record. -/
theorem writtenValues_empty (e : Entity) : writtenValues e Record.empty true = .ok [] := by
  have hnone : ∀ fs : List Field, storedValues Record.empty true fs = .ok [] := by
    intro fs
    induction fs with
    | nil => rfl
    | cons f fs ih => exact ih
  exact hnone e.writable

/-- The rows of one statement are written with what is written of them among each other. -/
theorem exists_insertChunk_writes (he : st.entity.IsSound) {q : Quoting} {piece : List Record}
    (hrows : writtenRows st.entity piece = .ok rows) :
    ∃ batches xs, List.Forall₂ (st.Inserts (.resolve st.entity q)) batches xs ∧
      batches.flatten = rows.map (fun w => columnValues q (bulkRow st.entity rows w)) ∧
      st.AlwaysWrites (.resolve st.entity q) (st.insertChunk (.resolve st.entity q) piece) xs := by
  cases hempty : (bulkFields st.entity rows).isEmpty with
  | true =>
    obtain ⟨x, hx, hinsert⟩ := exists_insert_writes he (q := q) (writtenValues_empty st.entity)
    have hdefault : st.AlwaysWrites (.resolve st.entity q) (st.insert Record.empty) [x] :=
      fun s hs => ⟨hinsert s s hs.names_eq, fun _ _ h => hs.scopes_insert h⟩
    refine ⟨piece.map fun _ => [[]], piece.map fun _ => x, ?_, ?_, .build hrows ?_⟩
    · rw [List.forall₂_map_left_iff, List.forall₂_map_right_iff]
      exact List.forall₂_same.2 fun _ _ => hx
    · have hnone : ∀ w ∈ rows, columnValues q (bulkRow st.entity rows w) = [] := by
        intro w _
        rw [bulkRow, List.isEmpty_iff.1 hempty]
        rfl
      have hlength : piece.length = rows.length := (writtenRows_eq_ok.1 hrows).length_eq
      rw [List.map_congr_left hnone, List.map_const', List.map_const', ← hlength]
      exact List.flatten_replicate_singleton
    · dsimp only
      rw [if_pos hempty]
      have hall := insertDefaults_writes hdefault piece
      simpa using hall.bind fun _ => .of_pure piece.length
  | false =>
    have hne : bulkFields st.entity rows ≠ [] := fun hnil => by simp [hnil] at hempty
    obtain ⟨t, ht, hx⟩ := exists_bulkStatement he q (mem_writable_of_rows hrows) hne
    refine ⟨_, _, .cons hx .nil, List.append_nil _, .build hrows ?_⟩
    dsimp only
    rw [if_neg (by simp [hempty])]
    refine .build ht ?_
    exact (AlwaysWrites.send hx).bind fun result => AlwaysWrites.signal.bind fun _ => .of_pure _

/-- Pieces of lists whose members belong together belong together. -/
theorem forall₂_chunks {α β : Type} {R : α → β → Prop} (size : Nat) {xs : List α} {ys : List β}
    (h : List.Forall₂ R xs ys) :
    List.Forall₂ (List.Forall₂ R) (chunks size xs) (chunks size ys) := by
  induction xs using chunks.induct size generalizing ys with
  | case1 =>
    cases h
    rw [chunks, chunks]
    exact .nil
  | case2 x xs ih =>
    cases h with
    | cons hxy h =>
      rw [chunks, chunks]
      exact .cons (.cons hxy (List.forall₂_take size h)) (ih (List.forall₂_drop size h))

theorem chunks_of_short {α : Type} {size : Nat} {x : α} {xs : List α} (h : xs.length ≤ size) :
    chunks size (x :: xs) = [x :: xs] := by
  rw [chunks, List.take_of_length_le h, List.drop_of_length_le h, chunks]

/-- Pieces are written one after the other. -/
theorem exists_insertChunks_writes (he : st.entity.IsSound) {q : Quoting}
    {pieces : List (List Record)} {written : List (List (List (Field × Value)))}
    (h : List.Forall₂ (fun piece rows => writtenRows st.entity piece = .ok rows) pieces written) :
    ∃ batches xs, List.Forall₂ (st.Inserts (.resolve st.entity q)) batches xs ∧
      batches.flatten = written.flatMap (fun rows =>
        rows.map fun w => columnValues q (bulkRow st.entity rows w)) ∧
      st.AlwaysWrites (.resolve st.entity q) (st.insertChunks (.resolve st.entity q) pieces)
        xs := by
  induction h with
  | nil => exact ⟨[], [], .nil, rfl, .of_pure 0⟩
  | cons hrows _ ih =>
    obtain ⟨first, xs, hfirst, hgiven, hwrites⟩ := exists_insertChunk_writes he (q := q) hrows
    obtain ⟨rest, ys, hrest, hgiven', hwrites'⟩ := ih
    refine ⟨first ++ rest, xs ++ ys, List.rel_append hfirst hrest, ?_, ?_⟩
    · rw [List.flatten_append, hgiven, hgiven', List.flatMap_cons]
    · rw [insertChunks]
      have hboth := hwrites.bind fun n => hwrites'.bind fun m => .of_pure (n + m)
      simpa using hboth

/-- Records that can be written are written, in the order of the list and in pieces, by the
statements of a bulk insert: each row gets what is written of its record among those of its piece.
An insert of a record alone gives its row what is written of the record. This is the part of the
former that belongs to the fields which the record gives a value to; to every other field that a
record of the same piece gives a value to, the former gives NULL. So both are the same exactly if
the record gives a value to all fields that the records of its piece give values to. -/
theorem bulkInsert_row_eq_insert_row_iff {e : BuiltEntity}
    {db : Database} {s named : Session} {names : EntityNames}
    (hown : db.KnowsOwn (db.store e).entity s)
    (hnames : db.names (db.store e).entity s = (.ok names, named)) {records : List Record}
    {written : List (List (Field × Value))}
    (hwritten : writtenRows (db.store e).entity records = .ok written) :
    (∃ batches xs, List.Forall₂ ((db.store e).Inserts names) batches xs ∧
      batches.flatten = (chunks (bulkSize - 1) written).flatMap (fun rows => rows.map fun w =>
        columnValues db.dialect.quoting (bulkRow (db.store e).entity rows w)) ∧
      ((db.store e).bulkInsert records).Writes s xs) ∧
    List.Forall₂ (fun record w => ∃ x,
      (db.store e).Inserts names [columnValues db.dialect.quoting w] x ∧
        ((db.store e).insert record).Writes s [x]) records written ∧
    ∀ rows ∈ chunks (bulkSize - 1) written, ∀ w ∈ rows,
      (bulkRow (db.store e).entity rows w).filter (fun a => gives w a.1) = w ∧
      (∀ a ∈ bulkRow (db.store e).entity rows w, gives w a.1 = false → a.2 = .null) ∧
      (columnValues db.dialect.quoting (bulkRow (db.store e).entity rows w) =
          columnValues db.dialect.quoting w ↔
        ∀ row ∈ rows, ∀ a ∈ row, gives w a.1 = true) := by
  have he : (db.store e).entity.IsSound := e.isSound.storedAs _
  obtain rfl := hown.eq_resolve hnames
  have hrecords := writtenRows_eq_ok.1 hwritten
  refine ⟨?_, hrecords.imp fun record w hw => ?_, fun rows hrows w hw => ?_⟩
  · have hpieces := (forall₂_chunks (bulkSize - 1) hrecords).imp
      fun _ _ h => writtenRows_eq_ok.2 h
    obtain ⟨batches, xs, hinserts, hgiven, hwrites⟩ :=
      exists_insertChunks_writes he (q := db.dialect.quoting) hpieces
    exact ⟨batches, xs, hinserts, hgiven,
      names_writes hnames (hwrites named (knows_of_names hnames)).1⟩
  · obtain ⟨x, hx, hwrites⟩ := exists_insert_writes he (q := db.dialect.quoting) hw
    exact ⟨x, hx, hwrites s named hnames⟩
  · have hsublist : ∀ row ∈ rows, (row.map Prod.fst).Sublist (db.store e).entity.fields := by
      intro row hrow
      obtain ⟨r, _, hwritten'⟩ := exists_record hwritten row (mem_of_mem_chunks hrow hrows)
      exact sublist_writtenValues hwritten'
    refine ⟨filter_bulkRow he.keys (hsublist w hw) hw, fun a ha hgives => ?_,
      bulkRow_eq_iff he.keys (hsublist w hw) _ hw hsublist⟩
    obtain ⟨f, _, rfl⟩ := List.mem_map.1 ha
    exact valueFor_of_not_gives hgives

/-- Notes, which have numbers of their own. -/
def note : Entity :=
  { key := "note", table := "note"
    fields := [.ofType "id" .integer, .ofType "title" .text]
    identity := ["id"] }

def builtNote : BuiltEntity := ⟨note, "note", none, note.fields, ["id"], rfl⟩

/-- A database with notes. -/
def noteDatabase : Database := .root Dialect.plain ⟨.off, .zero⟩

/-- Notes that all have a title get what they would get alone. -/
theorem bulkInsert_row_eq_insert_row_titled :
    (∃ batches xs, List.Forall₂ ((noteDatabase.store note).Inserts (.resolve note .bare))
        batches xs ∧
      batches.flatten = [[("id", .integer 1), ("title", .text "a")],
        [("id", .integer 2), ("title", .text "b")]] ∧
      ((noteDatabase.store note).bulkInsert [.ofPairs [("id", .integer 1), ("title", .text "a")],
        .ofPairs [("id", .integer 2), ("title", .text "b")]]).Writes Session.fresh xs) ∧
    ∃ x, (noteDatabase.store note).Inserts (.resolve note .bare)
        [[("id", .integer 2), ("title", .text "b")]] x ∧
      ((noteDatabase.store note).insert
        (.ofPairs [("id", .integer 2), ("title", .text "b")])).Writes Session.fresh [x] := by
  obtain ⟨hbulk, hsingle, -⟩ := @bulkInsert_row_eq_insert_row_iff
    builtNote noteDatabase Session.fresh _ _ (fun n hn => nomatch hn) rfl
    [.ofPairs [("id", .integer 1), ("title", .text "a")],
      .ofPairs [("id", .integer 2), ("title", .text "b")]] _ rfl
  refine ⟨?_, ?_⟩
  · obtain ⟨batches, xs, hinserts, hgiven, hwrites⟩ := hbulk
    refine ⟨batches, xs, hinserts, hgiven.trans ?_, hwrites⟩
    rw [chunks_of_short (by decide)]
    rfl
  · obtain ⟨_, hrest⟩ := List.forall₂_cons.1 hsingle
    exact (List.forall₂_cons.1 hrest).1

/-- A note without a title gets NULL for it next to a note that has one, and the default of the
column if it is alone. -/
theorem bulk_sets_title_to_null :
    ((noteDatabase.store note).bulkInsert [.ofPairs [("id", .integer 1), ("title", .text "a")],
        .ofPairs [("id", .integer 2)]] Session.fresh).2.statements =
      [⟨"insert into note (id, title) values (?, ?), (?, ?)",
        [.integer 1, .text "a", .integer 2, .null]⟩] ∧
    ((noteDatabase.store note).insert (.ofPairs [("id", .integer 2)]) Session.fresh).2.statements =
      [⟨"insert into note (id) values (?) returning id, title", [.integer 2]⟩] := by
  rw [bulkInsert, chunks_of_short (by decide)]
  exact ⟨rfl, rfl⟩

end Store

end EntitySql
