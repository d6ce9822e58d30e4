import EntitySql.Proofs.Replies
import EntitySql.Proofs.StableCells
import EntitySql.Proofs.Templates

/-!
# Rows that are read

The list of columns in a statement and the reader of its answer go through the
fields of an entity independently: the text at a place of the list is that of
the field whose cell is expected at the place. A row is read whole or not at
all: either every field gets the value of its own cell, or the first cell that
is missing or makes no sense is named in the failure.

- `Store.IsReading`: the record that a row is read as.
- `Store.FailsAt`: the first cell of a row that cannot be read.
- `Store.ReadsRows`, `Store.ReadsSingle`: what becomes of the rows of an answer.
- `ReadsAnswer`: an operation that reads the answer to one of its statements.
- `Store.reads_cells_by_place`: what searches, inserts and updates read.
-/

namespace EntitySql

/-! ## Cells -/

namespace Field

/-- The cell at a place is there, and stands for a value of the field. -/
def ReadsAs (f : Field) (row : List Value) (place : Nat) (v : Value) : Prop :=
  ∃ cell, row[place]? = some cell ∧ f.converter.ofStored cell = .ok v

/-- The cell at a place is not there, or stands for no value of the field. -/
inductive Misses (f : Field) (row : List Value) (place : Nat) : String → Prop
  | absent (h : row[place]? = none) :
    Misses f row place s!"result has no column at position {place}"
  | unreadable {cell : Value} {failure : Failure} (hcell : row[place]? = some cell)
    (h : f.converter.ofStored cell = .error failure) : Misses f row place failure.message

end Field

namespace Store

variable {e : Entity} {row : List Value}

/-- A cell is read, or missed with a failure that names the entity and the field. -/
theorem decodeCell_cases (e : Entity) (f : Field) (place : Nat) (row : List Value) :
    (∃ v, decodeCell e f place row = .ok v ∧ f.ReadsAs row place v) ∨
      ∃ detail, decodeCell e f place row = .error (.decode e.key f.key detail) ∧
        f.Misses row place detail := by
  rw [decodeCell]
  cases hcell : row[place]? with
  | none => exact .inr ⟨_, rfl, .absent hcell⟩
  | some cell =>
    cases hread : f.converter.ofStored cell with
    | ok v => exact .inl ⟨v, by simp only [hread], cell, hcell, hread⟩
    | error failure => exact .inr ⟨_, by simp only [hread], .unreadable hcell hread⟩

/-- The cells from a place on are read one for each field, under its key. -/
theorem decodeCells_ok : ∀ {fs : List Field} {place : Nat} {pairs : List (String × Value)},
    decodeCells e row place fs = .ok pairs →
      List.Forall₂ (fun a p => p.1 = a.1.key ∧ a.1.ReadsAs row a.2 p.2) (fs.zipIdx place) pairs
  | [], _, _, h => by
    cases h
    exact .nil
  | f :: fs, place, _, h => by
    simp only [decodeCells, bind_eq_ok] at h
    obtain ⟨v, hv, rest, hrest, heq⟩ := h
    cases heq
    rcases decodeCell_cases e f place row with ⟨w, hw, hread⟩ | ⟨detail, hw, -⟩
    · cases hw.symm.trans hv
      exact .cons ⟨rfl, hread⟩ (decodeCells_ok hrest)
    · cases hw.symm.trans hv

/-- The first cell that is missed is the one that the failure names. -/
theorem decodeCells_error : ∀ {fs : List Field} {place : Nat} {failure : Failure},
    decodeCells e row place fs = .error failure →
      ∃ (i : Nat) (f : Field) (detail : String), fs[i]? = some f ∧ f.Misses row (place + i) detail ∧
        (∀ (j : Nat) (g : Field), j < i → fs[j]? = some g → ∃ v, g.ReadsAs row (place + j) v) ∧
        failure = .decode e.key f.key detail
  | [], _, _, h => by cases h
  | f :: fs, place, failure, h => by
    rw [decodeCells] at h
    rcases decodeCell_cases e f place row with ⟨v, hv, hread⟩ | ⟨detail, hv, hmissed⟩
    · rw [hv, ok_bind] at h
      rcases bind_eq_error.1 h with hrest | ⟨rest, _, hrest⟩
      · obtain ⟨i, g, detail, hg, hmissed, hearlier, hfailure⟩ := decodeCells_error hrest
        refine ⟨i + 1, g, detail, hg, by rwa [Nat.add_right_comm] at hmissed, ?_, hfailure⟩
        intro j k hj hk
        cases j with
        | zero =>
          cases hk
          exact ⟨v, hread⟩
        | succ j =>
          have hcell := hearlier j k (Nat.lt_of_succ_lt_succ hj) hk
          rwa [Nat.add_right_comm] at hcell
      · cases hrest
    · rw [hv] at h
      cases h
      exact ⟨0, f, detail, rfl, hmissed, fun j _ hj => absurd hj (Nat.not_lt_zero j), rfl⟩

end Store

/-! ## Rows -/

/-- A record has the keys of the pairs that it is made of. -/
theorem Record.isSome_get?_ofPairs (pairs : List (String × Value)) (key : String) :
    ((ofPairs pairs).get? key).isSome = true ↔ ∃ p ∈ pairs, p.1 = key := by
  have hfold : ∀ (pairs : List (String × Value)) (r : Record),
      ((pairs.foldl (fun r p => r.insert p.1 p.2) r).get? key).isSome = true ↔
        (∃ p ∈ pairs, p.1 = key) ∨ (r.get? key).isSome = true := by
    intro pairs
    induction pairs with
    | nil => simp
    | cons p pairs ih =>
      intro r
      rw [List.foldl_cons, ih, get?_insert]
      by_cases hkey : key = p.1
      · simp [hkey]
      · simp [hkey, Ne.symm hkey]
  simpa [ofPairs, empty, get?] using hfold pairs empty

namespace Store

variable {e : Entity} {row : List Value}

/-- The record that a row is read as: it has the keys of the fields that the database knows, and
for each of them the value of the cell at the place of the field. -/
structure IsReading (e : Entity) (row : List Value) (r : Record) : Prop where
  keys : ∀ key, (r.get? key).isSome = true ↔ ∃ f ∈ e.selected, f.key = key
  cells : ∀ (i : Nat) (f : Field), e.selected[i]? = some f →
    ∃ v, f.ReadsAs row i v ∧ r.get? f.key = some v

/-- The first cell of a row that cannot be read, with the field at its place. -/
def FailsAt (e : Entity) (row : List Value) (f : Field) (detail : String) : Prop :=
  ∃ i : Nat, e.selected[i]? = some f ∧ f.Misses row i detail ∧
    ∀ (j : Nat) (g : Field), j < i → e.selected[j]? = some g → ∃ v, g.ReadsAs row j v

/-- What becomes of a row: a record, or a failure that names a field. -/
inductive ReadsRowAs (e : Entity) (row : List Value) : Except Failure Record → Prop
  | whole {r : Record} (h : IsReading e row r) : ReadsRowAs e row (.ok r)
  | failed {f : Field} {detail : String} (h : FailsAt e row f detail) :
    ReadsRowAs e row (.error (.decode e.key f.key detail))

/-- The pairs of the cells make the record of a row. -/
theorem isReading_of_pairs (he : e.IsSound) {pairs : List (String × Value)}
    (h : List.Forall₂ (fun a p => p.1 = a.1.key ∧ a.1.ReadsAs row a.2 p.2)
      (e.selected.zipIdx 0) pairs) : IsReading e row (.ofPairs pairs) := by
  have hfst : pairs.map Prod.fst = e.selected.map Field.key := by
    have hsame : List.Forall₂ (· = ·) (pairs.map Prod.fst)
        ((e.selected.zipIdx 0).map fun a => a.1.key) :=
      List.forall₂_map_left_iff.2 (List.forall₂_map_right_iff.2 (h.flip.imp fun _ _ hp => hp.1))
    rw [List.forall₂_eq_eq_eq] at hsame
    have hfields : ((e.selected.zipIdx 0).map Prod.fst).map Field.key =
        e.selected.map Field.key := by
      rw [List.zipIdx_map_fst]
    rw [hsame, ← hfields, List.map_map]
    rfl
  have hnodup : (pairs.map Prod.fst).Nodup := by
    rw [hfst]
    exact List.pairwise_map.2 (he.keys.sublist List.filter_sublist)
  constructor
  · intro key
    rw [Record.isSome_get?_ofPairs]
    have hmem : key ∈ pairs.map Prod.fst ↔ key ∈ e.selected.map Field.key := by rw [hfst]
    simpa only [List.mem_map] using hmem
  · intro i f hf
    obtain ⟨p, hp, hkey, hread⟩ :=
      exists_of_forall₂ h (f, i) (List.mem_zipIdx_iff_getElem?.2 hf)
    refine ⟨p.2, hread, ?_⟩
    rw [← hkey]
    exact Record.get?_ofPairs_of_mem hnodup hp

/-- A row is read whole, or not at all. -/
theorem decodeRow_readsRowAs (he : e.IsSound) (row : List Value) :
    ReadsRowAs e row (decodeRow e row) := by
  rw [decodeRow]
  cases hcells : decodeCells e row 0 e.selected with
  | ok pairs => exact .whole (isReading_of_pairs he (decodeCells_ok hcells))
  | error failure =>
    obtain ⟨i, f, detail, hf, hmissed, hearlier, rfl⟩ := decodeCells_error hcells
    simp only [Nat.zero_add] at hmissed hearlier
    exact .failed ⟨i, hf, hmissed, hearlier⟩

/-! ## Answers -/

/-- What becomes of the rows of an answer: a record for each row, or the failure of the first row
that cannot be read. -/
inductive ReadsRows (e : Entity) : List (List Value) → Except Failure (List Record) → Prop
  | whole {rows : List (List Value)} {records : List Record}
    (h : List.Forall₂ (IsReading e) rows records) : ReadsRows e rows (.ok records)
  | failed {before after : List (List Value)} {row : List Value} {f : Field} {detail : String}
    (hbefore : ∀ row ∈ before, ∃ r, IsReading e row r) (h : FailsAt e row f detail) :
    ReadsRows e (before ++ row :: after) (.error (.decode e.key f.key detail))

/-- Records that are read are those of all rows. -/
theorem ReadsRows.forall₂ {rows : List (List Value)} {records : List Record}
    (h : ReadsRows e rows (.ok records)) : List.Forall₂ (IsReading e) rows records := by
  cases h with
  | whole h => exact h

/-- What becomes of an answer that should be one row. -/
inductive ReadsSingle (e : Entity) (operation : String) :
    List (List Value) → Except Failure Record → Prop
  | whole {row : List Value} {r : Record} (h : IsReading e row r) :
    ReadsSingle e operation [row] (.ok r)
  | failed {row : List Value} {f : Field} {detail : String} (h : FailsAt e row f detail) :
    ReadsSingle e operation [row] (.error (.decode e.key f.key detail))
  | notSingle {rows : List (List Value)} (h : rows.length ≠ 1) :
    ReadsSingle e operation rows (.error (.cardinality e.key operation 1 rows.length))

/-- The rows of an answer are all read, or none of them is. -/
theorem decodeRows_readsRows (he : e.IsSound) :
    ∀ rows : List (List Value), ReadsRows e rows (decodeRows e rows)
  | [] => .whole .nil
  | row :: rows => by
    rw [decodeRows]
    have hrow := decodeRow_readsRowAs he row
    cases hresult : decodeRow e row with
    | error failure =>
      rw [hresult] at hrow
      cases hrow with
      | failed h => exact @ReadsRows.failed e [] rows row _ _ (fun _ h => nomatch h) h
    | ok r =>
      rw [hresult] at hrow
      cases hrow with
      | whole h =>
        rw [ok_bind]
        have hrest := decodeRows_readsRows he rows
        cases hrest' : decodeRows e rows with
        | error failure =>
          rw [hrest'] at hrest
          cases hrest with
          | @failed before _ _ _ _ hbefore hfails =>
            refine @ReadsRows.failed e (row :: before) _ _ _ _ (fun row' hrow' => ?_) hfails
            rcases List.mem_cons.1 hrow' with rfl | hrow'
            · exact ⟨r, h⟩
            · exact hbefore row' hrow'
        | ok records =>
          rw [hrest'] at hrest
          cases hrest with
          | whole hrecords => exact .whole (.cons h hrecords)

/-- An answer that should be one row is one that is read, or it fails with the number of rows. -/
theorem decodeSingle_readsSingle (he : e.IsSound) (operation : String) (result : RowSet) :
    ReadsSingle e operation result.rows (decodeSingle e operation result) := by
  rw [decodeSingle]
  split
  · next row hrows =>
    rw [hrows]
    have hrow := decodeRow_readsRowAs he row
    cases hresult : decodeRow e row with
    | ok r =>
      rw [hresult] at hrow
      cases hrow with
      | whole h => exact .whole h
    | error failure =>
      rw [hresult] at hrow
      cases hrow with
      | failed h => exact .failed h
  · next hrows =>
    refine .notSingle fun hone => ?_
    obtain ⟨row, hrow⟩ := List.length_eq_one_iff.1 hone
    exact hrows row hrow

/-! ## Statements that ask for rows -/

/-- The list of columns: the text of each field that the database knows, at the place of the
field. -/
def columnList (e : Entity) (q : Quoting) : String :=
  String.intercalate ", " (e.selected.map (EntityNames.fieldText q))

/-- A statement asks for the columns of an entity: it selects them from its table, or asks for them
in the rows that it writes. -/
def AsksForColumns (e : Entity) (q : Quoting) (x : Statement) : Prop :=
  (∃ rest, x.sql = "select " ++ columnList e q ++ " from " ++ q.wrap e.table ++ rest) ∨
    ∃ write, x.sql = write ++ " returning " ++ columnList e q

end Store

/-! ## Operations that read an answer -/

/-- What becomes of an operation that reads the answer to the statement after `before` others. It
fails before it sends that statement, or the statement is refused, or what is read in the answer
is the result of the operation. -/
inductive ReadsAnswer {α : Type} (Asks : Statement → Prop)
    (Spec : List (List Value) → Except Failure α → Prop) (before : Nat) (s : Session) :
    Except Failure α × Session → Prop
  | unsent {xs : List Statement} {failure : Failure} {t : Session}
    (hsent : s.Exchanged (fun _ => True) t xs) (hfew : xs.length ≤ before) :
    ReadsAnswer Asks Spec before s (.error failure, t)
  | refused {xs : List Statement} {x : Statement} {failure : Failure} {t : Session}
    (hsent : s.Exchanged (fun _ => True) t (xs ++ [x])) (hplace : xs.length = before)
    (hasks : Asks x) (hreply : s.reply? before x = none) (hkind : failure.kind = .execution) :
    ReadsAnswer Asks Spec before s (.error failure, t)
  | read {xs : List Statement} {x : Statement} {answer : RowSet} {result : Except Failure α}
    {t : Session} (hsent : s.Exchanged (fun _ => True) t (xs ++ [x])) (hplace : xs.length = before)
    (hasks : Asks x) (hreply : s.reply? before x = some answer) (hread : Spec answer.rows result) :
    ReadsAnswer Asks Spec before s (result, t)

/-- An action sends a number of statements if it succeeds, and no more if it fails. -/
def Action.Sends {α : Type} (m : Action α) (count : Nat) (s : Session) : Prop :=
  ∃ xs, s.Exchanged (fun _ => True) (m s).2 xs ∧ xs.length ≤ count ∧
    ∀ a, (m s).1 = .ok a → xs.length = count

namespace Action.Sends

variable {α : Type} {db : Database} {s : Session}

/-- What is found out without the session. -/
theorem found (x : Except Failure α) : (liftM x : Action α).Sends 0 s :=
  ⟨[], .refl s, Nat.le_refl 0, fun _ _ => rfl⟩

theorem names (e : Entity) : (db.names e).Sends 0 s :=
  ⟨[], Database.names_exchanged e s, Nat.le_refl 0, fun _ _ => rfl⟩

theorem signal : db.signalChange.Sends 0 s := by
  obtain ⟨t, ht, hexchanged, -⟩ := db.signalChange_exchanged (fun _ => True) s
  rw [Sends, ht]
  exact ⟨[], hexchanged, Nat.le_refl 0, fun _ _ => rfl⟩

theorem send (t : Template) : (db.send t).Sends 1 s := by
  have hsends := db.sends t s
  rw [Sends]
  cases hresult : db.send t s with
  | mk result u =>
    rw [hresult] at hsends
    cases hsends with
    | closed _ => exact ⟨[], .refl s, Nat.zero_le 1, fun _ h => nomatch h⟩
    | refused _ hsent _ _ => exact ⟨_, hsent, Nat.le_refl 1, fun _ h => nomatch h⟩
    | answered _ hsent _ => exact ⟨_, hsent, Nat.le_refl 1, fun _ _ => rfl⟩

end Action.Sends

namespace ReadsAnswer

variable {α β : Type} {Asks : Statement → Prop} {Spec : List (List Value) → Except Failure α → Prop}
  {before count : Nat} {db : Database} {s : Session}

/-- What is sent before comes before the statement whose answer is read. -/
theorem after {m : Action β} {f : β → Action α} (hm : m.Sends count s)
    (hf : ∀ a t, m s = (.ok a, t) → ReadsAnswer Asks Spec before t (f a t)) :
    ReadsAnswer Asks Spec (count + before) s ((m >>= f) s) := by
  obtain ⟨xs, hxs, hfew, hall⟩ := hm
  cases hresult : m s with
  | mk result t =>
    rw [hresult] at hxs hall
    cases result with
    | error failure =>
      rw [Action.bind_of_error hresult]
      exact .unsent hxs (Nat.le_add_right_of_le hfew)
    | ok a =>
      rw [Action.bind_of_ok hresult]
      have hcount : xs.length = count := hall a rfl
      have hrest := hf a t hresult
      -- places are counted on from the statements that were sent before
      cases houtcome : f a t with
      | mk result' u =>
        rw [houtcome] at hrest
        cases hrest with
        | unsent hys hfew' =>
          exact .unsent (hxs.trans hys) (by rw [List.length_append]; omega)
        | refused hys hplace hasks hreply hkind =>
          rw [hxs.reply?_eq, hcount] at hreply
          have hboth := hxs.trans hys
          rw [← List.append_assoc] at hboth
          exact .refused hboth (by rw [List.length_append]; omega) hasks hreply hkind
        | read hys hplace hasks hreply hread =>
          rw [hxs.reply?_eq, hcount] at hreply
          have hboth := hxs.trans hys
          rw [← List.append_assoc] at hboth
          exact .read hboth (by rw [List.length_append]; omega) hasks hreply hread

theorem quiet {m : Action β} {f : β → Action α} (hm : m.Sends 0 s)
    (hf : ∀ a t, m s = (.ok a, t) → ReadsAnswer Asks Spec before t (f a t)) :
    ReadsAnswer Asks Spec before s ((m >>= f) s) := by
  rw [← Nat.zero_add before]
  exact after hm hf

/-- The answer to a statement that is sent is read. -/
theorem of_send {t : Template} {f : RowSet → Action α} (hasks : Asks (t.statement db.dialect.style))
    (hf : ∀ answer u, Spec answer.rows (f answer u).1 ∧
      u.Exchanged (fun _ => True) (f answer u).2 []) :
    ReadsAnswer Asks Spec 0 s ((db.send t >>= f) s) := by
  have hsends := db.sends t s
  cases hresult : db.send t s with
  | mk result u =>
    rw [hresult] at hsends
    cases hsends with
    | closed _ =>
      rw [Action.bind_of_error hresult]
      exact .unsent (.refl s) (Nat.le_refl 0)
    | refused hreply hsent _ hkind =>
      rw [Action.bind_of_error hresult]
      have hfirst : s.Exchanged (fun _ => True) u ([] ++ [t.statement db.dialect.style]) := hsent
      exact .refused hfirst rfl hasks hreply hkind
    | answered hreply hsent _ =>
      rw [Action.bind_of_ok hresult]
      obtain ⟨hread, hquiet⟩ := hf _ u
      have hfirst : s.Exchanged (fun _ => True) (f _ u).2 ([] ++ [t.statement db.dialect.style]) :=
        hsent.trans hquiet
      exact .read hfirst rfl hasks hreply hread

end ReadsAnswer

namespace Store

variable {st : Store} {t : Template} {s : Session}

/-! ### What is asked for -/

theorem asks_findStatement (he : st.entity.IsSound) {q : Quoting} {d : Dialect} {o : FindOptions}
    (h : findStatement st.entity (.resolve st.entity q) d o = .ok t) (style : TokenStyle) :
    AsksForColumns st.entity q (t.statement style) := by
  obtain ⟨list, hlist, clause, -, order, -, page, -, rfl⟩ := findStatement_eq_ok.1 h
  cases (selectList_resolve he q).symm.trans hlist
  exact .inl ⟨_, rfl⟩

theorem asks_selectStatement (he : st.entity.IsSound) {q : Quoting} {f : Filter}
    (h : selectStatement st.entity (.resolve st.entity q) f = .ok t) (style : TokenStyle) :
    AsksForColumns st.entity q (t.statement style) := by
  obtain ⟨clause, -, list, hlist, rfl⟩ := selectStatement_eq_ok.1 h
  cases (selectList_resolve he q).symm.trans hlist
  exact .inl ⟨_, rfl⟩

/-- A statement with a clause for the rows that it writes asks for their columns. -/
theorem asks_append_returningClause (he : st.entity.IsSound) {q : Quoting} {d : Dialect}
    (hreturning : d.capabilities.returning = true) {write returning : Template}
    (h : returningClause st.entity (.resolve st.entity q) d = .ok returning) (style : TokenStyle) :
    AsksForColumns st.entity q ((write ++ returning).statement style) := by
  rw [returningClause_eq_ok, if_pos hreturning] at h
  obtain ⟨list, hlist, rfl⟩ := h
  cases (selectList_resolve he q).symm.trans hlist
  refine .inr ⟨write.sql style, ?_⟩
  show Template.sql _ style = _
  rw [Template.sql, Template.render_append]
  simp [Template.render, Template.sql, columnList, String.append_assoc]

/-- An insert asks for the columns of its row, if it can. -/
theorem asks_insertStatement (he : st.entity.IsSound) {q : Quoting} {d : Dialect}
    (hreturning : d.capabilities.returning = true) {data : Record}
    (h : insertStatement st.entity (.resolve st.entity q) d data = .ok t) (style : TokenStyle) :
    AsksForColumns st.entity q (t.statement style) := by
  obtain ⟨written, -, insert, -, returning, hclause, rfl⟩ := insertStatement_eq_ok.1 h
  exact asks_append_returningClause he hreturning hclause style

theorem asks_updateStatement (he : st.entity.IsSound) {q : Quoting} {d : Dialect}
    (hreturning : d.capabilities.returning = true) {identity : Record}
    {written : List (Field × Value)}
    (h : updateStatement st.entity (.resolve st.entity q) d identity written = .ok t)
    (style : TokenStyle) : AsksForColumns st.entity q (t.statement style) := by
  obtain ⟨columns, -, clause, -, returning, hclause, rfl⟩ := updateStatement_eq_ok.1 h
  exact asks_append_returningClause he hreturning hclause style

/-! ### What is read -/

/-- The names that are found for the entity of a store are its own. -/
def FindsOwn (st : Store) (s : Session) : Prop :=
  ∀ names named, st.database.names st.entity s = (.ok names, named) →
    names = .resolve st.entity st.database.dialect.quoting

/-- Names that are known and the entity's own are found. -/
theorem Knows.findsOwn (h : st.Knows (.resolve st.entity st.database.dialect.quoting) s) :
    st.FindsOwn s := by
  intro names named hnames
  cases h.names_eq.symm.trans hnames
  rfl

/-- Names are still known once a statement was sent. -/
theorem Knows.after_send {names : EntityNames} (h : st.Knows names s) {result : RowSet}
    {u : Session} (hsent : st.database.send t s = (.ok result, u)) : st.Knows names u :=
  h.of_scopes (Database.send_ok hsent).2.2.1

theorem Knows.after_signal {names : EntityNames} (h : st.Knows names s) {a : Unit} {u : Session}
    (hsignal : st.database.signalChange s = (.ok a, u)) : st.Knows names u := by
  obtain ⟨v, hv, -, hscopes⟩ := st.database.signalChange_exchanged (fun _ => True) s
  cases hv.symm.trans hsignal
  exact h.of_scopes hscopes

theorem query_readsAnswer {α : Type} {Spec : List (List Value) → Except Failure α → Prop}
    (hown : st.FindsOwn s) {build : EntityNames → Except Failure Template}
    {read : RowSet → Except Failure α}
    (hasks : ∀ t, build (.resolve st.entity st.database.dialect.quoting) = .ok t →
      AsksForColumns st.entity st.database.dialect.quoting (t.statement st.database.dialect.style))
    (hread : ∀ answer, Spec answer.rows (read answer)) :
    ReadsAnswer (AsksForColumns st.entity st.database.dialect.quoting) Spec 0 s
      (st.query build read s) := by
  refine .quiet (.names _) fun names named hnames => .quiet (.found _) fun t v ht => ?_
  obtain rfl := hown names named hnames
  exact .of_send (hasks t (Action.lift_eq_ok.1 ht).1) fun answer u => ⟨hread answer, .refl u⟩

section

variable (he : st.entity.IsSound)

include he

/-- A search reads all rows of its answer. -/
theorem find_readsAnswer (hown : st.FindsOwn s) (o : FindOptions) :
    ReadsAnswer (AsksForColumns st.entity st.database.dialect.quoting) (ReadsRows st.entity) 0 s
      (st.find o s) := by
  rw [find_eq_query]
  exact query_readsAnswer hown (fun _ ht => asks_findStatement he ht _)
    fun answer => decodeRows_readsRows he answer.rows

/-- A row that is read again is the only one of its answer. -/
theorem findOne_readsAnswer (hown : st.FindsOwn s) (operation : String) (f : Filter) :
    ReadsAnswer (AsksForColumns st.entity st.database.dialect.quoting)
      (ReadsSingle st.entity operation) 0 s (st.findOne operation f s) :=
  query_readsAnswer hown (fun _ ht => asks_selectStatement he ht _)
    fun answer => decodeSingle_readsSingle he operation answer

/-- A row that is given back is read before the change is signalled. -/
theorem written_reads (operation : String) (answer : RowSet) (u : Session) :
    ReadsSingle st.entity operation answer.rows ((do
      let row ← decodeSingle st.entity operation answer
      st.database.signalChange
      return row : Action Record) u).1 ∧
    u.Exchanged (fun _ => True) ((do
      let row ← decodeSingle st.entity operation answer
      st.database.signalChange
      return row : Action Record) u).2 [] := by
  have hread := decodeSingle_readsSingle he operation answer
  cases hrow : decodeSingle st.entity operation answer with
  | error failure =>
    rw [hrow] at hread
    exact ⟨hread, .refl u⟩
  | ok r =>
    rw [hrow] at hread
    obtain ⟨v, hv, hexchanged, -⟩ := st.database.signalChange_exchanged (fun _ => True) u
    rw [Action.bind_of_ok (Action.lift_of_ok (rfl : Except.ok r = .ok r)), Action.bind_of_ok hv]
    exact ⟨hread, hexchanged⟩

/-- Which statement's answer an insert reads: its own, or that of the query after it. -/
theorem insert_readsAnswer (hown : st.FindsOwn s) (data : Record) :
    ReadsAnswer (AsksForColumns st.entity st.database.dialect.quoting)
      (ReadsSingle st.entity "insert")
      (if st.database.dialect.capabilities.returning then 0 else 1) s (st.insert data s) := by
  rw [insert_eq]
  refine .quiet (.names _) fun names named hnames => .quiet (.found _) fun t u ht => ?_
  obtain rfl := hown names named hnames
  obtain ⟨hstatement, rfl⟩ := Action.lift_eq_ok.1 ht
  have hknows := knows_of_names hnames
  by_cases hreturning : st.database.dialect.capabilities.returning = true
  · rw [if_pos hreturning]
    refine .of_send (asks_insertStatement he hreturning hstatement _) fun answer v => ?_
    rw [afterInsert, if_pos hreturning]
    exact written_reads he "insert" answer v
  · rw [if_neg hreturning]
    show ReadsAnswer _ _ (1 + 0) _ _
    refine .after (.send t) fun answer v hv => ?_
    rw [afterInsert, if_neg hreturning]
    refine .quiet .signal fun _ w hw => .quiet (.found _) fun f w' hw' => ?_
    obtain ⟨-, rfl⟩ := Action.lift_eq_ok.1 hw'
    exact findOne_readsAnswer he ((hknows.after_send hv).after_signal hw).findsOwn "insert" f

/-- Which statement's answer an update reads: its own, that of the query after it, or that of the
only query if there is nothing to write. -/
theorem update_readsAnswer (hown : st.FindsOwn s) (id : RowId) (data : Record) :
    ReadsAnswer (AsksForColumns st.entity st.database.dialect.quoting)
      (ReadsSingle st.entity "update")
      (if st.database.dialect.capabilities.returning then 0 else updateCount st.entity data) s
      (st.update id data s) := by
  rw [update_eq, updateCount]
  refine .quiet (.found _) fun before u hu => ?_
  obtain ⟨-, rfl⟩ := Action.lift_eq_ok.1 hu
  refine .quiet (.names _) fun names named hnames => ?_
  obtain rfl := hown names named hnames
  have hknows := knows_of_names hnames
  rw [updateWith]
  cases hwritten : writtenValues st.entity data false with
  | error failure =>
    refine .quiet (.found _) fun written v h => ?_
    cases (Action.lift_eq_ok.1 h).1
  | ok written =>
    refine .quiet (.found _) fun written' v h => ?_
    obtain ⟨heq, rfl⟩ := Action.lift_eq_ok.1 h
    cases heq
    cases written with
    | nil =>
      have hread := findOne_readsAnswer he hknows.findsOwn "update" (identityFilter before)
      simpa using hread
    | cons a written =>
      refine .quiet (.found _) fun t v ht => ?_
      obtain ⟨hstatement, rfl⟩ := Action.lift_eq_ok.1 ht
      by_cases hreturning : st.database.dialect.capabilities.returning = true
      · rw [if_pos hreturning]
        refine .of_send (asks_updateStatement he hreturning hstatement _) fun answer w => ?_
        rw [afterUpdate, if_pos hreturning]
        exact written_reads he "update" answer w
      · rw [if_neg hreturning]
        show ReadsAnswer _ _ (1 + 0) _ _
        refine .after (.send t) fun answer w hw => ?_
        rw [afterUpdate, if_neg hreturning]
        refine .quiet (.found _) fun _ w' hw' => .quiet .signal fun _ u hu => ?_
        obtain ⟨-, rfl⟩ := Action.lift_eq_ok.1 hw'
        exact findOne_readsAnswer he ((hknows.after_send hw).after_signal hu).findsOwn "update" _

end

/-- Searches, inserts and updates ask for the columns of the fields that the database knows, in the
order of the fields, and read each cell as the value of the field at its place. Rows are read whole
or not at all: the failure names the entity and the field of the first cell, row by row, that is
missing or makes no sense. Inserts and updates read one row, and fail with the number of rows if
there are more or none. -/
theorem reads_cells_by_place {e : BuiltEntity}
    {db : Database} {s : Session} (hown : db.KnowsOwn (db.store e).entity s) :
    (∀ o, ReadsAnswer (AsksForColumns (db.store e).entity db.dialect.quoting)
      (ReadsRows (db.store e).entity) 0 s ((db.store e).find o s)) ∧
    (∀ data, ReadsAnswer (AsksForColumns (db.store e).entity db.dialect.quoting)
      (ReadsSingle (db.store e).entity "insert")
      (if db.dialect.capabilities.returning then 0 else 1) s ((db.store e).insert data s)) ∧
    ∀ id data, ReadsAnswer (AsksForColumns (db.store e).entity db.dialect.quoting)
      (ReadsSingle (db.store e).entity "update")
      (if db.dialect.capabilities.returning then 0 else updateCount (db.store e).entity data) s
      ((db.store e).update id data s) := by
  have he : (db.store e).entity.IsSound := e.isSound.storedAs _
  have hfinds : (db.store e).FindsOwn s := fun _ _ hnames => hown.eq_resolve hnames
  exact ⟨find_readsAnswer he hfinds, insert_readsAnswer he hfinds, update_readsAnswer he hfinds⟩

/-- An entity with a field that the application computes between two that the database knows. -/
def receipt : Entity :=
  { key := "receipt", table := "receipt"
    fields := [.ofType "id" .integer,
      { Field.ofType "label" .text with isServerExpression := true },
      { Field.ofType "total" .integer with expression := some "net + tax" }]
    identity := ["id"] }

/-- A database with receipts. -/
def receiptDatabase : Database := .root Dialect.plain .off

/-- A session in which a row is found that has one cell more than there are fields. -/
def foundReceipt : Session :=
  { Session.fresh with
    scripted := [.rows { RowSet.empty with rows := [[.integer 1, .integer 9, .text "x"]] }] }

/-- The field after the computed one gets the cell at its own place. -/
theorem reads_cells_by_place_receipts :
    ∃ r, ((receiptDatabase.store receipt).find default foundReceipt).1 = .ok [r] ∧
      IsReading (receiptDatabase.store receipt).entity [.integer 1, .integer 9, .text "x"] r := by
  obtain ⟨hfind, -⟩ := @reads_cells_by_place
    ⟨receipt, "receipt", none, receipt.fields, ["id"], rfl⟩ receiptDatabase foundReceipt
    (fun n hn => nomatch hn)
  have hread := hfind default
  have hrun : (receiptDatabase.store receipt).find default foundReceipt =
      (.ok [.ofPairs [("id", .integer 1), ("total", .integer 9)]],
        ((receiptDatabase.store receipt).find default foundReceipt).2) := rfl
  rw [hrun] at hread ⊢
  refine ⟨_, rfl, ?_⟩
  cases hread with
  | read hsent hplace hasks hreply hrows =>
    cases hreply
    exact (List.forall₂_cons.1 hrows.forall₂).1

end Store

end EntitySql
