import EntitySql.Proofs.DecodedRows
import EntitySql.Proofs.WrittenColumns

/-!
# Pieces of a bulk insert

Records that are inserted together are cut into pieces of bounded length. A
piece in which some record has a value for a column is sent as one statement,
with a tuple of values for each record; the records of any other piece are
inserted one by one, each as a row of defaults. So all records are sent, each
of them once and in the order in which they were given, and the number of rows
is the sum of what the database reports for the statements.

- `IsCut`: a list in consecutive pieces, all of them full but the last one.
- `Batch`, `Batch.ofPiece`: what is sent for a piece.
- `Batch.statements`: as statements.
- `Batch.Succeeds`, `SucceedAll`: the batches are sent one after the other, and
  nothing fails.
- `Store.bulkInsert_sends_pieces`: what a bulk insert sends, and when it
  succeeds.
-/

namespace EntitySql

/-! ## Pieces of a list -/

/-- A list is cut into consecutive pieces of at most `size` members, and all of them but the last
one have as many. -/
structure IsCut {α : Type} (size : Nat) (xs : List α) (pieces : List (List α)) : Prop where
  flatten : pieces.flatten = xs
  nonempty : ∀ piece ∈ pieces, piece ≠ []
  bounded : ∀ piece ∈ pieces, piece.length ≤ size
  full : ∀ piece ∈ pieces.dropLast, piece.length = size

namespace Store

theorem isCut_chunks {α : Type} (size : Nat) (xs : List α) :
    IsCut (size + 1) xs (chunks size xs) := by
  induction xs using chunks.induct size with
  | case1 =>
    rw [chunks]
    constructor
    · rfl
    · intro piece hpiece
      cases hpiece
    · intro piece hpiece
      cases hpiece
    · intro piece hpiece
      cases hpiece
  | case2 x xs ih =>
    rw [chunks]
    constructor
    · rw [List.flatten_cons, ih.flatten, List.cons_append, List.take_append_drop]
    · intro piece hpiece
      rcases List.mem_cons.1 hpiece with rfl | hpiece
      · exact List.cons_ne_nil _ _
      · exact ih.nonempty piece hpiece
    · intro piece hpiece
      rcases List.mem_cons.1 hpiece with rfl | hpiece
      · rw [List.length_cons, List.length_take]
        omega
      · exact ih.bounded piece hpiece
    · intro piece hpiece
      cases hrest : chunks size (xs.drop size) with
      | nil =>
        rw [hrest] at hpiece
        cases hpiece
      | cons next rest =>
        rw [hrest, List.dropLast_cons_cons] at hpiece
        rcases List.mem_cons.1 hpiece with rfl | hpiece
        · -- something is left, so the piece took as much as it could
          have hleft : xs.drop size ≠ [] := by
            intro hnil
            rw [hnil, chunks] at hrest
            cases hrest
          have hlength : size < xs.length := by
            by_contra hshort
            exact hleft (List.drop_of_length_le (Nat.not_lt.1 hshort))
          rw [List.length_cons, List.length_take]
          omega
        · exact ih.full piece (by rw [hrest]; exact hpiece)

end Store

/-! ## Batches -/

/-- A statement is sent with its values, each under its token. -/
def Database.sendStatement (db : Database) (x : Statement) : Action RowSet :=
  db.execute x.sql x.params (Template.tokensFrom db.dialect.style 1 x.params)

theorem Database.send_eq_sendStatement (db : Database) (t : Template) :
    db.send t = db.sendStatement (t.statement db.dialect.style) := rfl

/-- What is sent for a piece. -/
inductive Batch where
  /-- One statement with columns, and a tuple of values for each record. -/
  | rows (columns : List String) (tuples : List (List Value))
  /-- A number of statements, each for a row of defaults. -/
  | defaults (count : Nat)

namespace Batch

/-- The fields that some record of a piece has a value for, in declaration order. -/
def fields (e : Entity) (piece : List Record) : List Field :=
  e.writable.filter fun f => piece.any fun r => (f.given r true).isSome

/-- The values of a record for fields, with NULL where it has none. -/
def tuple (fs : List Field) (r : Record) : List Value :=
  fs.map fun f => (f.given r true).getD .null

/-- The tuples of records have a value for each column. -/
theorem length_of_mem_tuples (q : Quoting) (fs : List Field) (piece : List Record) :
    ∀ vs ∈ piece.map (tuple fs), vs.length = (fs.map fun f => q.wrap f.column).length := by
  intro vs hvs
  obtain ⟨r, -, rfl⟩ := List.mem_map.1 hvs
  rw [tuple, List.length_map, List.length_map]

/-- What is sent for a piece: a tuple for each record, or a row of defaults for each if no record
has a value for a field. -/
def ofPiece (e : Entity) (q : Quoting) (piece : List Record) : Batch :=
  if (fields e piece).isEmpty then .defaults piece.length
  else .rows ((fields e piece).map fun f => q.wrap f.column) (piece.map (tuple (fields e piece)))

/-- The clause of an insert that asks for the columns of its row, where the database has it. -/
def returningText (st : Store) : String :=
  if st.database.dialect.capabilities.returning then
    " returning " ++ Store.columnList st.entity st.database.dialect.quoting
  else ""

/-- The statement for tuples of values: the tuples have one token for each value. -/
def rowsStatement (st : Store) (columns : List String) (tuples : List (List Value)) : Statement :=
  ⟨Store.insertHead (.resolve st.entity st.database.dialect.quoting) columns ++
    String.intercalate ", " (tupleTexts st.database.dialect.style 1 tuples), tuples.flatten⟩

/-- The statement for a row of defaults. -/
def defaultsStatement (st : Store) : Statement :=
  ⟨"insert into " ++ st.database.dialect.quoting.wrap st.entity.table ++ " default values" ++
    returningText st, []⟩

/-- The statements of a batch. -/
def statements (st : Store) : Batch → List Statement
  | .rows columns tuples => [rowsStatement st columns tuples]
  | .defaults count => List.replicate count (defaultsStatement st)

/-- A batch is sent and succeeds, with a number of rows: the number that the database reports for
the statement, or else that of its tuples; the number of the rows of defaults. -/
inductive Succeeds (st : Store) : Batch → Session → Nat → Session → Prop
  | rows {columns : List String} {tuples : List (List Value)} {s u t : Session} {answer : RowSet}
    (hsent : st.database.sendStatement (rowsStatement st columns tuples) s = (.ok answer, u))
    (hsignal : st.database.signalChange u = (.ok (), t)) :
    Succeeds st (.rows columns tuples) s (answer.affected.getD tuples.length) t
  | none {s : Session} : Succeeds st (.defaults 0) s 0 s
  | more {count : Nat} {s u t : Session} {r : Record}
    (hinsert : st.insert Record.empty s = (.ok r, u))
    (hrest : Succeeds st (.defaults count) u count t) :
    Succeeds st (.defaults (count + 1)) s (count + 1) t

/-- Batches are sent one after the other and succeed; their rows are added up. -/
inductive SucceedAll (st : Store) : List Batch → Session → Nat → Session → Prop
  | nil {s : Session} : SucceedAll st [] s 0 s
  | cons {b : Batch} {rest : List Batch} {s u t : Session} {n m : Nat}
    (hfirst : Succeeds st b s n u) (hrest : SucceedAll st rest u m t) :
    SucceedAll st (b :: rest) s (n + m) t

end Batch

/-! ## Statements of a piece -/

namespace Store

variable {st : Store} {e : Entity} {piece : List Record} {rows : List (List (Field × Value))}

/-- A row gives a value to a field exactly if something is assigned to the key of the field. -/
theorem gives_eq_isSome_assigned (w : List (Field × Value)) (f : Field) :
    gives w f = (assigned w f.key).isSome := by
  rw [gives, assigned, Option.isSome_map, List.isSome_find?]

/-- The value of a row for a field is what is assigned to the key of the field. -/
theorem valueFor_eq_assigned (w : List (Field × Value)) (f : Field) :
    valueFor w f = (assigned w f.key).getD .null := by
  rw [valueFor, assigned]
  cases w.find? fun a => a.1.key == f.key <;> rfl

section

variable (he : e.IsSound)

include he

/-- What is written of a record gives a value to the fields that statements may write and that the
record has a value for. -/
theorem gives_of_written {r : Record} {w : List (Field × Value)}
    (hw : writtenValues e r true = .ok w) {f : Field} (hf : f ∈ e.fields) :
    gives w f = ((f.given r true).isSome && !f.isReadOnly) := by
  obtain ⟨hreadOnly, hwritable⟩ := assigned_writtenValues he hw hf
  rw [gives_eq_isSome_assigned]
  cases hkind : f.isReadOnly with
  | true => rw [hreadOnly hkind, Bool.not_true, Bool.and_false, Option.isSome_none]
  | false => rw [(hwritable hkind).1, Bool.not_false, Bool.and_true]

/-- The fields of a statement are those that some record of its piece has a value for. -/
theorem bulkFields_eq_fields (hrows : writtenRows e piece = .ok rows) :
    bulkFields e rows = Batch.fields e piece := by
  rw [bulkFields, Batch.fields, Entity.writable, List.filter_filter]
  refine List.filter_congr fun f hf => ?_
  have hwritten := writtenRows_eq_ok.1 hrows
  clear hrows
  induction hwritten with
  | nil => rfl
  | cons hw _ ih =>
    rw [List.any_cons, List.any_cons, ih, gives_of_written he hw hf, Bool.and_or_distrib_right]

/-- The tuples of a statement have the values of the records of its piece. -/
theorem tuples_eq {fs : List Field} (hfs : ∀ f ∈ fs, f ∈ e.writable)
    (hrows : writtenRows e piece = .ok rows) :
    rows.map (fun row => fs.map (valueFor row)) = piece.map (Batch.tuple fs) := by
  have hwritten := writtenRows_eq_ok.1 hrows
  clear hrows
  induction hwritten with
  | nil => rfl
  | cons hw _ ih =>
    rw [List.map_cons, List.map_cons, ih]
    refine congrArg (· :: _) (List.map_congr_left fun f hf => ?_)
    obtain ⟨hmem, hkind⟩ := List.mem_filter.1 (hfs f hf)
    rw [valueFor_eq_assigned, ((assigned_writtenValues he hw hmem).2 (by simpa using hkind)).1]

end

/-- The statement for tuples of values. -/
theorem exists_rowsStatement (he : st.entity.IsSound) {fs : List Field}
    (hfs : ∀ f ∈ fs, f ∈ st.entity.writable) (hrows : writtenRows st.entity piece = .ok rows) :
    ∃ t, bulkStatement (.resolve st.entity st.database.dialect.quoting) fs rows = .ok t ∧
      t.statement st.database.dialect.style =
        Batch.rowsStatement st (fs.map fun f => st.database.dialect.quoting.wrap f.column)
          (piece.map (Batch.tuple fs)) := by
  have htuples : (rows.map fun row => tuple (fs.map (valueFor row))) =
      (piece.map (Batch.tuple fs)).map tuple := by
    rw [← tuples_eq he hfs hrows, List.map_map]
    rfl
  have hvalues : ((piece.map (Batch.tuple fs)).map tuple).flatMap Template.values =
      (piece.map (Batch.tuple fs)).flatten := by
    rw [List.flatMap_map, ← List.flatMap_id]
    exact List.flatMap_congr fun vs _ => values_tuple vs
  rw [bulkStatement, columnTexts_writable he _ hfs, ok_bind, htuples]
  refine ⟨_, rfl, ?_⟩
  rw [Template.statement, Batch.rowsStatement, Template.sql, Template.render, render_tuples,
    Template.values, Template.values_separated, hvalues]

theorem exists_defaultsStatement (he : st.entity.IsSound) :
    ∃ t, insertStatement st.entity (.resolve st.entity st.database.dialect.quoting)
        st.database.dialect Record.empty = .ok t ∧
      t.statement st.database.dialect.style = Batch.defaultsStatement st := by
  delta Batch.defaultsStatement
  rw [insertStatement, writtenValues_empty, ok_bind, returningClause, selectList_resolve he,
    Batch.returningText]
  by_cases hreturning : st.database.dialect.capabilities.returning = true
  · rw [if_pos hreturning, if_pos hreturning]
    refine ⟨_, rfl, ?_⟩
    simp [Template.statement, Template.sql, Template.render, Template.values, columnList,
      EntityNames.resolve, EntityNames.resolveBy, String.append_assoc]
  · rw [if_neg hreturning, if_neg hreturning]
    refine ⟨_, rfl, ?_⟩
    simp [Template.statement, Template.sql, Template.render, Template.values,
      EntityNames.resolve, EntityNames.resolveBy]

/-! ## Batches that are sent -/

/-- The number of rows of defaults is that of their statements. -/
theorem eq_of_succeeds_defaults {count n : Nat} {s t : Session}
    (h : Batch.Succeeds st (.defaults count) s n t) : n = count := by
  cases h <;> rfl

/-- Rows of defaults are inserted exactly if their batch succeeds. -/
theorem insertDefaults_eq_ok {t : Session} : ∀ {records : List Record} {s : Session},
    st.insertDefaults records s = (.ok (), t) ↔
      Batch.Succeeds st (.defaults records.length) s records.length t
  | [], s => by
    constructor
    · intro h
      cases h
      exact .none
    · intro h
      cases h
      rfl
  | _ :: rest, s => by
    rw [insertDefaults, Action.bind_eq_ok]
    constructor
    · rintro ⟨r, u, hinsert, hrest⟩
      exact .more hinsert (insertDefaults_eq_ok.1 hrest)
    · intro h
      cases h with
      | more hinsert hrest => exact ⟨_, _, hinsert, insertDefaults_eq_ok.2 hrest⟩

theorem insertChunk_eq_ok (he : st.entity.IsSound) (hrows : writtenRows st.entity piece = .ok rows)
    {s t : Session} {n : Nat} :
    st.insertChunk (.resolve st.entity st.database.dialect.quoting) piece s = (.ok n, t) ↔
      Batch.Succeeds st (.ofPiece st.entity st.database.dialect.quoting piece) s n t := by
  have hfields := bulkFields_eq_fields he hrows
  rw [insertChunk, Batch.ofPiece, Action.bind_of_ok (Action.lift_of_ok hrows), hfields]
  by_cases hempty : (Batch.fields st.entity piece).isEmpty = true
  · rw [if_pos hempty, if_pos hempty, Action.bind_eq_ok]
    constructor
    · rintro ⟨_, u, hdefaults, hlength⟩
      cases hlength
      exact insertDefaults_eq_ok.1 hdefaults
    · intro hsucceeds
      cases eq_of_succeeds_defaults hsucceeds
      exact ⟨(), t, insertDefaults_eq_ok.2 hsucceeds, rfl⟩
  · rw [if_neg hempty, if_neg hempty]
    have hwritable : ∀ f ∈ Batch.fields st.entity piece, f ∈ st.entity.writable :=
      fun f hf => List.mem_of_mem_filter hf
    obtain ⟨x, hx, hstatement⟩ := exists_rowsStatement he hwritable hrows
    rw [Action.bind_of_ok (Action.lift_of_ok hx), Database.send_eq_sendStatement, hstatement]
    simp only [Action.bind_eq_ok]
    constructor
    · rintro ⟨answer, u, hsent, _, v, hsignal, hcount⟩
      cases hcount
      rw [← List.length_map (f := Batch.tuple (Batch.fields st.entity piece))]
      exact .rows hsent hsignal
    · intro hsucceeds
      cases hsucceeds with
      | rows hsent hsignal =>
        rw [List.length_map]
        exact ⟨_, _, hsent, (), _, hsignal, rfl⟩

/-- Pieces are inserted exactly if their batches succeed one after the other. -/
theorem insertChunks_eq_ok (he : st.entity.IsSound) {t : Session} :
    ∀ {pieces : List (List Record)} {s : Session} {n : Nat},
      (∀ piece ∈ pieces, ∃ rows, writtenRows st.entity piece = .ok rows) →
      (st.insertChunks (.resolve st.entity st.database.dialect.quoting) pieces s = (.ok n, t) ↔
        Batch.SucceedAll st (pieces.map (.ofPiece st.entity st.database.dialect.quoting)) s n t)
  | [], s, n, _ => by
    constructor
    · intro h
      cases h
      exact .nil
    · intro hall
      cases hall
      rfl
  | piece :: rest, s, n, hwritten => by
    obtain ⟨⟨rows, hrows⟩, hrest⟩ := List.forall_mem_cons.1 hwritten
    simp only [insertChunks, Action.bind_eq_ok, insertChunk_eq_ok he hrows,
      insertChunks_eq_ok he hrest]
    constructor
    · rintro ⟨first, u, hfirst, others, v, hothers, hsum⟩
      cases hsum
      exact .cons hfirst hothers
    · intro hall
      cases hall with
      | cons hfirst hothers => exact ⟨_, _, hfirst, _, _, hothers, rfl⟩

/-! ## What batches write -/

theorem inserts_defaultsStatement (he : st.entity.IsSound) :
    st.Inserts (.resolve st.entity st.database.dialect.quoting) [[]]
      (Batch.defaultsStatement st) := by
  refine .defaults ?_
  rw [AsksForRows, Batch.returningText, selectList_resolve he]
  by_cases hreturning : st.database.dialect.capabilities.returning = true
  · rw [if_pos hreturning]
    exact .inr ⟨_, rfl, rfl⟩
  · rw [if_neg hreturning]
    exact .inl rfl

theorem inserts_rowsStatement (st : Store) {columns : List String} {tuples : List (List Value)}
    (hne : columns ≠ []) (hwidth : ∀ vs ∈ tuples, vs.length = columns.length) :
    st.Inserts (.resolve st.entity st.database.dialect.quoting) (tuples.map columns.zip)
      (Batch.rowsStatement st columns tuples) := by
  have hinserts : st.Inserts (.resolve st.entity st.database.dialect.quoting) _ _ :=
    .values hne hwidth (.inl rfl)
  rwa [String.append_empty] at hinserts

/-- A piece is written with the statements of its batch. -/
theorem insertChunk_writes (he : st.entity.IsSound)
    (hrows : writtenRows st.entity piece = .ok rows) :
    st.AlwaysWrites (.resolve st.entity st.database.dialect.quoting)
      (st.insertChunk (.resolve st.entity st.database.dialect.quoting) piece)
      ((Batch.ofPiece st.entity st.database.dialect.quoting piece).statements st) := by
  have hfields := bulkFields_eq_fields he hrows
  refine .build hrows ?_
  dsimp only
  rw [hfields, Batch.ofPiece]
  by_cases hempty : (Batch.fields st.entity piece).isEmpty = true
  · rw [if_pos hempty, if_pos hempty, Batch.statements, ← List.map_const']
    obtain ⟨t, ht, hstatement⟩ := exists_defaultsStatement he
    have hquery := (inserts_defaultsStatement he).isQuery_eq
    rw [← hstatement] at hquery ⊢
    have hdefault : st.AlwaysWrites (.resolve st.entity st.database.dialect.quoting)
        (st.insert Record.empty) [t.statement st.database.dialect.style] :=
      fun s hs => ⟨insert_writes ht hquery hs.names_eq, fun _ _ h => hs.scopes_insert h⟩
    simpa using (insertDefaults_writes hdefault piece).bind fun _ => .of_pure piece.length
  · rw [if_neg hempty, if_neg hempty, Batch.statements]
    have hwritable : ∀ f ∈ Batch.fields st.entity piece, f ∈ st.entity.writable :=
      fun f hf => List.mem_of_mem_filter hf
    obtain ⟨t, ht, hstatement⟩ := exists_rowsStatement he hwritable hrows
    have hne : ((Batch.fields st.entity piece).map fun f =>
        st.database.dialect.quoting.wrap f.column) ≠ [] := by
      simpa using hempty
    have hinserts := inserts_rowsStatement st hne (Batch.length_of_mem_tuples _ _ piece)
    rw [← hstatement] at hinserts ⊢
    exact .build ht ((AlwaysWrites.send hinserts).bind fun _ =>
      AlwaysWrites.signal.bind fun _ => .of_pure _)

theorem insertChunks_writes (he : st.entity.IsSound) : ∀ {pieces : List (List Record)},
    (∀ piece ∈ pieces, ∃ rows, writtenRows st.entity piece = .ok rows) →
      st.AlwaysWrites (.resolve st.entity st.database.dialect.quoting)
        (st.insertChunks (.resolve st.entity st.database.dialect.quoting) pieces)
        ((pieces.map (Batch.ofPiece st.entity st.database.dialect.quoting)).flatMap
          (Batch.statements st))
  | [], _ => .of_pure 0
  | piece :: rest, hwritten => by
    obtain ⟨⟨rows, hrows⟩, hrest⟩ := List.forall_mem_cons.1 hwritten
    rw [List.map_cons, List.flatMap_cons, insertChunks]
    have hboth := (insertChunk_writes he hrows).bind fun n =>
      (insertChunks_writes he hrest).bind fun m => .of_pure (n + m)
    simpa using hboth

/-! ## Bulk inserts -/

/-- The batches of records that are inserted together, one for each piece. -/
def batches (st : Store) (records : List Record) : List Batch :=
  (chunks (bulkSize - 1) records).map (.ofPiece st.entity st.database.dialect.quoting)

/-- Records whose values have stored forms can be written. -/
theorem exists_writtenRows_of_converts {records : List Record}
    (hconverts : ∀ r ∈ records, ∀ f ∈ e.writable, ∀ v, r.get? f.key = some v →
      ∃ stored, f.converter.toStored v = .ok stored) :
    ∃ rows, writtenRows e records = .ok rows :=
  exists_writtenRows_iff.2 fun r hr => ⟨_, storedValues_of_converts (hconverts r hr)⟩

/-- The tuples of a batch belong to the records of its piece, and each of them has a value for each
column. -/
theorem tuples_of_ofPiece {q : Quoting} {columns : List String} {tuples : List (List Value)}
    (h : Batch.ofPiece e q piece = .rows columns tuples) :
    columns = (Batch.fields e piece).map (fun f => q.wrap f.column) ∧
      tuples = piece.map (Batch.tuple (Batch.fields e piece)) ∧
      (∀ vs ∈ tuples, vs.length = columns.length) ∧
      tuples.flatten.length = tuples.length * columns.length := by
  rw [Batch.ofPiece] at h
  split at h
  · cases h
  · cases h
    have hwidth := Batch.length_of_mem_tuples q (Batch.fields e piece) piece
    refine ⟨rfl, rfl, hwidth, ?_⟩
    rw [List.length_flatten, List.map_congr_left hwidth, List.map_const', List.sum_replicate_nat]

/-- Records whose values have stored forms are cut into consecutive pieces, all of them full but
the last one, and a batch is sent for each piece. One with columns has those that some record of
the piece has a value for, in declaration order, and a tuple for each record, so that its statement
has as many parameters as tuples times columns. The bulk insert succeeds exactly if all batches
succeed one after the other, and then the number of rows is the sum of theirs. Apart from queries,
it sends the statements of the batches: all of them if it succeeds, and none that comes after a
failure. -/
theorem bulkInsert_sends_pieces {e : BuiltEntity}
    {db : Database} {s named : Session} {names : EntityNames}
    (hown : db.KnowsOwn (db.store e).entity s)
    (hnames : db.names (db.store e).entity s = (.ok names, named)) {records : List Record}
    (hconverts : ∀ r ∈ records, ∀ f ∈ (db.store e).entity.writable, ∀ v, r.get? f.key = some v →
      ∃ stored, f.converter.toStored v = .ok stored) :
    IsCut bulkSize records (chunks (bulkSize - 1) records) ∧
    (∀ piece ∈ chunks (bulkSize - 1) records, ∀ columns tuples,
      Batch.ofPiece (db.store e).entity db.dialect.quoting piece = .rows columns tuples →
        tuples.length = piece.length ∧ (∀ vs ∈ tuples, vs.length = columns.length) ∧
          tuples.flatten.length = tuples.length * columns.length) ∧
    (∀ n t, (db.store e).bulkInsert records s = (.ok n, t) ↔
      Batch.SucceedAll (db.store e) ((db.store e).batches records) named n t) ∧
    ((db.store e).bulkInsert records).Writes s
      (((db.store e).batches records).flatMap (Batch.statements (db.store e))) := by
  have he : (db.store e).entity.IsSound := e.isSound.storedAs _
  obtain rfl := hown.eq_resolve hnames
  have hwritten : ∀ piece ∈ chunks (bulkSize - 1) records,
      ∃ rows, writtenRows (db.store e).entity piece = .ok rows := fun piece hpiece =>
    exists_writtenRows_of_converts fun r hr => hconverts r (mem_of_mem_chunks hr hpiece)
  refine ⟨isCut_chunks _ records, fun piece _ columns tuples hpiece => ?_, fun n t => ?_, ?_⟩
  · obtain ⟨-, rfl, hwidth, hlength⟩ := tuples_of_ofPiece hpiece
    exact ⟨List.length_map _, hwidth, hlength⟩
  · have hbulk : (db.store e).bulkInsert records s = (db.store e).insertChunks _ _ named :=
      Action.bind_of_ok hnames
    rw [hbulk]
    exact insertChunks_eq_ok he hwritten
  · exact names_writes hnames (insertChunks_writes he hwritten named (knows_of_names hnames)).1

/-- Two notes, the second without a title. -/
def notes : List Record :=
  [.ofPairs [("id", .integer 1), ("title", .text "a")], .ofPairs [("id", .integer 2)]]

/-- A session in which the database reports two rows for a statement. -/
def twoRowsSession : Session :=
  { Session.fresh with scripted := [.rows { RowSet.empty with affected := some 2 }] }

/-- Two notes are one piece, which is sent as one statement and inserts two rows. -/
theorem bulkInsert_sends_pieces_notes :
    IsCut bulkSize notes [notes] ∧
    (∃ named t, Batch.SucceedAll (noteDatabase.store note)
      [.rows ["id", "title"] [[.integer 1, .text "a"], [.integer 2, .null]]] named 2 t) ∧
    ((noteDatabase.store note).bulkInsert notes).Writes twoRowsSession
      [⟨"insert into note (id, title) values (?, ?), (?, ?)",
        [.integer 1, .text "a", .integer 2, .null]⟩] := by
  have hchunks : chunks (bulkSize - 1) notes = [notes] := chunks_of_short (by decide)
  have hbatches : (noteDatabase.store builtNote).batches notes =
      [.rows ["id", "title"] [[.integer 1, .text "a"], [.integer 2, .null]]] := by
    rw [batches, hchunks]
    rfl
  have hconverts : ∀ r ∈ notes, ∀ f ∈ (noteDatabase.store note).entity.writable, ∀ v,
      r.get? f.key = some v → ∃ stored, f.converter.toStored v = .ok stored := by
    intro r hr f hf v hv
    have hfield : f ∈ [Field.ofType "id" .integer, .ofType "title" .text] := hf
    simp only [notes, List.mem_cons, List.not_mem_nil, or_false] at hr hfield
    rcases hr with rfl | rfl <;> rcases hfield with rfl | rfl <;> cases hv <;> exact ⟨_, rfl⟩
  obtain ⟨hcut, -, hsucceeds, hwrites⟩ := @bulkInsert_sends_pieces
    builtNote noteDatabase twoRowsSession _ _ (fun n hn => nomatch hn) rfl notes hconverts
  have hinserted : ((noteDatabase.store note).bulkInsert notes twoRowsSession).1 = .ok 2 := by
    rw [bulkInsert, hchunks]
    rfl
  rw [hchunks] at hcut
  rw [hbatches] at hsucceeds hwrites
  exact ⟨hcut, ⟨_, _, (hsucceeds 2 _).1 (Prod.ext hinserted rfl)⟩, hwrites⟩

end Store

end EntitySql
