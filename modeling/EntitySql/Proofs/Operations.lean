import EntitySql.Proofs.Lockstep

/-!
# Operations in step

Each operation of a store is a few statements with decisions between them. Its
runs stay in step as soon as what is built from their arguments corresponds:
the statements, the identities, and the fields that are written. Nothing else
of the arguments decides what is sent.

- `Operation`, `Operation.after`: the operations of a store as data.
- `Store.count_inStep` and the like, one for each operation: what its runs need
  to stay in step.
-/

namespace EntitySql

/-- The same store with another way to write tokens. -/
def Store.withStyle (st : Store) (style : TokenStyle) : Store :=
  { st with database := st.database.withStyle style }

/-- An operation of a store with its arguments. -/
inductive Operation where
  | count (f : Filter)
  | find (o : FindOptions)
  | insert (data : Record)
  | update (id : RowId) (data : Record)
  | delete (id : RowId)
  | bulkInsert (rows : List Record)

/-- The session after an operation, whether it has succeeded or not. -/
def Operation.after (st : Store) (s : Session) : Operation → Session
  | .count f => (st.count f s).2
  | .find o => (st.find o s).2
  | .insert data => (st.insert data s).2
  | .update id data => (st.update id data s).2
  | .delete id => (st.delete id s).2
  | .bulkInsert rows => (st.bulkInsert rows s).2

namespace Store

variable {ι : Type} {P : List Scope → Prop} {N : EntityNames → Prop} {style : ι → TokenStyle}
  {T : (ι → Template) → Prop} {st : Store}

/-- The database tells statements apart by their templates, whatever the tokens. -/
def SameKind (style : ι → TokenStyle) (T : (ι → Template) → Prop) : Prop :=
  ∀ t, T t → ∀ i j, returnsRows ((t i).sql (style i)) = returnsRows ((t j).sql (style j))

/-- What the runs of operations of a store have in common: the database tells their statements
apart alike, and hands out the same names, of a kind, for the entity of the store. -/
structure RunsAlike (P : List Scope → Prop) (N : EntityNames → Prop) (style : ι → TokenStyle)
    (T : (ι → Template) → Prop) (st : Store) : Prop where
  kind : SameKind style T
  named : InStep P style T (fun a => ∃ names, N names ∧ ∀ i, a i = names) fun i =>
    (st.database.withStyle (style i)).names st.entity

/-- The rows that pass the filters of all runs are read by corresponding statements. -/
def SelectsAlike (N : EntityNames → Prop) (T : (ι → Template) → Prop) (e : Entity)
    (f : ι → Filter) : Prop :=
  ∀ names, N names → Agree T fun i => selectStatement e names (f i)

/-! ## Reading -/

/-- A statement that is built with the names of the entity, and the reading of its answer. -/
theorem query_inStep {α : Type} (hst : RunsAlike P N style T st)
    {build : ι → EntityNames → Except Failure Template}
    (hbuild : ∀ names, N names → Agree T fun i => build i names)
    (read : RowSet → Except Failure α) :
    InStep P style T AllSame fun i => (do
      let names ← (st.database.withStyle (style i)).names st.entity
      let statement ← build i names
      let result ← (st.database.withStyle (style i)).send statement
      read result : Action α) := by
  refine InStep.bind hst.named ?_
  rintro _ ⟨names, hN, hnames⟩
  simp only [hnames]
  refine InStep.bind (InStep.lift (hbuild names hN)) fun t ht => ?_
  refine InStep.bind (Database.send_inStep st.database ht (hst.kind t ht)) ?_
  rintro _ ⟨result, hresult⟩
  simp only [hresult]
  exact InStep.lift_const _

/-- Counts in step. -/
theorem count_inStep (hst : RunsAlike P N style T st) {f : ι → Filter}
    (hf : ∀ names, N names → Agree T fun i => countStatement st.entity names (f i)) :
    InStep P style T AllSame fun i => (st.withStyle (style i)).count (f i) :=
  query_inStep hst hf (countOf st.entity)

theorem find_inStep (hst : RunsAlike P N style T st) {o : ι → FindOptions}
    (ho : ∀ names, N names → Agree T fun i =>
      findStatement st.entity names st.database.dialect (o i)) :
    InStep P style T AllSame fun i => (st.withStyle (style i)).find (o i) :=
  query_inStep hst ho fun result => decodeRows st.entity result.rows

theorem findOne_inStep (hst : RunsAlike P N style T st) (operation : String)
    {f : ι → Filter} (hf : SelectsAlike N T st.entity f) :
    InStep P style T AllSame fun i => (st.withStyle (style i)).findOne operation (f i) :=
  query_inStep hst hf (decodeSingle st.entity operation)

/-! ## Writing -/

/-- What is done after a statement that writes a row: the row is in its answer, or is read. -/
theorem finish_inStep (operation : String) (result : RowSet)
    {reread : ι → Action Record}
    (hreread : st.database.dialect.capabilities.returning = false →
      InStep P style T AllSame reread) :
    InStep P style T AllSame fun i =>
      if st.database.dialect.capabilities.returning then do
        let row ← decodeSingle st.entity operation result
        (st.database.withStyle (style i)).signalChange
        return row
      else reread i := by
  cases hreturning : st.database.dialect.capabilities.returning with
  | true =>
    refine InStep.bind (InStep.lift_const _) fun row hrow => ?_
    refine InStep.bind (Database.signalChange_inStep st.database) fun _ _ => ?_
    exact InStep.of_pure hrow
  | false => exact hreread hreturning

/-- Inserts in step. The row is read again by its identity where the answer does not have it. -/
theorem insert_inStep (hst : RunsAlike P N style T st) {data : ι → Record}
    (hinsert : ∀ names, N names → Agree T fun i =>
      insertStatement st.entity names st.database.dialect (data i))
    (hreread : ∀ (result : RowSet) (sql : ι → String), Agree (SelectsAlike N T st.entity) fun i =>
      insertedFilter st (data i) (sql i) result) :
    InStep P style T AllSame fun i => (st.withStyle (style i)).insert (data i) := by
  refine InStep.bind hst.named ?_
  rintro _ ⟨names, hN, hnames⟩
  simp only [hnames]
  refine InStep.bind (InStep.lift (hinsert names hN)) fun t ht => ?_
  refine InStep.bind (Database.send_inStep st.database ht (hst.kind t ht)) ?_
  rintro _ ⟨result, hresult⟩
  simp only [hresult]
  refine finish_inStep "insert" result fun _ => ?_
  refine InStep.bind (Database.signalChange_inStep st.database) fun _ _ => ?_
  refine InStep.bind (InStep.lift (hreread result _)) fun f hf => ?_
  exact findOne_inStep hst "insert" hf

/-- Updates in step. What decides is which identities belong together (`B`), and which values
that are written (`W`). -/
theorem update_inStep (hst : RunsAlike P N style T st) {id : ι → RowId} {data : ι → Record}
    {B : (ι → Record) → Prop} {W : (ι → List (Field × Value)) → Prop}
    (hid : Agree B fun i => identityValues st.entity "update" (id i))
    (hdata : Agree W fun i => writtenValues st.entity (data i) false)
    (hempty : ∀ w, W w → AllSame fun i => (w i).isEmpty)
    (hupdate : ∀ names b w, N names → B b → W w → Agree T fun i =>
      updateStatement st.entity names st.database.dialect (b i) (w i))
    (hread : ∀ b, B b → SelectsAlike N T st.entity fun i => identityFilter (b i))
    (hreread : ∀ b, B b → SelectsAlike N T st.entity fun i =>
      identityFilter (currentIdentity (b i) (data i))) :
    InStep P style T AllSame fun i => (st.withStyle (style i)).update (id i) (data i) := by
  refine InStep.bind (InStep.lift hid) fun b hb => ?_
  refine InStep.bind hst.named ?_
  rintro _ ⟨names, hN, hnames⟩
  simp only [hnames]
  refine InStep.bind (InStep.lift hdata) fun w hw => ?_
  obtain ⟨isEmpty, hisEmpty⟩ := hempty w hw
  simp only [hisEmpty]
  -- a record that writes nothing only has its row read
  cases isEmpty with
  | true => exact findOne_inStep hst "update" (hread b hb)
  | false =>
    refine InStep.bind (InStep.lift (hupdate names b w hN hb hw)) fun t ht => ?_
    refine InStep.bind (Database.send_inStep st.database ht (hst.kind t ht)) ?_
    rintro _ ⟨result, hresult⟩
    simp only [hresult]
    refine finish_inStep "update" result fun _ => ?_
    refine InStep.bind (InStep.lift_const (expectOneChanged st.entity result)) fun _ _ => ?_
    refine InStep.bind (Database.signalChange_inStep st.database) fun _ _ => ?_
    exact findOne_inStep hst "update" (hreread b hb)

/-- Deletes in step. -/
theorem delete_inStep (hst : RunsAlike P N style T st) {id : ι → RowId}
    {B : (ι → Record) → Prop} (hid : Agree B fun i => identityValues st.entity "delete" (id i))
    (hdelete : ∀ names b, N names → B b → Agree T fun i => deleteStatement st.entity names (b i)) :
    InStep P style T (fun _ => True) fun i => (st.withStyle (style i)).delete (id i) := by
  refine InStep.bind (InStep.lift hid) fun b hb => ?_
  refine InStep.bind hst.named ?_
  rintro _ ⟨names, hN, hnames⟩
  simp only [hnames]
  refine InStep.bind (InStep.lift (hdelete names b hN hb)) fun t ht => ?_
  refine InStep.bind (Database.send_inStep st.database ht (hst.kind t ht)) fun _ _ => ?_
  exact Database.signalChange_inStep st.database

/-! ## Many rows -/

/-- Pieces of images are images of pieces. -/
theorem chunks_map {α β : Type} (f : α → β) (size : Nat) (xs : List α) :
    chunks size (xs.map f) = (chunks size xs).map (List.map f) := by
  induction xs using chunks.induct size with
  | case1 => simp [chunks]
  | case2 x xs ih =>
    rw [List.map_cons, chunks, chunks, List.map_cons, List.map_cons, List.map_take, ← ih,
      List.map_drop]

/-- The members of a piece are members of the whole. -/
theorem mem_of_mem_chunks {α : Type} {size : Nat} {x : α} {c xs : List α} (hx : x ∈ c)
    (hc : c ∈ chunks size xs) : x ∈ xs := by
  induction xs using chunks.induct size with
  | case1 => simp [chunks] at hc
  | case2 y xs ih =>
    rw [chunks] at hc
    rcases List.mem_cons.1 hc with rfl | hc
    · rcases List.mem_cons.1 hx with rfl | hx
      · exact List.mem_cons_self
      · exact List.mem_cons_of_mem _ (List.mem_of_mem_take hx)
    · exact List.mem_cons_of_mem _ (List.mem_of_mem_drop (ih hc))

/-- A piece has a member. -/
theorem ne_nil_of_mem_chunks {α : Type} {size : Nat} {c xs : List α} (hc : c ∈ chunks size xs) :
    c ≠ [] := by
  induction xs using chunks.induct size with
  | case1 => simp [chunks] at hc
  | case2 y xs ih =>
    rw [chunks] at hc
    rcases List.mem_cons.1 hc with rfl | hc
    · exact List.cons_ne_nil _ _
    · exact ih hc

/-- A member of the whole is a member of a piece. -/
theorem exists_mem_chunks {α : Type} (size : Nat) {x : α} {xs : List α} (hx : x ∈ xs) :
    ∃ c ∈ chunks size xs, x ∈ c := by
  induction xs using chunks.induct size with
  | case1 => cases hx
  | case2 y xs ih =>
    rw [chunks]
    by_cases hfirst : x ∈ y :: xs.take size
    · exact ⟨_, List.mem_cons_self, hfirst⟩
    · have hrest : x ∈ xs.drop size := by
        rw [← List.take_append_drop size xs, ← List.cons_append] at hx
        exact (List.mem_append.1 hx).resolve_left hfirst
      obtain ⟨c, hc, hxc⟩ := ih hrest
      exact ⟨c, List.mem_cons_of_mem _ hc, hxc⟩

/-- Rows of defaults are inserted in step. -/
theorem insertDefaults_inStep
    (hdefault : InStep P style T AllSame fun i => (st.withStyle (style i)).insert Record.empty) :
    ∀ rows : List (ι → Record), InStep P style T (fun _ => True) fun i =>
      (st.withStyle (style i)).insertDefaults (rows.map fun r => r i)
  | [] => InStep.of_pure trivial
  | _ :: rows => InStep.bind hdefault fun _ _ => insertDefaults_inStep hdefault rows

/-- What the runs of an insertion of rows need to send the same statements for a piece of them:
what is written of the rows belongs together (`W`), and is written to the same columns. -/
structure BulkAgrees (N : EntityNames → Prop) (T : (ι → Template) → Prop) (e : Entity)
    (W : (ι → List (List (Field × Value))) → Prop) (chunk : List (ι → Record)) : Prop where
  written : Agree W fun i => writtenRows e (chunk.map fun r => r i)
  fields : ∀ w, W w → AllSame fun i => bulkFields e (w i)
  statement : ∀ names w, N names → W w → Agree T fun i =>
    bulkStatement names (bulkFields e (w i)) (w i)

theorem insertChunk_inStep (hst : RunsAlike P N style T st)
    {W : (ι → List (List (Field × Value))) → Prop}
    (hdefault : InStep P style T AllSame fun i => (st.withStyle (style i)).insert Record.empty)
    {names : EntityNames} (hN : N names) {chunk : List (ι → Record)}
    (h : BulkAgrees N T st.entity W chunk) :
    InStep P style T AllSame fun i =>
      (st.withStyle (style i)).insertChunk names (chunk.map fun r => r i) := by
  refine InStep.bind (InStep.lift h.written) fun w hw => ?_
  have hstatement := h.statement names w hN hw
  obtain ⟨fields, hfields⟩ := h.fields w hw
  simp only [hfields] at hstatement
  -- `insertChunk` with its steps in sight
  show InStep P style T AllSame fun i => if (bulkFields st.entity (w i)).isEmpty then do
      (st.withStyle (style i)).insertDefaults (chunk.map fun r => r i)
      return (chunk.map fun r => r i).length
    else do
      let statement ← bulkStatement names (bulkFields st.entity (w i)) (w i)
      let result ← (st.database.withStyle (style i)).send statement
      (st.database.withStyle (style i)).signalChange
      return result.affected.getD (chunk.map fun r => r i).length
  simp only [hfields, List.length_map]
  split
  · refine InStep.bind (insertDefaults_inStep hdefault chunk) fun _ _ => ?_
    exact InStep.of_pure ⟨chunk.length, fun _ => rfl⟩
  · refine InStep.bind (InStep.lift hstatement) fun t ht => ?_
    refine InStep.bind (Database.send_inStep st.database ht (hst.kind t ht)) ?_
    rintro _ ⟨result, hresult⟩
    simp only [hresult]
    refine InStep.bind (Database.signalChange_inStep st.database) fun _ _ => ?_
    exact InStep.of_pure ⟨_, fun _ => rfl⟩

theorem insertChunks_inStep (hst : RunsAlike P N style T st)
    {W : (ι → List (List (Field × Value))) → Prop}
    (hdefault : InStep P style T AllSame fun i => (st.withStyle (style i)).insert Record.empty)
    {names : EntityNames} (hN : N names) :
    ∀ {pieces : List (List (ι → Record))}, (∀ chunk ∈ pieces, BulkAgrees N T st.entity W chunk) →
      InStep P style T AllSame fun i =>
        (st.withStyle (style i)).insertChunks names (pieces.map fun c => c.map fun r => r i)
  | [], _ => InStep.of_pure ⟨0, fun _ => rfl⟩
  | chunk :: pieces, h => by
    refine InStep.bind (insertChunk_inStep hst hdefault hN (h chunk List.mem_cons_self)) ?_
    rintro _ ⟨inserted, hinserted⟩
    simp only [hinserted]
    refine InStep.bind (insertChunks_inStep hst hdefault hN
      fun c hc => h c (List.mem_cons_of_mem _ hc)) ?_
    rintro _ ⟨others, hothers⟩
    simp only [hothers]
    exact InStep.of_pure ⟨_, fun _ => rfl⟩

theorem bulkInsert_inStep (hst : RunsAlike P N style T st)
    {W : (ι → List (List (Field × Value))) → Prop} (rows : List (ι → Record))
    (hdefault : InStep P style T AllSame fun i => (st.withStyle (style i)).insert Record.empty)
    (hrows : ∀ chunk ∈ chunks (bulkSize - 1) rows, BulkAgrees N T st.entity W chunk) :
    InStep P style T AllSame fun i =>
      (st.withStyle (style i)).bulkInsert (rows.map fun r => r i) := by
  refine InStep.bind hst.named ?_
  rintro _ ⟨names, hN, hnames⟩
  simp only [hnames, chunks_map]
  exact insertChunks_inStep hst hdefault hN hrows

end Store

end EntitySql
