import EntitySql.Proofs.Preparation

/-!
# Structural failures that come late

An operation that is not prepared has a session in which its structural failure
comes after a statement. In that session every statement is answered by one row
without values, which can be read as a row of any entity, so that nothing else
stops the operation before it finds out what is wrong.

- `Store.Awaits`: sessions with such answers.
- `Store.After`: what comes of an action in them, after how many statements.
- `Store.insert_refused`, `Store.update_refused`, `Store.insertChunks_refused`:
  operations that are not prepared.
- `Operation.failsBefore_iff`: exactly the prepared operations fail before their
  statements.
-/

namespace EntitySql

namespace Store

/-! ## Answers that suit all statements -/

/-- One row without values, which was changed, and was given the number `n`. -/
def plainAnswer (st : Store) (n : Int64) : RowSet :=
  ⟨[], [List.replicate st.entity.selected.length .null], some 1, some n⟩

/-- The cells of a row without values can be read. -/
theorem exists_decodeCells (e : Entity) {size : Nat} : ∀ {fs : List Field} {place : Nat},
    place + fs.length ≤ size →
      ∃ vs, decodeCells e (List.replicate size .null) place fs = .ok vs
  | [], _, _ => ⟨[], rfl⟩
  | f :: fs, place, h => by
    rw [List.length_cons] at h
    have hrest : place + 1 + fs.length ≤ size := by omega
    have hplace : place < size := by omega
    obtain ⟨vs, hvs⟩ := exists_decodeCells e hrest
    have hcell : (List.replicate size Value.null)[place]? = some .null :=
      List.getElem?_replicate_of_lt hplace
    have hnull : f.converter.ofStored .null = .ok .null := by cases f.converter <;> rfl
    refine ⟨_, bind_eq_ok.2 ⟨.null, ?_, bind_eq_ok.2 ⟨vs, hvs, rfl⟩⟩⟩
    rw [decodeCell, hcell]
    dsimp only
    rw [hnull]

/-- The answer can be read as a row of the entity. -/
theorem exists_decodeSingle (st : Store) (n : Int64) (operation : String) :
    ∃ r, decodeSingle st.entity operation (st.plainAnswer n) = .ok r := by
  obtain ⟨vs, hvs⟩ : ∃ vs, decodeCells st.entity
      (List.replicate st.entity.selected.length .null) 0 st.entity.selected = .ok vs :=
    exists_decodeCells st.entity (Nat.le_of_eq (Nat.zero_add _))
  exact ⟨_, bind_eq_ok.2 ⟨vs, hvs, rfl⟩⟩

/-- The own names of the entity are known, the handle is open, and such answers are waiting. -/
structure Awaits (st : Store) (n : Int64) (count : Nat) (s : Session) : Prop where
  knows : st.Knows (.resolve st.entity st.database.dialect.quoting) s
  isOpen : s.isOpen st.database.scope = true
  scripted : s.scripted = List.replicate count (.rows (st.plainAnswer n))

/-- Wherever enough answers are waiting, the action sends `count` statements and ends as
described. -/
def After {α : Type} (st : Store) (n : Int64) (count : Nat) (m : Action α)
    (Ends : Except Failure α → Prop) : Prop :=
  ∀ more s, st.Awaits n (count + more) s → ∃ r t, m s = (r, t) ∧ Ends r ∧ st.Awaits n more t ∧
    t.statements.length = s.statements.length + count

/-- The action succeeds. -/
def Succeeds {α : Type} (r : Except Failure α) : Prop := ∃ a, r = .ok a

/-- The action fails structurally. -/
def Refuses {α : Type} (r : Except Failure α) : Prop :=
  ∃ failure, r = .error failure ∧ failure.kind = .structural

namespace After

variable {α β : Type} {st : Store} {n : Int64} {count others : Nat}
  {Ends : Except Failure β → Prop}

/-- An action that sends nothing, followed by another one. -/
theorem quiet {m : Action α} {f : α → Action β} {a : α}
    (hm : ∀ s, ∃ t, m s = (.ok a, t) ∧ t.statements = s.statements ∧ t.scripted = s.scripted ∧
      t.scopes = s.scopes) (hf : st.After n count (f a) Ends) :
    st.After n count (m >>= f) Ends := by
  intro more s hs
  obtain ⟨t, ht, hstatements, hscripted, hscopes⟩ := hm s
  have hopen : t.isOpen st.database.scope = true := by
    rw [Session.isOpen, hscopes]
    exact hs.isOpen
  rw [Action.bind_of_ok ht, ← hstatements]
  exact hf more t ⟨hs.knows.of_scopes hscopes, hopen, hscripted.trans hs.scripted⟩

/-- Something that is found out is the result. -/
theorem found {x : Except Failure β} (h : Ends x) : st.After n 0 (liftM x : Action β) Ends :=
  fun more s hs => ⟨x, s, rfl, h, (Nat.zero_add more) ▸ hs, rfl⟩

theorem of_pure (b : β) : st.After n 0 (pure b : Action β) Succeeds :=
  found (x := .ok b) ⟨b, rfl⟩

/-- What was found is used. -/
theorem build {x : Except Failure α} {f : α → Action β} {a : α} (hx : x = .ok a)
    (hf : st.After n count (f a) Ends) : st.After n count ((liftM x : Action α) >>= f) Ends :=
  .quiet (fun s => ⟨s, Action.lift_of_ok hx, rfl, rfl, rfl⟩) hf

theorem signal {f : Unit → Action β} (hf : st.After n count (f ()) Ends) :
    st.After n count (st.database.signalChange >>= f) Ends :=
  .quiet (fun _ => Database.signalChange_eq) hf

/-- The names of the entity are known. -/
theorem names {f : EntityNames → Action β}
    (hf : st.After n count (f (.resolve st.entity st.database.dialect.quoting)) Ends) :
    st.After n count (st.database.names st.entity >>= f) Ends := by
  intro more s hs
  rw [Action.bind_of_ok hs.knows.names_eq]
  exact hf more s hs

theorem send {t : Template} {f : RowSet → Action β}
    (hf : st.After n count (f (st.plainAnswer n)) Ends) :
    st.After n (count + 1) (st.database.send t >>= f) Ends := by
  intro more s hs
  have hscripted : s.scripted =
      .rows (st.plainAnswer n) :: List.replicate (count + more) (.rows (st.plainAnswer n)) := by
    rw [hs.scripted, Nat.add_right_comm]
    rfl
  obtain ⟨u, hu⟩ := Database.send_of_rows hs.isOpen hscripted t
  obtain ⟨-, hstatements, hscopes, hrest⟩ := Database.send_ok hu
  have hopen : u.isOpen st.database.scope = true := by
    rw [Session.isOpen, hscopes]
    exact hs.isOpen
  rw [hscripted, List.tail_cons] at hrest
  obtain ⟨r, v, hr, hends, hv, hlength⟩ := hf more u ⟨hs.knows.of_scopes hscopes, hopen, hrest⟩
  refine ⟨r, v, by rw [Action.bind_of_ok hu, hr], hends, hv, ?_⟩
  rw [hlength, hstatements, List.length_append, List.length_singleton]
  omega

theorem bind {m : Action α} {f : α → Action β} (hm : st.After n count m Succeeds)
    (hf : ∀ a, st.After n others (f a) Ends) : st.After n (count + others) (m >>= f) Ends := by
  intro more s hs
  rw [Nat.add_assoc] at hs
  obtain ⟨_, t, ht, ⟨a, rfl⟩, hawaits, hlength⟩ := hm (others + more) s hs
  obtain ⟨r, u, hu, hends, hu', hlength'⟩ := hf a more t hawaits
  refine ⟨r, u, by rw [Action.bind_of_ok ht, hu], hends, hu', ?_⟩
  rw [hlength', hlength, Nat.add_assoc]

/-- Nothing comes after an action that refuses. -/
theorem refused {m : Action α} {f : α → Action β} (hm : st.After n count m Refuses) :
    st.After n count (m >>= f) Refuses := by
  intro more s hs
  obtain ⟨_, t, ht, ⟨failure, rfl, hkind⟩, hrest⟩ := hm more s hs
  exact ⟨.error failure, t, Action.bind_of_error ht, ⟨failure, rfl, hkind⟩, hrest⟩

theorem missing {x : Except Failure α} {f : α → Action β} (hx : FailsStructurally x)
    (hnone : ¬ ∃ a, x = .ok a) : st.After n 0 ((liftM x : Action α) >>= f) Refuses := by
  refine .refused (.found ?_)
  cases x with
  | ok a => exact absurd ⟨a, rfl⟩ hnone
  | error failure => exact ⟨failure, rfl, hx failure rfl⟩

end After

/-! ## One row -/

section

variable {st : Store} {n : Int64} {filter : Filter}

/-- A row is read with one statement. -/
theorem findOne_after {t : Template} (h : selectStatement st.entity
      (.resolve st.entity st.database.dialect.quoting) filter = .ok t) (operation : String) :
    st.After n 1 (st.findOne operation filter) Succeeds := by
  refine .names (.build h (.send ?_))
  obtain ⟨r, hr⟩ := st.exists_decodeSingle n operation
  exact .found ⟨r, hr⟩

/-- A row that cannot be asked for is not read. -/
theorem findOne_refused (h : ¬ ∃ t, selectStatement st.entity
      (.resolve st.entity st.database.dialect.quoting) filter = .ok t) (operation : String) :
    st.After n 0 (st.findOne operation filter) Refuses :=
  .names (.missing (selectStatement_failsAs .structural filter) h)

/-- The filter for a row that was inserted is found, or the failure is structural. -/
theorem insertedFilter_structural (data : Record) (sql : String) :
    FailsStructurally (insertedFilter st data sql (st.plainAnswer n)) := by
  rw [insertedFilter]
  cases st.entity.autoIdentity? with
  | some f => exact FailsAs.of_ok _
  | none => exact ((identityValues_failsAs _ _).imp fun _ h => h.kind_eq).bind_ok

variable (he : st.entity.IsSound) {data : Record}

include he

/-- A prepared insert that can be written succeeds. -/
theorem insert_after (hprepared : st.InsertPrepared data) (haccepts : st.entity.Accepts data) :
    ∃ count, st.After n (count + 1) (st.insert data) Succeeds := by
  obtain ⟨w, hw⟩ := haccepts
  obtain ⟨t, ht, -⟩ := exists_insertStatement he st.database.dialect.quoting hw
  rw [insert_eq]
  cases hreturning : st.database.dialect.capabilities.returning with
  | true =>
    refine ⟨0, .names (.build ht (.send ?_))⟩
    obtain ⟨r, hr⟩ := st.exists_decodeSingle n "insert"
    rw [afterInsert, if_pos hreturning]
    exact .build hr (.signal (.of_pure r))
  | false =>
    refine ⟨1, .names (.build ht (.send ?_))⟩
    rw [afterInsert, if_neg (by simp [hreturning])]
    obtain ⟨hlater, hread⟩ := insertedFilter_failsLater he st.database.dialect.quoting hprepared
      hreturning ⟨w, hw⟩ (t.sql st.database.dialect.style) (st.plainAnswer n)
    have hstructural : FailsStructurally (insertedFilter st data (t.sql st.database.dialect.style)
      (st.plainAnswer n)) := insertedFilter_structural data _
    cases hfilter : insertedFilter st data (t.sql st.database.dialect.style) (st.plainAnswer n) with
    | error failure => exact absurd (hstructural failure hfilter) (hlater failure hfilter)
    | ok filter =>
      obtain ⟨select, hselect⟩ := hread filter hfilter
      exact .signal (.build rfl (findOne_after hselect "insert"))

/-- An insert that is not prepared finds out after its statement that it cannot ask for the row. -/
theorem insert_refused (h : ¬ st.InsertPrepared data) :
    ∃ n, st.After n 1 (st.insert data) Refuses := by
  simp only [InsertPrepared, Classical.not_imp] at h
  obtain ⟨hreturning, ⟨w, hw⟩, hwrong⟩ := h
  obtain ⟨n, hn⟩ : ∃ n, ∀ sql filter, insertedFilter st data sql (st.plainAnswer n) = .ok filter →
      ¬ ∃ t, selectStatement st.entity (.resolve st.entity st.database.dialect.quoting) filter =
        .ok t := by
    cases hauto : st.entity.autoIdentity? with
    | some f =>
      rw [hauto] at hwrong
      obtain ⟨n, hn⟩ := not_forall.1 hwrong
      refine ⟨n, fun sql filter hfilter => ?_⟩
      obtain ⟨r, rfl, hidentity, hfound⟩ := insertedFilter_eq_ok hfilter
      rw [hauto] at hfound
      obtain ⟨_, hlast, rfl⟩ := hfound
      cases hlast
      rwa [exists_selectStatement_iff he _ hidentity, converts_numbered_iff hauto n he]
    | none =>
      rw [hauto] at hwrong
      refine ⟨0, fun sql filter hfilter => ?_⟩
      obtain ⟨r, rfl, hidentity, hfound⟩ := insertedFilter_eq_ok hfilter
      rw [hauto] at hfound
      rw [exists_selectStatement_iff he _ hidentity]
      exact fun hconverts => hwrong ⟨r, hfound, hconverts⟩
  obtain ⟨t, ht, -⟩ := exists_insertStatement he st.database.dialect.quoting hw
  refine ⟨n, ?_⟩
  rw [insert_eq]
  refine .names (.build ht (.send ?_))
  rw [afterInsert, if_neg (by simp [hreturning])]
  refine .signal ?_
  by_cases hfilter : ∃ filter, insertedFilter st data (t.sql st.database.dialect.style)
      (st.plainAnswer n) = .ok filter
  · obtain ⟨filter, hfilter⟩ := hfilter
    exact .build hfilter (findOne_refused (hn _ filter hfilter) "insert")
  · exact .missing (insertedFilter_structural data _) hfilter

theorem update_refused {id : RowId} (h : ¬ st.UpdatePrepared id data) :
    st.After n 1 (st.update id data) Refuses := by
  simp only [UpdatePrepared, Classical.not_imp, not_forall] at h
  obtain ⟨hreturning, before, written, hbefore, hwritten, hsome, hconverts, hwrong⟩ := h
  have hidentity := identityValues_complete hbefore
  have hcolumns := columnTexts_written he st.database.dialect.quoting hwritten
  obtain ⟨clause, hclause⟩ :=
    (exists_whereClause_iff he st.database.dialect.quoting hidentity).2 hconverts
  have hnone : returningClause st.entity (.resolve st.entity st.database.dialect.quoting)
      st.database.dialect = .ok [] := by
    rw [returningClause, if_neg (by simp [hreturning])]
  rw [update_eq]
  refine .build hbefore (.names (.build hwritten ?_))
  rw [if_neg (by simpa using hsome)]
  refine .build (bind_eq_ok.2 ⟨_, hcolumns, bind_eq_ok.2 ⟨clause, hclause,
    bind_eq_ok.2 ⟨[], hnone, rfl⟩⟩⟩) (.send ?_)
  rw [afterUpdate, if_neg (by simp [hreturning])]
  refine .build (a := ()) rfl (.signal (findOne_refused ?_ "update"))
  rwa [exists_selectStatement_iff he _ (isIdentity_currentIdentity hidentity data)]

end

/-! ## Many rows -/

section

variable {st : Store} (he : st.entity.IsSound)

include he

/-- Prepared rows of defaults are inserted, with a statement at least if there are any. -/
theorem insertDefaults_after (n : Int64) (hprepared : st.InsertPrepared .empty) :
    ∀ records : List Record, ∃ count, (records ≠ [] → 0 < count) ∧
      st.After n count (st.insertDefaults records) Succeeds
  | [] => ⟨0, fun h => absurd rfl h, .of_pure ()⟩
  | _ :: records => by
    obtain ⟨first, hfirst⟩ : ∃ count, st.After n (count + 1) (st.insert .empty) Succeeds :=
      insert_after he hprepared ⟨[], writtenValues_empty st.entity⟩
    obtain ⟨others, -, hothers⟩ := insertDefaults_after n hprepared records
    exact ⟨first + 1 + others, fun _ => by omega, hfirst.bind fun _ => hothers⟩

/-- A piece that is right is inserted, with a statement at least. -/
theorem insertChunk_after (n : Int64) {piece : List Record} (h : st.PieceRight piece)
    (hpiece : piece ≠ []) :
    ∃ count, 0 < count ∧ st.After n count
      (st.insertChunk (.resolve st.entity st.database.dialect.quoting) piece) Succeeds := by
  obtain ⟨haccepts, hdefaults⟩ := h
  obtain ⟨rows, hrows⟩ := exists_writtenRows_iff.2 haccepts
  cases hempty : (bulkFields st.entity rows).isEmpty with
  | true =>
    have hnone := (bulkFields_eq_nil_iff hrows).1 (List.isEmpty_iff.1 hempty)
    obtain ⟨count, hcount, hinserted⟩ := insertDefaults_after he n (hdefaults hnone) piece
    refine ⟨count, hcount hpiece, .build hrows ?_⟩
    dsimp only
    rw [if_pos hempty]
    exact hinserted.bind fun _ => .of_pure _
  | false =>
    have hne : bulkFields st.entity rows ≠ [] := fun hnil => by simp [hnil] at hempty
    obtain ⟨t, ht, -⟩ :=
      exists_bulkStatement he st.database.dialect.quoting (mem_writable_of_rows hrows) hne
    refine ⟨1, Nat.one_pos, .build hrows ?_⟩
    dsimp only
    rw [if_neg (by simp [hempty])]
    exact .build ht (.send (.signal (.of_pure _)))

/-- A piece that is not right is refused, after a statement if all of it can be written. -/
theorem insertChunk_refused {piece : List Record} (h : ¬ st.PieceRight piece)
    (hpiece : piece ≠ []) :
    ∃ n count, ((∀ r ∈ piece, st.entity.Accepts r) → 0 < count) ∧ st.After n count
      (st.insertChunk (.resolve st.entity st.database.dialect.quoting) piece) Refuses := by
  by_cases haccepts : ∀ r ∈ piece, st.entity.Accepts r
  · simp only [PieceRight, not_and, Classical.not_imp] at h
    obtain ⟨hnone, hwrong⟩ := h haccepts
    obtain ⟨rows, hrows⟩ := exists_writtenRows_iff.2 haccepts
    have hempty := List.isEmpty_iff.2 ((bulkFields_eq_nil_iff hrows).2 hnone)
    obtain ⟨n, hn⟩ := insert_refused he hwrong
    obtain ⟨r, rest, rfl⟩ := List.exists_cons_of_ne_nil hpiece
    refine ⟨n, 1, fun _ => Nat.one_pos, .build hrows ?_⟩
    dsimp only
    rw [if_pos hempty]
    exact hn.refused.refused
  · refine ⟨0, 0, fun h => absurd h haccepts, ?_⟩
    rw [← exists_writtenRows_iff] at haccepts
    exact .missing ((writtenRows_failsAs piece).imp fun _ h => h.kind_eq) haccepts

/-- Pieces that are not all right are refused, after a statement if the first one can be written. -/
theorem insertChunks_refused : ∀ {pieces : List (List Record)}, (∀ piece ∈ pieces, piece ≠ []) →
    ¬ (∀ piece ∈ pieces, st.PieceRight piece) →
      ∃ n count, ((∀ r ∈ pieces.headD [], st.entity.Accepts r) → 0 < count) ∧ st.After n count
        (st.insertChunks (.resolve st.entity st.database.dialect.quoting) pieces) Refuses
  | [], _, h => absurd (fun _ hp => (nomatch hp)) h
  | piece :: rest, hpieces, h => by
    obtain ⟨hpiece, hrest⟩ := List.forall_mem_cons.1 hpieces
    by_cases hright : st.PieceRight piece
    · have hwrong : ¬ ∀ piece ∈ rest, st.PieceRight piece :=
        fun hall => h (List.forall_mem_cons.2 ⟨hright, hall⟩)
      obtain ⟨n, others, -, hothers⟩ := insertChunks_refused hrest hwrong
      obtain ⟨count, hcount, hinserted⟩ := insertChunk_after he n hright hpiece
      exact ⟨n, count + others, fun _ => by omega, hinserted.bind fun _ => hothers.refused⟩
    · obtain ⟨n, count, hcount, hrefused⟩ := insertChunk_refused he hright hpiece
      exact ⟨n, count, hcount, hrefused.refused⟩

/-- A bulk insert that is not prepared finds out after a statement what is wrong. -/
theorem bulkInsert_refused {records : List Record} (h : ¬ st.BulkPrepared records) :
    ∃ n count, 0 < count ∧ st.After n count (st.bulkInsert records) Refuses := by
  simp only [BulkPrepared, Classical.not_imp] at h
  obtain ⟨hfirst, hwrong⟩ := h
  have hpieces : ¬ ∀ piece ∈ chunks (bulkSize - 1) records, st.PieceRight piece := by
    intro hall
    refine hwrong ⟨fun r hr => ?_, fun piece hpiece => (hall piece hpiece).2⟩
    obtain ⟨piece, hpiece, hmem⟩ := exists_mem_chunks (bulkSize - 1) hr
    exact (hall piece hpiece).1 r hmem
  obtain ⟨n, count, hcount, hrefused⟩ :=
    insertChunks_refused he (fun _ hpiece => ne_nil_of_mem_chunks hpiece) hpieces
  refine ⟨n, count, hcount ?_, .names hrefused⟩
  cases records with
  | nil =>
    rw [chunks]
    intro r hr
    cases hr
  | cons x xs =>
    rw [chunks_cons]
    exact hfirst

end

/-! ## Sessions -/

section

variable {α : Type} {st : Store} {n : Int64} {count : Nat}

/-- A session in which answers are waiting. -/
def awaiting (st : Store) (n : Int64) (count : Nat) : Session :=
  { (default : Session) with
    scripted := List.replicate count (.rows (st.plainAnswer n))
    scopes := List.replicate (st.database.scope + 1)
      ⟨true, [(st.entity.key, .resolve st.entity st.database.dialect.quoting)]⟩ }

theorem scope_awaiting : (st.awaiting n count).scopes[st.database.scope]? =
    some ⟨true, [(st.entity.key, .resolve st.entity st.database.dialect.quoting)]⟩ :=
  List.getElem?_replicate_of_lt (Nat.lt_succ_self _)

/-- All names that are known in such a session are the entity's own. -/
theorem knowsOwn_awaiting : st.database.KnowsOwn st.entity (st.awaiting n count) := by
  intro known hknown _
  rw [Session.namesIn, scope_awaiting] at hknown
  rw [List.mem_singleton.1 hknown]

theorem awaits_awaiting : st.Awaits n count (st.awaiting n count) where
  knows := by
    intro t ht
    refine Database.names_of_find? (n := (st.entity.key, _)) ?_
    rw [Session.namesIn, ht, scope_awaiting]
    exact List.find?_cons_of_pos (beq_self_eq_true _)
  isOpen := by rw [Session.isOpen, scope_awaiting]
  scripted := rfl

/-- A refusal after a statement is a structural failure that comes late. -/
theorem After.not_failsBefore {m : Action α} (h : st.After n count m Refuses) (hcount : 0 < count) :
    ∃ s, st.database.KnowsOwn st.entity s ∧ ¬ m.FailsBefore s := by
  refine ⟨st.awaiting n count, knowsOwn_awaiting, fun hbefore => ?_⟩
  obtain ⟨_, t, ht, ⟨failure, rfl, hkind⟩, -, hlength⟩ := h 0 (st.awaiting n count) awaits_awaiting
  obtain ⟨hstatements, -⟩ := hbefore failure t ht hkind
  rw [hstatements] at hlength
  omega

end

end Store

/-- An operation that is not prepared has a session in which its structural failure comes late. -/
theorem Operation.exists_not_failsBefore {st : Store} (he : st.entity.IsSound) {op : Operation}
    (h : ¬ op.IsPrepared st) :
    ∃ s, st.database.KnowsOwn st.entity s ∧ ¬ (op.perform st).FailsBefore s := by
  cases op with
  | count f => exact absurd trivial h
  | find o => exact absurd trivial h
  | delete id => exact absurd trivial h
  | insert data =>
    obtain ⟨n, hn⟩ := Store.insert_refused he h
    exact hn.refused.not_failsBefore Nat.one_pos
  | update id data =>
    have hrefused : st.After 0 1 (st.update id data) Store.Refuses := Store.update_refused he h
    exact hrefused.refused.not_failsBefore Nat.one_pos
  | bulkInsert records =>
    obtain ⟨n, count, hcount, hn⟩ := Store.bulkInsert_refused he h
    exact hn.refused.not_failsBefore hcount

/-- The structural failures of an operation come before its first statement and before every signal
of a change, in all sessions, exactly if it is prepared. Counts, searches and deletions are. -/
theorem Operation.failsBefore_iff (e : BuiltEntity)
    (db : Database) (op : Operation) :
    (∀ s, db.KnowsOwn (db.store e).entity s → (op.perform (db.store e)).FailsBefore s) ↔
      op.IsPrepared (db.store e) := by
  have he : (db.store e).entity.IsSound := e.isSound.storedAs _
  constructor
  · intro h
    by_contra hunprepared
    obtain ⟨s, hown, hlate⟩ := Operation.exists_not_failsBefore he hunprepared
    exact hlate (h s hown)
  · exact fun hprepared s hown => Operation.failsBefore he hown hprepared

/-- In a database that does not give the rows that it writes, a note with a number can be inserted,
and what is wrong is found out before. A note without one cannot. -/
theorem Operation.failsBefore_iff_notes :
    ((Operation.insert (.ofPairs [("id", .integer 1), ("title", .text "x")])).perform
      (Store.taskDatabase.store Store.note)).FailsBefore Session.fresh ∧
    ¬ ∀ s, Store.taskDatabase.KnowsOwn Store.note s →
      ((Operation.insert (.ofPairs [("title", .text "x")])).perform
        (Store.taskDatabase.store Store.note)).FailsBefore s := by
  have hiff := Operation.failsBefore_iff ⟨Store.note, "note", none, Store.note.fields, ["id"], rfl⟩
    Store.taskDatabase
  refine ⟨(hiff _).2 ?_ Session.fresh (fun n hn => nomatch hn), fun hall => ?_⟩
  · rintro - -
    refine ⟨.ofPairs [("id", .integer 1)], rfl, fun key v hv f hf => ?_⟩
    have hget : (Record.ofPairs [("id", .integer 1)]).get? key =
        if key = "id" then some (.integer 1) else none := Record.get?_insert .empty "id" key _
    rw [hget] at hv
    split at hv
    · next hkey =>
      subst hkey
      cases hv
      cases hf
      exact ⟨.integer 1, rfl⟩
    · cases hv
  · obtain ⟨r, hr, -⟩ := (hiff _).1 hall rfl ⟨_, rfl⟩
    cases hr

/-- The note without a number is sent to the database all the same, a change is signalled, and only
then the number is missed. -/
theorem Store.insert_misses_identity_late :
    ((taskDatabase.store note).insert (.ofPairs [("title", .text "x")]) Session.fresh).1 =
      .error (.missingIdentity "note" "insert" "id") ∧
    (Failure.missingIdentity "note" "insert" "id").kind = .structural ∧
    ((taskDatabase.store note).insert (.ofPairs [("title", .text "x")])
      Session.fresh).2.statements = [⟨"insert into note (title) values (?)", [.text "x"]⟩] ∧
    ((taskDatabase.store note).insert (.ofPairs [("title", .text "x")])
      Session.fresh).2.mutations = 1 :=
  ⟨rfl, rfl, rfl, rfl⟩

end EntitySql
