import EntitySql.Proofs.BulkRows
import EntitySql.Proofs.Reread

/-!
# What is found out before a statement is sent

A structural failure says that an operation was called in a wrong way, and is
meant to be found before anything is sent. Counts, searches and deletions build
their only statement first. An insert or update that reads its row again, and a
bulk insert with several statements, have something left to find out after a
statement was sent. This module says what has to be right for them to find
nothing, and that it suffices.

- `Action.FailsBefore`: structural failures come before statements and changes.
- `Store.InsertPrepared`, `Store.UpdatePrepared`, `Store.BulkPrepared`,
  `Operation.IsPrepared`: nothing is left to find out.
- `Store.exists_selectStatement_iff`: which identities can be read.
- `Store.NeverStructural`: actions without structural failures.
- `Operation.failsBefore`: prepared operations fail before statements.
-/

namespace EntitySql

/-! ## Failures before statements -/

/-- If the action fails structurally, no statement was sent and no change was signalled. -/
def Action.FailsBefore {α : Type} (m : Action α) (s : Session) : Prop :=
  ∀ failure t, m s = (.error failure, t) → failure.kind = .structural →
    t.statements = s.statements ∧ t.mutations = s.mutations

namespace Action.FailsBefore

variable {α β : Type} {s : Session}

/-- Without structural failures there is nothing to say. -/
theorem of_failsLater {m : Action α} (h : FailsLater (m s).1) : m.FailsBefore s := by
  intro failure t hm hkind
  rw [hm] at h
  exact absurd hkind (h failure rfl)

theorem build {x : Except Failure α} {f : α → Action β}
    (hf : ∀ a, x = .ok a → (f a).FailsBefore s) :
    ((liftM x : Action α) >>= f).FailsBefore s := by
  intro failure t hm hkind
  cases hx : x with
  | error failure' =>
    rw [bind_of_error (lift_of_error hx)] at hm
    cases hm
    exact ⟨rfl, rfl⟩
  | ok a =>
    rw [bind_of_ok (lift_of_ok hx)] at hm
    exact hf a hx failure t hm hkind

/-- No change is signalled when the names of an entity are looked up. -/
theorem mutations_names {db : Database} {e : Entity} :
    (db.names e s).2.mutations = s.mutations := by
  have hannounce : (db.announce e s).2.mutations = s.mutations := by
    rw [Database.announce]
    cases hopen : s.isOpen db.scope with
    | false => rw [bind_of_error (Database.checkOpen_of_closed hopen)]
    | true =>
      rw [bind_of_ok (Database.checkOpen_eq_ok (a := ()).2 ⟨hopen, rfl⟩)]
      cases db.dialect.firstUse <;> rfl
  refine Database.names_session (R := fun t => t.mutations = s.mutations) e s rfl
    (fun names => hannounce) fun failure => ?_
  rw [← hannounce]
  cases failure <;> rfl

theorem names {db : Database} {e : Entity} {f : EntityNames → Action β}
    (hf : ∀ names named, db.names e s = (.ok names, named) → (f names).FailsBefore named) :
    (db.names e >>= f).FailsBefore s := by
  have hexchanged : Session.Exchanged (fun _ => True) s (db.names e s).2 [] :=
    Database.names_exchanged e s
  have hquiet := hexchanged.statements
  have hmutations : (db.names e s).2.mutations = s.mutations := mutations_names
  intro failure t hm hkind
  cases hnames : db.names e s with
  | mk result named =>
    rw [hnames, List.append_nil] at hquiet
    rw [hnames] at hmutations
    cases result with
    | error failure' =>
      rw [bind_of_error hnames] at hm
      cases hm
      exact ⟨hquiet, hmutations⟩
    | ok names =>
      rw [bind_of_ok hnames] at hm
      obtain ⟨hstatements, hsignals⟩ := hf names named hnames failure t hm hkind
      exact ⟨hstatements.trans hquiet, hsignals.trans hmutations⟩

/-- The result of an action is handed on. -/
theorem map {m : Action α} (f : α → β) (h : m.FailsBefore s) :
    (m >>= fun a => (pure (f a) : Action β)).FailsBefore s := by
  intro failure t hm hkind
  cases hresult : m s with
  | mk result u =>
    cases result with
    | ok a =>
      rw [bind_of_ok hresult] at hm
      cases hm
    | error failure' =>
      rw [bind_of_error hresult] at hm
      cases hm
      exact h failure _ hresult hkind

end Action.FailsBefore

/-! ## What has to be right -/

/-- The values of a record have stored forms, as far as they are values of fields. -/
def Record.Converts (r : Record) (e : Entity) : Prop :=
  ∀ key v, r.get? key = some v → ∀ f, e.field key = .ok f → ∃ w, f.converter.toStored v = .ok w

/-- The values that are written of a record have stored forms. -/
def Entity.Accepts (e : Entity) (data : Record) : Prop :=
  ∃ written, Store.writtenValues e data true = .ok written

namespace Store

/-- An insert has nothing left to find out once its statement was sent: the database gives the row
that it writes; or it numbers rows, and all numbers have stored forms; or the record has an identity
with stored forms. -/
def InsertPrepared (st : Store) (data : Record) : Prop :=
  st.database.dialect.capabilities.returning = false → st.entity.Accepts data →
    match st.entity.autoIdentity? with
    | some f => ∀ n : Int64, ∃ w, f.converter.toStored (.integer n) = .ok w
    | none => ∃ r, identityValues st.entity "insert" (.compound data) = .ok r ∧
        r.Converts st.entity

/-- An update has nothing left to find out once its statement was sent: the database gives the row
that it writes; or the identity after the update has stored forms, if the one before it has. -/
def UpdatePrepared (st : Store) (id : RowId) (data : Record) : Prop :=
  st.database.dialect.capabilities.returning = false → ∀ before written,
    identityValues st.entity "update" id = .ok before →
    writtenValues st.entity data false = .ok written → written ≠ [] →
      before.Converts st.entity → (currentIdentity before data).Converts st.entity

/-- A bulk insert has nothing left to find out once its first statement was sent. Unless the first
statement is refused, all records can be written, and rows of defaults can be inserted if a piece
consists of them. -/
def BulkPrepared (st : Store) (records : List Record) : Prop :=
  (∀ r ∈ records.take bulkSize, st.entity.Accepts r) →
    (∀ r ∈ records, st.entity.Accepts r) ∧
    ∀ piece ∈ chunks (bulkSize - 1) records,
      (∀ r ∈ piece, writtenValues st.entity r true = .ok []) → st.InsertPrepared .empty

end Store

/-- An operation has nothing left to find out once its first statement was sent. -/
def Operation.IsPrepared (st : Store) : Operation → Prop
  | .count _ | .find _ | .delete _ => True
  | .insert data => st.InsertPrepared data
  | .update id data => st.UpdatePrepared id data
  | .bulkInsert records => st.BulkPrepared records

/-! ## Identities that can be read -/

section

variable {e : Entity} (he : e.IsSound) (q : Quoting) {r : Record} (hr : r.IsIdentity e)

include he hr

/-- The columns of an identity can be asked for its values exactly if these have stored forms. -/
theorem exists_pins_iff :
    (∃ pins, e.pins (.resolve e q) r.entries = .ok pins) ↔ r.Converts e := by
  constructor
  · rintro ⟨pins, hpins⟩ key v hv f hf
    obtain ⟨f', column, w, hlook, hw⟩ := lookUp_of_pins hpins (key, v) (Record.mem_of_get? hv)
    cases hf.symm.trans (Condition.lookUp_eq_ok.1 hlook).1
    exact ⟨w, hw⟩
  · intro hconverts
    refine exists_pins fun a ha => ?_
    have hget := Record.get?_of_mem ha
    obtain ⟨f, hf, hcolumn⟩ := EntityNames.columnOf_resolve he q (hr.only a.1 a.2 hget).1
    obtain ⟨w, hw⟩ := hconverts a.1 a.2 hget f hf
    exact ⟨f, _, w, Condition.lookUp_eq_ok.2 ⟨hf, hcolumn⟩, hw⟩

/-- A statement has a clause for an identity exactly if its values have stored forms. -/
theorem exists_whereClause_iff :
    (∃ t, (Store.identityFilter r).whereClause e (.resolve e q) = .ok t) ↔ r.Converts e := by
  rw [← exists_pins_iff he q hr, whereClause_identityFilter he hr]
  constructor
  · rintro ⟨t, ht⟩
    obtain ⟨pins, hpins, -⟩ := bind_eq_ok.1 ht
    exact ⟨pins, hpins⟩
  · rintro ⟨pins, hpins⟩
    exact ⟨_, bind_eq_ok.2 ⟨pins, hpins, rfl⟩⟩

/-- The row of an identity can be read exactly if its values have stored forms. -/
theorem exists_selectStatement_iff :
    (∃ t, Store.selectStatement e (.resolve e q) (Store.identityFilter r) = .ok t) ↔
      r.Converts e := by
  rw [← exists_whereClause_iff he q hr]
  constructor
  · rintro ⟨t, ht⟩
    obtain ⟨clause, hclause, -⟩ := bind_eq_ok.1 ht
    exact ⟨clause, hclause⟩
  · rintro ⟨clause, hclause⟩
    exact ⟨_, bind_eq_ok.2 ⟨clause, hclause, bind_eq_ok.2 ⟨_, Store.selectList_resolve he q, rfl⟩⟩⟩

end

/-! ## Rows that were inserted -/

/-- A field that the database numbers is the whole identity. -/
theorem Entity.autoIdentity?_eq_some {e : Entity} {f : Field} (h : e.autoIdentity? = some f) :
    e.identity = [f.key] ∧ f ∈ e.fields := by
  rw [autoIdentity?] at h
  split at h
  · next key hidentity =>
    obtain ⟨rfl, -⟩ : f.key = key ∧ f.autoIncrement = true := by simpa using List.find?_some h
    exact ⟨hidentity, List.mem_of_find?_eq_some h⟩
  · cases h

/-- The identity of a row that the database has numbered. -/
def Field.numbered (f : Field) (n : Int64) : Record := Record.empty.insert f.key (.integer n)

section

variable {e : Entity} {f : Field} (h : e.autoIdentity? = some f) (n : Int64)

include h

/-- The number of a row is its identity. -/
theorem isIdentity_numbered : (f.numbered n).IsIdentity e := by
  obtain ⟨hidentity, -⟩ := Entity.autoIdentity?_eq_some h
  refine ⟨fun key hkey => ⟨.integer n, ?_⟩, fun key v hv => ?_⟩
  · rw [hidentity, List.mem_singleton] at hkey
    rw [Field.numbered, Record.get?_insert, if_pos hkey]
  · rw [Field.numbered, Record.get?_insert] at hv
    split at hv
    · next hkey =>
      cases hv
      exact ⟨by rw [hidentity, hkey]; exact List.mem_singleton_self _, rfl⟩
    · cases hv

/-- The number of a row has a stored form if the field has one for it. -/
theorem converts_numbered_iff (he : e.IsSound) :
    (f.numbered n).Converts e ↔ ∃ w, f.converter.toStored (.integer n) = .ok w := by
  obtain ⟨hidentity, hmem⟩ := Entity.autoIdentity?_eq_some h
  obtain ⟨g, hg, -⟩ := he.identity_found f.key (by simp [hidentity])
  obtain ⟨hgmem, hgkey⟩ := Entity.mem_of_field hg
  obtain rfl : g = f := he.eq_of_key hgmem hmem hgkey
  constructor
  · intro hconverts
    exact hconverts g.key (.integer n) (by rw [Field.numbered, Record.get?_insert, if_pos rfl]) g hg
  · intro hstored key v hv f' hf'
    rw [Field.numbered, Record.get?_insert] at hv
    split at hv
    · next hkey =>
      cases hv
      rw [hkey, hg] at hf'
      cases hf'
      exact hstored
    · cases hv

end

namespace Store

variable {st : Store}

/-- A row that was inserted is looked for by an identity, if nothing is wrong. -/
theorem insertedFilter_eq_ok {data : Record} {sql : String} {result : RowSet} {filter : Filter}
    (h : insertedFilter st data sql result = .ok filter) :
    ∃ r, filter = identityFilter r ∧ r.IsIdentity st.entity ∧
      match st.entity.autoIdentity? with
      | some f => ∃ n, result.lastId = some n ∧ r = f.numbered n
      | none => identityValues st.entity "insert" (.compound data) = .ok r := by
  rw [insertedFilter] at h
  cases hauto : st.entity.autoIdentity? with
  | some f =>
    simp only [hauto] at h
    cases hlast : result.lastId with
    | none =>
      simp only [hlast] at h
      cases h
    | some n =>
      simp only [hlast] at h
      cases h
      exact ⟨f.numbered n, rfl, isIdentity_numbered hauto n, n, rfl, rfl⟩
  | none =>
    simp only [hauto] at h
    obtain ⟨r, hr, heq⟩ := bind_eq_ok.1 h
    cases heq
    exact ⟨r, rfl, identityValues_complete hr, hr⟩

section

variable (he : st.entity.IsSound) (q : Quoting) {data : Record}

include he

/-- A prepared insert looks for its row without a structural failure. -/
theorem insertedFilter_failsLater (hprepared : st.InsertPrepared data)
    (hreturning : st.database.dialect.capabilities.returning = false)
    (haccepts : st.entity.Accepts data) (sql : String) (result : RowSet) :
    FailsLater (insertedFilter st data sql result) ∧
      ∀ filter, insertedFilter st data sql result = .ok filter →
        ∃ t, selectStatement st.entity (.resolve st.entity q) filter = .ok t := by
  have hright := hprepared hreturning haccepts
  refine ⟨?_, fun filter hfilter => ?_⟩
  · rw [insertedFilter]
    cases hauto : st.entity.autoIdentity? with
    | some f =>
      dsimp only
      split
      · exact .of_ok _
      · exact .of_error (by simp [Failure.kind])
    | none =>
      rw [hauto] at hright
      obtain ⟨r, hr, -⟩ := hright
      dsimp only
      rw [hr]
      exact .of_ok _
  · obtain ⟨r, rfl, hidentity, hfound⟩ := insertedFilter_eq_ok hfilter
    rw [exists_selectStatement_iff he q hidentity]
    cases hauto : st.entity.autoIdentity? with
    | some f =>
      rw [hauto] at hright hfound
      obtain ⟨n, -, rfl⟩ := hfound
      exact (converts_numbered_iff hauto n he).2 (hright n)
    | none =>
      rw [hauto] at hright hfound
      obtain ⟨r', hr', hconverts⟩ := hright
      cases hr'.symm.trans hfound
      exact hconverts

end

/-! ## Actions without structural failures -/

/-- Wherever the names of the entity are known, an action does not fail structurally, and if it does
not fail the names stay known. -/
def NeverStructural {α : Type} (st : Store) (names : EntityNames) (m : Action α) : Prop :=
  ∀ s, st.Knows names s → FailsLater (m s).1 ∧ ∀ a t, m s = (.ok a, t) → st.Knows names t

namespace NeverStructural

variable {α β : Type} {names : EntityNames}

/-- Something is found out that is no structural failure. -/
theorem found {x : Except Failure α} (h : FailsLater x) :
    st.NeverStructural names (liftM x : Action α) := by
  intro s hs
  refine ⟨h, fun a t hresult => ?_⟩
  obtain ⟨-, rfl⟩ := Action.lift_eq_ok.1 hresult
  exact hs

theorem of_pure (a : α) : st.NeverStructural names (pure a : Action α) :=
  found (x := .ok a) (.of_ok a)

theorem bind {m : Action α} {f : α → Action β} (hm : st.NeverStructural names m)
    (hf : ∀ a, st.NeverStructural names (f a)) : st.NeverStructural names (m >>= f) := by
  intro s hs
  obtain ⟨hlater, hknown⟩ := hm s hs
  cases hresult : m s with
  | mk result t =>
    cases result with
    | error failure =>
      rw [hresult] at hlater
      rw [Action.bind_of_error hresult]
      exact ⟨.of_error (hlater failure rfl), fun _ _ h => nomatch h⟩
    | ok a =>
      rw [Action.bind_of_ok hresult]
      exact hf a t (hknown a t hresult)

theorem build {x : Except Failure α} {f : α → Action β} (hx : FailsLater x)
    (hf : ∀ a, x = .ok a → st.NeverStructural names (f a)) :
    st.NeverStructural names ((liftM x : Action α) >>= f) := by
  cases x with
  | error failure =>
    intro s hs
    rw [Action.bind_of_error (Action.lift_of_error rfl)]
    exact ⟨.of_error (hx failure rfl), fun _ _ h => nomatch h⟩
  | ok a =>
    intro s hs
    rw [Action.bind_of_ok (Action.lift_of_ok rfl)]
    exact hf a rfl s hs

theorem send (t : Template) : st.NeverStructural names (st.database.send t) :=
  fun _ hs => ⟨Database.send_failsLater _ _ _, fun _ _ h =>
    hs.of_scopes (Database.send_ok h).2.2.1⟩

theorem signal : st.NeverStructural names st.database.signalChange := by
  intro s hs
  obtain ⟨t, ht, -, -, hscopes⟩ : ∃ t, st.database.signalChange s = (.ok (), t) ∧ _ :=
    Database.signalChange_eq
  refine ⟨by rw [ht]; exact .of_ok _, fun a u hu => ?_⟩
  cases ht.symm.trans hu
  exact hs.of_scopes hscopes

theorem names_known {f : EntityNames → Action β} (hf : st.NeverStructural names (f names)) :
    st.NeverStructural names (st.database.names st.entity >>= f) := by
  intro s hs
  rw [Action.bind_of_ok hs.names_eq]
  exact hf s hs

theorem findOne {filter : Filter} {t : Template}
    (h : selectStatement st.entity names filter = .ok t) (operation : String) :
    st.NeverStructural names (st.findOne operation filter) := by
  refine .names_known (.build (by rw [h]; exact .of_ok t) fun statement _ => ?_)
  exact (send statement).bind fun result => .found (decodeSingle_failsLater _ _ _)

end NeverStructural

section

variable (he : st.entity.IsSound) (q : Quoting)

include he

/-- A prepared insert does the rest without a structural failure. -/
theorem afterInsert_neverStructural {data : Record} (hprepared : st.InsertPrepared data)
    (haccepts : st.entity.Accepts data) (sql : String) (result : RowSet) :
    st.NeverStructural (.resolve st.entity q) (st.afterInsert data sql result) := by
  rw [afterInsert]
  split
  · refine .build (decodeSingle_failsLater _ _ _) fun row _ => ?_
    exact NeverStructural.signal.bind fun _ => .of_pure row
  · next hreturning =>
    obtain ⟨hfilter, hread⟩ := insertedFilter_failsLater he q hprepared
      (by simpa using hreturning) haccepts sql result
    refine NeverStructural.signal.bind fun _ => .build hfilter fun filter hfound => ?_
    obtain ⟨t, ht⟩ := hread filter hfound
    exact .findOne ht "insert"

/-- A prepared insert that can be written has no structural failure. -/
theorem insert_neverStructural {data : Record} (hprepared : st.InsertPrepared data)
    (haccepts : st.entity.Accepts data) :
    st.NeverStructural (.resolve st.entity q) (st.insert data) := by
  obtain ⟨w, hw⟩ := haccepts
  obtain ⟨t, ht, -⟩ := exists_insertStatement he q hw
  rw [insert_eq]
  refine .names_known (.build (by rw [ht]; exact .of_ok t) fun statement _ => ?_)
  exact (NeverStructural.send statement).bind fun result =>
    afterInsert_neverStructural he q hprepared ⟨w, hw⟩ _ result

/-- Prepared rows of defaults are inserted without a structural failure. -/
theorem insertDefaults_neverStructural (hprepared : st.InsertPrepared .empty) :
    ∀ records : List Record, st.NeverStructural (.resolve st.entity q) (st.insertDefaults records)
  | [] => .of_pure ()
  | _ :: records => by
    have hinsert := insert_neverStructural he q hprepared ⟨[], writtenValues_empty st.entity⟩
    exact hinsert.bind fun _ => insertDefaults_neverStructural hprepared records

end

/-! ## Many rows -/

/-- What is written of records can be found exactly if each of them can be written. -/
theorem exists_writtenRows_iff {e : Entity} : ∀ {records : List Record},
    (∃ rows, writtenRows e records = .ok rows) ↔ ∀ r ∈ records, e.Accepts r
  | [] => ⟨fun _ _ hr => (nomatch hr), fun _ => ⟨[], rfl⟩⟩
  | r :: records => by
    rw [List.forall_mem_cons, ← exists_writtenRows_iff]
    constructor
    · rintro ⟨rows, hrows⟩
      obtain ⟨w, hw, hrest⟩ := bind_eq_ok.1 hrows
      obtain ⟨rest, hrest, -⟩ := bind_eq_ok.1 hrest
      exact ⟨⟨w, hw⟩, rest, hrest⟩
    · rintro ⟨⟨w, hw⟩, rest, hrest⟩
      exact ⟨_, bind_eq_ok.2 ⟨w, hw, bind_eq_ok.2 ⟨rest, hrest, rfl⟩⟩⟩

/-- No field is written exactly if nothing is written of any record. -/
theorem bulkFields_eq_nil_iff {e : Entity} {records : List Record}
    {rows : List (List (Field × Value))} (h : writtenRows e records = .ok rows) :
    bulkFields e rows = [] ↔ ∀ r ∈ records, writtenValues e r true = .ok [] := by
  constructor
  · intro hnone r hr
    obtain ⟨w, hw, hwritten⟩ := exists_of_forall₂ (writtenRows_eq_ok.1 h) r hr
    cases w with
    | nil => exact hwritten
    | cons a w =>
      have hwritable := mem_writable hwritten (List.mem_cons_self (a := a))
      have hfield : a.1 ∈ bulkFields e rows :=
        List.mem_filter.2 ⟨(List.mem_filter.1 hwritable).1,
          List.any_eq_true.2 ⟨_, hw, gives_of_mem List.mem_cons_self⟩⟩
      rw [hnone] at hfield
      cases hfield
  · intro hall
    refine List.filter_eq_nil_iff.2 fun f _ hany => ?_
    obtain ⟨w, hw, hgives⟩ := List.any_eq_true.1 hany
    obtain ⟨r, hr, hwritten⟩ := exists_record h w hw
    cases (hall r hr).symm.trans hwritten
    cases hgives

/-- All records of a piece can be written, and a row of defaults can be inserted if the piece
consists of such rows. -/
def PieceRight (st : Store) (piece : List Record) : Prop :=
  (∀ r ∈ piece, st.entity.Accepts r) ∧
    ((∀ r ∈ piece, writtenValues st.entity r true = .ok []) → st.InsertPrepared .empty)

section

variable (he : st.entity.IsSound) (q : Quoting)

include he

/-- A piece that is right is inserted without a structural failure. -/
theorem insertChunk_neverStructural {piece : List Record} (h : st.PieceRight piece) :
    st.NeverStructural (.resolve st.entity q) (st.insertChunk (.resolve st.entity q) piece) := by
  obtain ⟨haccepts, hdefaults⟩ := h
  obtain ⟨rows, hrows⟩ := exists_writtenRows_iff.2 haccepts
  refine .build (by rw [hrows]; exact .of_ok rows) fun rows' hrows' => ?_
  cases hrows.symm.trans hrows'
  dsimp only
  split
  · next hempty =>
    have hnone := (bulkFields_eq_nil_iff hrows).1 (List.isEmpty_iff.1 hempty)
    exact (insertDefaults_neverStructural he q (hdefaults hnone) piece).bind fun _ => .of_pure _
  · next hsome =>
    have hne : bulkFields st.entity rows ≠ [] := fun hnil => by simp [hnil] at hsome
    obtain ⟨t, ht, -⟩ := exists_bulkStatement he q (mem_writable_of_rows hrows) hne
    refine .build (by rw [ht]; exact .of_ok t) fun statement _ => ?_
    exact (NeverStructural.send statement).bind fun result =>
      NeverStructural.signal.bind fun _ => .of_pure _

theorem insertChunks_neverStructural : ∀ {pieces : List (List Record)},
    (∀ piece ∈ pieces, st.PieceRight piece) →
      st.NeverStructural (.resolve st.entity q) (st.insertChunks (.resolve st.entity q) pieces)
  | [], _ => .of_pure 0
  | piece :: rest, h => by
    have hpiece := insertChunk_neverStructural he q (h piece List.mem_cons_self)
    have hrest := insertChunks_neverStructural fun p hp => h p (List.mem_cons_of_mem piece hp)
    exact hpiece.bind fun _ => hrest.bind fun _ => .of_pure _

end

theorem chunks_cons {x : Record} {xs : List Record} :
    chunks (bulkSize - 1) (x :: xs) =
      (x :: xs).take bulkSize :: chunks (bulkSize - 1) ((x :: xs).drop bulkSize) := by
  rw [chunks]
  rfl

/-- A prepared bulk insert has pieces that are right, unless the first one cannot be written. -/
theorem BulkPrepared.pieces {records : List Record} (h : st.BulkPrepared records)
    (hfirst : ∀ r ∈ records.take bulkSize, st.entity.Accepts r) :
    ∀ piece ∈ chunks (bulkSize - 1) records, st.PieceRight piece := by
  obtain ⟨haccepts, hdefaults⟩ := h hfirst
  intro piece hpiece
  exact ⟨fun r hr => haccepts r (mem_of_mem_chunks hr hpiece), hdefaults piece hpiece⟩

/-! ## Operations -/

section

variable {α : Type} {s : Session}

/-- What follows once the names of the entity are known is not structural. -/
theorem NeverStructural.failsBefore {m : Action α} {names : EntityNames}
    (h : st.NeverStructural names m) (hknows : st.Knows names s) : m.FailsBefore s :=
  .of_failsLater (h s hknows).1

/-- A query finds out everything before its statement is sent. -/
theorem query_failsBefore {build : EntityNames → Except Failure Template}
    {read : RowSet → Except Failure α} (hread : ∀ result, FailsLater (read result)) :
    (st.query build read).FailsBefore s := by
  refine .names fun names named hnames => .build fun t _ => ?_
  exact ((NeverStructural.send t).bind fun result => .found (hread result)).failsBefore
    (knows_of_names hnames)

theorem delete_failsBefore (id : RowId) : (st.delete id).FailsBefore s := by
  refine .build fun identity _ => .names fun names named hnames => .build fun t _ => ?_
  exact ((NeverStructural.send t).bind fun _ => .signal).failsBefore (knows_of_names hnames)

end

section

variable (he : st.entity.IsSound) {s : Session} (hown : st.database.KnowsOwn st.entity s)

include he hown

/-- A prepared insert finds out everything before its statement is sent. -/
theorem insert_failsBefore {data : Record} (hprepared : st.InsertPrepared data) :
    (st.insert data).FailsBefore s := by
  rw [insert_eq]
  refine .names fun names named hnames => .build fun t ht => ?_
  obtain rfl := hown.eq_resolve hnames
  have haccepts : st.entity.Accepts data := by
    obtain ⟨w, hw, -⟩ := bind_eq_ok.1 ht
    exact ⟨w, hw⟩
  have hrest : st.NeverStructural (.resolve st.entity st.database.dialect.quoting)
      (st.database.send t >>= st.afterInsert data (t.sql st.database.dialect.style)) :=
    (NeverStructural.send t).bind fun result =>
      afterInsert_neverStructural he _ hprepared haccepts _ result
  exact hrest.failsBefore (knows_of_names hnames)

theorem update_failsBefore {id : RowId} {data : Record} (hprepared : st.UpdatePrepared id data) :
    (st.update id data).FailsBefore s := by
  rw [update_eq]
  refine .build fun before hbefore => .names fun names named hnames => ?_
  obtain rfl := hown.eq_resolve hnames
  have hidentity := identityValues_complete hbefore
  refine .build fun written hwritten => ?_
  split
  · exact query_failsBefore fun _ => decodeSingle_failsLater _ _ _
  · next hsome =>
    refine .build fun t ht => ?_
    have hconverts : before.Converts st.entity := by
      obtain ⟨columns, -, hclause⟩ := bind_eq_ok.1 ht
      obtain ⟨clause, hclause, -⟩ := bind_eq_ok.1 hclause
      exact (exists_whereClause_iff he _ hidentity).1 ⟨clause, hclause⟩
    have hrest : ∀ result, st.NeverStructural (.resolve st.entity st.database.dialect.quoting)
        (st.afterUpdate before data result) := by
      intro result
      rw [afterUpdate]
      split
      · refine .build (decodeSingle_failsLater _ _ _) fun row _ => ?_
        exact NeverStructural.signal.bind fun _ => .of_pure row
      · next hreturning =>
        have hcurrent := hprepared (by simpa using hreturning) before written hbefore hwritten
          (fun hnil => by simp [hnil] at hsome) hconverts
        obtain ⟨select, hselect⟩ := (exists_selectStatement_iff he st.database.dialect.quoting
          (isIdentity_currentIdentity hidentity data)).2 hcurrent
        refine .build (expectOneChanged_failsLater _ _) fun _ _ => ?_
        exact NeverStructural.signal.bind fun _ => .findOne hselect "update"
    exact ((NeverStructural.send t).bind hrest).failsBefore (knows_of_names hnames)

/-- A prepared bulk insert finds out everything before its first statement is sent. -/
theorem bulkInsert_failsBefore {records : List Record} (hprepared : st.BulkPrepared records) :
    (st.bulkInsert records).FailsBefore s := by
  refine .names fun names named hnames => ?_
  obtain rfl := hown.eq_resolve hnames
  by_cases hfirst : ∀ r ∈ records.take bulkSize, st.entity.Accepts r
  · exact (insertChunks_neverStructural he _ (hprepared.pieces hfirst)).failsBefore
      (knows_of_names hnames)
  · cases records with
    | nil => exact absurd (fun _ hr => (nomatch hr)) hfirst
    | cons x xs =>
      -- the values of the first statement are refused
      rw [← exists_writtenRows_iff] at hfirst
      rw [chunks_cons, insertChunks, insertChunk]
      intro failure t hfailed _
      cases hrows : writtenRows st.entity ((x :: xs).take bulkSize) with
      | ok rows => exact absurd ⟨rows, hrows⟩ hfirst
      | error failure' =>
        rw [hrows, Action.bind_of_error (Action.bind_of_error (Action.lift_of_error rfl))]
          at hfailed
        cases hfailed
        exact ⟨rfl, rfl⟩

end

end Store

/-- A prepared operation finds out everything before its first statement is sent. -/
theorem Operation.failsBefore {st : Store} (he : st.entity.IsSound) {s : Session}
    (hown : st.database.KnowsOwn st.entity s) {op : Operation} (hprepared : op.IsPrepared st) :
    (op.perform st).FailsBefore s := by
  cases op with
  | count f => exact (Store.query_failsBefore (Store.countOf_failsLater _)).map _
  | find o => exact (Store.query_failsBefore fun _ => Store.decodeRows_failsLater _ _).map _
  | insert data => exact (Store.insert_failsBefore he hown hprepared).map _
  | update id data => exact (Store.update_failsBefore he hown hprepared).map _
  | delete id => exact (Store.delete_failsBefore id).map _
  | bulkInsert records => exact (Store.bulkInsert_failsBefore he hown hprepared).map _

end EntitySql
