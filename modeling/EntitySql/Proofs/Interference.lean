import EntitySql.Proofs.Operations
import EntitySql.Proofs.Shapes

/-!
# Values stay out of the text

Whoever chooses the values of an operation does not choose the text of its
statements. Two runs of an operation are followed in step. What they are given
has one shape: the same filters, fields, keys and lists, with values that
convert, to NULL in the same places. Their statements then differ in their
values only, whatever quotes, patterns, marks or SQL these have in them.

- `Record.Alike`, `RowId.Alike`, `Operation.Alike`: arguments of one shape.
- `Operation.texts_alike`: operations of one shape send the same texts.
-/

namespace EntitySql

open Store

/-! ## Records of one shape -/

/-- Entries of one key with related values. -/
def EntryRel (R : String → Value → Value → Prop) (a b : String × Value) : Prop :=
  a.1 = b.1 ∧ R a.1 a.2 b.2

/-- Records with the same keys and related values. -/
def Record.Rel (r : Record) (R : String → Value → Value → Prop) (s : Record) : Prop :=
  List.Forall₂ (EntryRel R) r.entries s.entries

/-- Records of one shape have the same keys, with values of one shape. -/
def Record.Alike (e : Entity) (r s : Record) : Prop := r.Rel e.Alike s

section

variable {R : String → Value → Value → Prop} {r s : Record}

/-- The empty record has no values. -/
theorem Record.empty_rel (R : String → Value → Value → Prop) : Record.empty.Rel R Record.empty :=
  .nil

/-- Setting a key to related values. -/
theorem insertEntry_rel {key : String} {v w : Value} (h : R key v w)
    {as bs : List (String × Value)} (hentries : List.Forall₂ (EntryRel R) as bs) :
    List.Forall₂ (EntryRel R) (insertEntry key v as) (insertEntry key w bs) := by
  induction hentries with
  | nil => exact .cons ⟨rfl, h⟩ .nil
  | @cons a b as bs hab hrest ih =>
    obtain ⟨k, x⟩ := a
    obtain ⟨k', y⟩ := b
    obtain ⟨rfl, hxy⟩ : k = k' ∧ R k x y := hab
    simp only [insertEntry]
    split
    · exact .cons ⟨rfl, h⟩ (.cons ⟨rfl, hxy⟩ hrest)
    · split
      · exact .cons ⟨rfl, h⟩ hrest
      · exact .cons ⟨rfl, hxy⟩ ih

/-- Records of pairs with related values. -/
theorem Record.ofPairs_rel {as bs : List (String × Value)}
    (h : List.Forall₂ (EntryRel R) as bs) : (ofPairs as).Rel R (ofPairs bs) := by
  have hfold : ∀ {r s : Record}, r.Rel R s →
      (as.foldl (fun r p => r.insert p.1 p.2) r).Rel R
        (bs.foldl (fun r p => r.insert p.1 p.2) s) := by
    induction h with
    | nil => exact fun hrs => hrs
    | @cons a b as bs hab _ ih =>
      intro r s hrs
      refine ih ?_
      obtain ⟨hkey, hvalues⟩ := hab
      show (r.insert a.1 a.2).Rel R (s.insert b.1 b.2)
      rw [← hkey]
      exact insertEntry_rel hvalues hrs
  exact hfold (empty_rel R)

/-- Both records give a value to a key or neither does, and the values are related. -/
theorem Record.get?_rel (h : r.Rel R s) (key : String) :
    Option.Rel (R key) (r.get? key) (s.get? key) := by
  have hfind : ∀ {as bs : List (String × Value)}, List.Forall₂ (EntryRel R) as bs →
      Option.Rel (R key) ((as.find? fun a => a.1 == key).map Prod.snd)
        ((bs.find? fun a => a.1 == key).map Prod.snd) := by
    intro as bs hentries
    induction hentries with
    | nil => exact .none
    | @cons a b as bs hab _ ih =>
      obtain ⟨hkey, hvalues⟩ := hab
      rw [List.find?_cons, List.find?_cons, ← hkey]
      cases hkeys : a.1 == key with
      | false => exact ih
      | true =>
        rw [beq_iff_eq] at hkeys
        subst hkeys
        exact .some hvalues
  exact hfind h

end

/-! ## Identities of one shape -/

/-- Identities of one shape. -/
inductive RowId.Alike (e : Entity) : RowId → RowId → Prop
  | single {v w : Value} (h : ∀ key ∈ e.identity, e.Alike key v w) :
    Alike e (.single v) (.single w)
  | compound {r s : Record} (h : r.Alike e s) : Alike e (.compound r) (.compound s)

/-- Two values of one shape for a part of the identity. -/
def Entity.IdentityAlike (e : Entity) (key : String) (v w : Value) : Prop :=
  key ∈ e.identity ∧ e.Alike key v w

/-- Values of one shape for parts of the identity. -/
def Record.IdentityAlike (e : Entity) (r s : Record) : Prop := r.Rel e.IdentityAlike s

section

variable {e : Entity} {r s : Record}

/-- The components of identities of one shape. -/
theorem componentsOf_alike (h : r.Alike e s) (operation : String) :
    ∀ keys : List String, keys ⊆ e.identity →
      Both (List.Forall₂ (EntryRel e.IdentityAlike)) (componentsOf e operation r keys)
        (componentsOf e operation s keys)
  | [], _ => .nil
  | key :: keys, hkeys => by
    have hkey : key ∈ e.identity := hkeys List.mem_cons_self
    have hrest := componentsOf_alike h operation keys fun k hk => hkeys (List.mem_cons_of_mem _ hk)
    have hget := r.get?_rel h key
    rw [componentsOf, componentsOf]
    cases hr : r.get? key <;> cases hs : s.get? key <;> rw [hr, hs] at hget
    · trivial
    · cases hget
    · cases hget
    · cases hget with
      | some hvalues =>
        simp only [hvalues.isNull_eq hkey]
        split
        · trivial
        · exact hrest.bind fun _ _ hpairs => .cons ⟨rfl, hkey, hvalues⟩ hpairs

theorem identityValues_alike {id id' : RowId} (h : id.Alike e id') (operation : String) :
    Both (Record.IdentityAlike e) (identityValues e operation id)
      (identityValues e operation id') := by
  cases h with
  | single h =>
    unfold identityValues
    cases hidentity : e.identity with
    | nil => exact .nil
    | cons key keys =>
      have hkey : key ∈ e.identity := hidentity ▸ List.mem_cons_self
      -- one value is the identity only where one field is
      cases keys with
      | cons second keys => trivial
      | nil =>
        simp only [(h key hkey).isNull_eq hkey]
        split
        · trivial
        · exact insertEntry_rel (R := e.IdentityAlike) ⟨hkey, h key hkey⟩ (Record.empty_rel _)
  | compound h =>
    exact (componentsOf_alike h operation e.identity (List.Subset.refl _)).bind
      fun _ _ hpairs => Record.ofPairs_rel hpairs

/-- The filters for identities of one shape. -/
theorem identityFilter_alike (h : r.IdentityAlike e s) :
    Filter.Alike e (identityFilter r) (identityFilter s) := by
  have hfilters : ∀ {as bs : List (String × Value)},
      List.Forall₂ (EntryRel e.IdentityAlike) as bs →
      Filter.AllAlike e (as.map fun a => Filter.compare a.1 .eq a.2)
        (bs.map fun a => Filter.compare a.1 .eq a.2) := by
    intro as bs hentries
    induction hentries with
    | nil => exact .nil
    | @cons a b as bs hab _ ih =>
      obtain ⟨hkey, _, hvalues⟩ := hab
      rw [List.map_cons, List.map_cons, ← hkey]
      exact .cons (.compare hvalues) ih
  have hall := hfilters h
  unfold identityFilter
  generalize (r.entries.map fun a => Filter.compare a.1 .eq a.2) = fs at hall ⊢
  generalize (s.entries.map fun a => Filter.compare a.1 .eq a.2) = gs at hall ⊢
  cases hall with
  | nil => exact .and .nil
  | cons hfg hrest =>
    cases hrest with
    | nil => exact hfg
    | cons hfg' hrest => exact .and (.cons hfg (.cons hfg' hrest))

/-- Identities of one shape after updates with records of one shape. -/
theorem currentIdentity_alike {data data' : Record} (h : r.IdentityAlike e s)
    (hdata : data.Alike e data') :
    (currentIdentity r data).IdentityAlike e (currentIdentity s data') := by
  refine Record.ofPairs_rel ?_
  rw [List.forall₂_map_left_iff, List.forall₂_map_right_iff]
  refine List.Forall₂.imp ?_ h
  rintro ⟨key, v⟩ ⟨_, w⟩ ⟨rfl, hkey, hvw⟩
  -- both records have a value for the key or neither does, and NULL keeps the value before
  have hget := data.get?_rel hdata key
  dsimp only
  cases hr : data.get? key <;> cases hs : data'.get? key <;> rw [hr, hs] at hget
  · exact ⟨rfl, hkey, hvw⟩
  · cases hget
  · cases hget
  · cases hget with
    | some hvalues =>
      simp only [hvalues.isNull_eq hkey]
      split
      · exact ⟨rfl, hkey, hvw⟩
      · exact ⟨rfl, hkey, hvalues⟩

end

/-! ## Statements of one shape -/

namespace Store

/-- Written values of one shape are those of the same fields. -/
def SameFields (w w' : List (Field × Value)) : Prop := w.map Prod.fst = w'.map Prod.fst

/-- Templates that differ in their values only. -/
def SameBlank (t u : Template) : Prop := t.blank = u.blank

variable {e : Entity} {names : EntityNames} {d : Dialect} {data data' : Record}
  {w w' : List (Field × Value)}

/-- Records of one shape have values for the same fields. -/
theorem storedValues_alike (h : data.Alike e data') (skipNulls : Bool) :
    ∀ fs : List Field, (∀ f ∈ fs, f ∈ e.fields) →
      Both SameFields (storedValues data skipNulls fs) (storedValues data' skipNulls fs)
  | [], _ => rfl
  | f :: fs, hfields => by
    have hrest := storedValues_alike h skipNulls fs
      fun g hg => hfields g (List.mem_cons_of_mem _ hg)
    have hget := data.get?_rel h f.key
    rw [storedValues, storedValues]
    cases hr : data.get? f.key <;> cases hs : data'.get? f.key <;> rw [hr, hs] at hget
    · exact hrest
    · cases hget
    · cases hget
    · cases hget with
      | some hvalues =>
        obtain ⟨a, b, ha, hb, hnull⟩ := hvalues.stored f (hfields f List.mem_cons_self) rfl
        simp only [ha, hb, ok_bind]
        refine hrest.bind fun w w' hw => ?_
        -- a field is left out in both or in neither
        show SameFields _ _
        rw [hnull]
        split
        · exact hw
        · exact congrArg (f :: ·) hw

/-- Records of one shape are written to the same fields. -/
theorem writtenValues_alike (h : data.Alike e data') (skipNulls : Bool) :
    Both SameFields (writtenValues e data skipNulls) (writtenValues e data' skipNulls) :=
  storedValues_alike h skipNulls e.writable fun _ hf => (List.mem_filter.1 hf).1

/-- Values of the same fields are as many. -/
theorem SameFields.length_eq (h : SameFields w w') : w.length = w'.length := by
  rw [← List.length_map (f := Prod.fst), h, List.length_map]

theorem countStatement_alike {f g : Filter} (h : Filter.Alike e f g) :
    Both SameBlank (countStatement e names f) (countStatement e names g) := by
  refine (Filter.whereClause_alike h).bind fun t u htu => ?_
  show Template.blank (_ :: _) = Template.blank (_ :: _)
  rw [Template.blank_text, Template.blank_text, htu]

theorem findStatement_alike {f g : Option Filter} (h : Option.Rel (Filter.Alike e) f g)
    (order : Option RowOrder) (limit page : Option Nat) :
    Both SameBlank (findStatement e names d ⟨f, order, limit, page⟩)
      (findStatement e names d ⟨g, order, limit, page⟩) := by
  have hclause : Both SameBlank (optionalClause e names f) (optionalClause e names g) := by
    cases h with
    | none => exact rfl
    | some hfg => exact Filter.whereClause_alike hfg
  refine Both.bind_same fun columns _ => ?_
  refine hclause.bind fun t u htu => ?_
  refine Both.bind_same fun orderText _ => ?_
  refine Both.bind_same fun pageText _ => ?_
  show Template.blank (_ ++ _) = Template.blank (_ ++ _)
  rw [List.cons_append, List.cons_append, Template.blank_text, Template.blank_text,
    Template.blank_append, Template.blank_append, htu]

theorem selectStatement_alike {f g : Filter} (h : Filter.Alike e f g) :
    Both SameBlank (selectStatement e names f) (selectStatement e names g) := by
  refine (Filter.whereClause_alike h).bind fun t u htu => ?_
  refine Both.bind_same fun columns _ => ?_
  show Template.blank (_ :: _) = Template.blank (_ :: _)
  rw [Template.blank_text, Template.blank_text, htu]

theorem tuple_alike {vs vs' : List Value} (h : vs.length = vs'.length) :
    SameBlank (tuple vs) (tuple vs') := by
  rw [SameBlank, tuple, tuple, List.cons_append, List.cons_append, Template.blank_text,
    Template.blank_text, Template.blank_append, Template.blank_append,
    Template.blank_parameters_eq h]

theorem insertStatement_alike (h : data.Alike e data') :
    Both SameBlank (insertStatement e names d data) (insertStatement e names d data') := by
  refine (writtenValues_alike h true).bind fun w w' hw => ?_
  rw [isEmpty_eq_of_length_eq hw.length_eq, show w.map Prod.fst = w'.map Prod.fst from hw]
  split
  · exact (Both.refl _).imp fun t u htu => congrArg Template.blank htu
  · have htuple : SameBlank (tuple (w.map Prod.snd)) (tuple (w'.map Prod.snd)) :=
      tuple_alike (by rw [List.length_map, List.length_map, hw.length_eq])
    refine Both.bind_same fun columns _ => ?_
    rw [ok_bind, ok_bind]
    refine Both.bind_same fun returning _ => ?_
    show Template.blank (_ :: _ ++ _) = Template.blank (_ :: _ ++ _)
    rw [Template.blank_append, Template.blank_append, Template.blank_text, Template.blank_text,
      htuple]

theorem assignments_alike (columns : List String) {vs vs' : List Value}
    (h : vs.length = vs'.length) :
    SameBlank (assignments columns vs) (assignments columns vs') := by
  refine Template.blank_separated_eq ", " ?_
  rw [List.forall₂_map_left_iff, List.forall₂_map_right_iff]
  induction columns generalizing vs vs' with
  | nil => exact .nil
  | cons column columns ih =>
    cases vs with
    | nil =>
      rw [List.length_eq_zero_iff.1 h.symm]
      exact .nil
    | cons v vs =>
      cases vs' with
      | nil => cases h
      | cons v' vs' => exact .cons rfl (ih (Nat.succ.inj h))

theorem updateStatement_alike {r s : Record} (h : r.IdentityAlike e s)
    (hw : SameFields w w') :
    Both SameBlank (updateStatement e names d r w) (updateStatement e names d s w') := by
  unfold updateStatement
  rw [show w.map Prod.fst = w'.map Prod.fst from hw]
  refine Both.bind_same fun columns _ => ?_
  refine (Filter.whereClause_alike (identityFilter_alike h)).bind fun t u htu => ?_
  refine Both.bind_same fun returning _ => ?_
  have hset : SameBlank (assignments columns (w.map Prod.snd))
      (assignments columns (w'.map Prod.snd)) :=
    assignments_alike columns (by rw [List.length_map, List.length_map, hw.length_eq])
  show Template.blank (_ :: _ ++ _ ++ _) = Template.blank (_ :: _ ++ _ ++ _)
  rw [Template.blank_append, Template.blank_append, Template.blank_append, Template.blank_append,
    Template.blank_text, Template.blank_text, hset, htu]

theorem deleteStatement_alike {r s : Record} (h : r.IdentityAlike e s) :
    Both SameBlank (deleteStatement e names r) (deleteStatement e names s) := by
  refine (Filter.whereClause_alike (identityFilter_alike h)).bind fun t u htu => ?_
  show Template.blank (_ :: _) = Template.blank (_ :: _)
  rw [Template.blank_text, Template.blank_text, htu]

/-- Lists of records of one shape are written to the same fields, each record in its place. -/
theorem writtenRows_alike {rows rows' : List Record}
    (h : List.Forall₂ (Record.Alike e) rows rows') :
    Both (List.Forall₂ SameFields) (writtenRows e rows) (writtenRows e rows') := by
  induction h with
  | nil => exact .nil
  | cons hrs _ ih =>
    refine (writtenValues_alike hrs true).bind fun w w' hw => ?_
    exact ih.bind fun _ _ hrest => .cons hw hrest

/-- Rows of the same fields give values to the same fields. -/
theorem bulkFields_eq {rows rows' : List (List (Field × Value))}
    (h : List.Forall₂ SameFields rows rows') : bulkFields e rows = bulkFields e rows' := by
  have hgives : ∀ f, (rows.any fun row => gives row f) = rows'.any fun row => gives row f := by
    intro f
    induction h with
    | nil => rfl
    | @cons w w' _ _ hw _ ih =>
      -- whether a row gives a field is a matter of its fields alone
      have hfields : ∀ row, gives row f = (row.map Prod.fst).any fun g => g.key == f.key := by
        intro row
        rw [gives, List.any_map]
        rfl
      rw [List.any_cons, List.any_cons, hfields, hfields, show w.map Prod.fst = _ from hw, ih]
  rw [bulkFields, bulkFields]
  exact congrArg (e.fields.filter ·) (funext hgives)

theorem bulkStatement_alike (fields : List Field) {rows rows' : List (List (Field × Value))}
    (h : rows.length = rows'.length) :
    Both SameBlank (bulkStatement names fields rows) (bulkStatement names fields rows') := by
  refine Both.bind_same fun columns _ => ?_
  have htuples : SameBlank
      (Template.separated ", " (rows.map fun row => tuple (fields.map (valueFor row))))
      (Template.separated ", " (rows'.map fun row => tuple (fields.map (valueFor row)))) := by
    refine Template.blank_separated_eq ", " ?_
    rw [List.forall₂_map_left_iff, List.forall₂_map_right_iff]
    refine List.forall₂_iff_get.2 ⟨h, fun _ _ _ => tuple_alike ?_⟩
    rw [List.length_map, List.length_map]
  show Template.blank (_ :: _) = Template.blank (_ :: _)
  rw [Template.blank_text, Template.blank_text, htuples]

end Store

/-! ## Two runs in step -/

namespace Operation

/-- Operations of one shape. -/
inductive Alike (e : Entity) : Operation → Operation → Prop
  | count {f g : Filter} (h : Filter.Alike e f g) : Alike e (.count f) (.count g)
  /-- The same order and page. -/
  | find {f g : Option Filter} {order : Option RowOrder} {limit page : Option Nat}
    (h : Option.Rel (Filter.Alike e) f g) :
    Alike e (.find ⟨f, order, limit, page⟩) (.find ⟨g, order, limit, page⟩)
  | insert {data data' : Record} (h : data.Alike e data') : Alike e (.insert data) (.insert data')
  | update {id id' : RowId} {data data' : Record} (hid : id.Alike e id')
    (hdata : data.Alike e data') : Alike e (.update id data) (.update id' data')
  | delete {id id' : RowId} (h : id.Alike e id') : Alike e (.delete id) (.delete id')
  | bulkInsert {rows rows' : List Record} (h : List.Forall₂ (Record.Alike e) rows rows') :
    Alike e (.bulkInsert rows) (.bulkInsert rows')

/-- The templates of two runs differ in their values only. -/
def PairBlank (t : Bool → Template) : Prop := SameBlank (t true) (t false)

/-- Two computations that succeed together are two runs that agree. -/
theorem agree_of_both {α : Type} {R : α → α → Prop} {x : Bool → Except Failure α}
    (h : Both R (x true) (x false)) : Agree (fun a => R (a true) (a false)) x := by
  cases htrue : x true <;> cases hfalse : x false <;> rw [htrue, hfalse] at h
  · refine .inr fun i => ?_
    cases i with
    | true => exact ⟨_, htrue⟩
    | false => exact ⟨_, hfalse⟩
  · cases h
  · cases h
  · next a b =>
    refine .inl ⟨fun i => cond i a b, h, fun i => ?_⟩
    cases i with
    | true => exact htrue
    | false => exact hfalse

/-- No database tells templates apart that differ in their values only. -/
theorem sameKind_pairBlank (style : TokenStyle) : SameKind (fun _ => style) PairBlank := by
  intro t ht i j
  have hsql : ∀ i, (t i).sql style = (t true).sql style := by
    intro i
    cases i with
    | true => rfl
    | false => exact (Template.sql_eq_of_blank_eq ht style).symm
  rw [hsql i, hsql j]

/-- Actions of two runs whose statements differ in their values only. -/
abbrev TwoInStep {α : Type} (st : Store) (Q : (Bool → α) → Prop) (m : Bool → Action α) : Prop :=
  InStep (fun _ => True) (fun _ => st.database.dialect.style) PairBlank Q m

/-- Two runs have any names in common. -/
theorem runsAlike_pairBlank (st : Store) :
    RunsAlike (fun _ => True) (fun _ => True) (fun _ => st.database.dialect.style) PairBlank
      st where
  kind := sameKind_pairBlank _
  named := (Database.names_inStep st.database st.entity).imp
    fun _ ⟨names, hnames⟩ => ⟨names, trivial, hnames⟩

/-- Rows are read by statements that differ in their values only. -/
theorem selectsAlike_pairBlank {e : Entity} {f : Bool → Filter}
    (h : Filter.Alike e (f true) (f false)) : SelectsAlike (fun _ => True) PairBlank e f :=
  fun _ _ => agree_of_both (selectStatement_alike h)

/-- The filter for the row that was inserted: the number that the database gave is the same in
both runs, and identities have one shape. -/
theorem insertedFilter_pairBlank (st : Store) {data : Bool → Record}
    (h : (data true).Alike st.entity (data false)) (result : RowSet) (sql : Bool → String) :
    Agree (SelectsAlike (fun _ => True) PairBlank st.entity) fun i =>
      insertedFilter st (data i) (sql i) result := by
  unfold insertedFilter
  cases st.entity.autoIdentity? with
  | some field =>
    cases result.lastId with
    | none => exact .of_error _
    | some n =>
      refine .of_ok fun names _ => agree_of_both ?_
      exact (Both.refl _).imp fun _ _ htu => congrArg Template.blank htu
  | none =>
    refine (agree_of_both (R := Record.IdentityAlike st.entity)
      (identityValues_alike (.compound h) "insert")).bind fun b hb => ?_
    exact .of_ok (selectsAlike_pairBlank (identityFilter_alike hb))

/-- Insertions of records of one shape are in step. -/
theorem insert_pairBlank (st : Store) {data : Bool → Record}
    (h : (data true).Alike st.entity (data false)) :
    TwoInStep st AllSame fun i => st.insert (data i) :=
  insert_inStep (runsAlike_pairBlank st)
    (fun _ _ => agree_of_both (insertStatement_alike h)) (insertedFilter_pairBlank st h)

theorem update_pairBlank (st : Store) {id : Bool → RowId} {data : Bool → Record}
    (hid : (id true).Alike st.entity (id false))
    (hdata : (data true).Alike st.entity (data false)) :
    TwoInStep st AllSame fun i => st.update (id i) (data i) := by
  refine update_inStep (runsAlike_pairBlank st)
    (B := fun b => (b true).IdentityAlike st.entity (b false))
    (W := fun w => SameFields (w true) (w false))
    (agree_of_both (identityValues_alike hid "update"))
    (agree_of_both (writtenValues_alike hdata false)) ?_ ?_ ?_ ?_
  · intro w hw
    refine ⟨(w true).isEmpty, fun i => ?_⟩
    cases i with
    | true => rfl
    | false => exact (isEmpty_eq_of_length_eq hw.length_eq).symm
  · exact fun names b w _ hb hw => agree_of_both (updateStatement_alike hb hw)
  · exact fun b hb => selectsAlike_pairBlank (identityFilter_alike hb)
  · exact fun b hb => selectsAlike_pairBlank (identityFilter_alike (currentIdentity_alike hb hdata))

/-- Lists of one shape, each member with the member in its place. -/
theorem exists_pairs {α : Type} {R : α → α → Prop} {xs ys : List α} (h : List.Forall₂ R xs ys) :
    ∃ pairs : List (Bool → α), pairs.map (fun p => p true) = xs ∧
      pairs.map (fun p => p false) = ys ∧ ∀ p ∈ pairs, R (p true) (p false) := by
  induction h with
  | nil => exact ⟨[], rfl, rfl, by simp⟩
  | @cons x y _ _ hxy _ ih =>
    obtain ⟨pairs, rfl, rfl, hpairs⟩ := ih
    refine ⟨(fun i => cond i x y) :: pairs, rfl, rfl, ?_⟩
    intro p hp
    rcases List.mem_cons.1 hp with rfl | hp
    · exact hxy
    · exact hpairs p hp

theorem bulkInsert_pairBlank (st : Store) {rows : List (Bool → Record)}
    (h : ∀ r ∈ rows, (r true).Alike st.entity (r false)) :
    TwoInStep st AllSame fun i => st.bulkInsert (rows.map fun r => r i) := by
  refine bulkInsert_inStep (runsAlike_pairBlank st)
    (W := fun w => List.Forall₂ SameFields (w true) (w false)) rows
    (insert_pairBlank st (Record.empty_rel _)) ?_
  intro chunk hchunk
  have hrows : List.Forall₂ (Record.Alike st.entity) (chunk.map fun r => r true)
      (chunk.map fun r => r false) := by
    rw [List.forall₂_map_left_iff, List.forall₂_map_right_iff, List.forall₂_same]
    exact fun r hr => h r (mem_of_mem_chunks hr hchunk)
  refine ⟨agree_of_both (writtenRows_alike hrows), fun w hw => ?_, fun names w _ hw => ?_⟩
  · refine ⟨bulkFields st.entity (w true), fun i => ?_⟩
    cases i with
    | true => rfl
    | false => exact (bulkFields_eq hw).symm
  · refine agree_of_both ?_
    rw [bulkFields_eq hw]
    exact bulkStatement_alike _ hw.length_eq

/-- What two operations send has the same texts, from sessions with the same answers. -/
def SendSameTexts (st : Store) (op op' : Operation) : Prop :=
  ∀ s s' : Session, s.scripted = s'.scripted → s.scopes = s'.scopes →
    ∃ new new', (op.after st s).statements = s.statements ++ new ∧
      (op'.after st s').statements = s'.statements ++ new' ∧
      new.map Statement.sql = new'.map Statement.sql

/-- Actions in step send the same texts. -/
theorem sendSameTexts_of_inStep {α : Type} {st : Store} {op op' : Operation}
    {Q : (Bool → α) → Prop} {m : Bool → Action α}
    (h : TwoInStep st Q m) (hm : ∀ s, op.after st s = (m true s).2)
    (hm' : ∀ s, op'.after st s = (m false s).2) :
    SendSameTexts st op op' := by
  intro s s' hscripted hscopes
  obtain ⟨ts, hts, hsent, _, _⟩ := h (fun i => cond i s s')
    ⟨s'.scripted, s'.scopes, trivial, fun i => by
      cases i with
      | true => exact ⟨hscripted, hscopes⟩
      | false => exact ⟨rfl, rfl⟩⟩
  refine ⟨_, _, (congrArg _ (hm s)).trans (hsent true), (congrArg _ (hm' s')).trans (hsent false),
    ?_⟩
  rw [List.map_map, List.map_map]
  exact List.map_congr_left fun t ht => Template.sql_eq_of_blank_eq (hts t ht) _

/-- No value reaches the text of a statement: filters of one shape compile to the same text under
every style of tokens, or both do not compile, and operations of one shape send the same texts. -/
theorem texts_alike (st : Store) :
    (∀ names f g, Filter.Alike st.entity f g →
      Both (Option.Rel fun t u : Template => ∀ style, t.sql style = u.sql style)
        (f.compile st.entity names) (g.compile st.entity names)) ∧
    ∀ op op', Alike st.entity op op' → SendSameTexts st op op' := by
  constructor
  · intro names f g h
    refine (Filter.compile_alike h).imp fun _ _ hfg => ?_
    cases hfg with
    | none => exact .none
    | some htu => exact .some (Template.sql_eq_of_blank_eq htu)
  · intro op op' h
    have hst := runsAlike_pairBlank st
    -- one case for each operation; its runs are those of `true` and `false`
    cases h with
    | @count f g h =>
      refine sendSameTexts_of_inStep (count_inStep hst (f := fun i => cond i f g) fun _ _ => ?_)
        (fun _ => rfl) fun _ => rfl
      exact agree_of_both (countStatement_alike h)
    | @find f g order limit page h =>
      refine sendSameTexts_of_inStep
        (find_inStep hst (o := fun i => ⟨cond i f g, order, limit, page⟩) fun _ _ => ?_)
        (fun _ => rfl) fun _ => rfl
      exact agree_of_both (findStatement_alike h order limit page)
    | @insert data data' h =>
      exact sendSameTexts_of_inStep (m := fun i => st.insert (cond i data data'))
        (insert_pairBlank st h) (fun _ => rfl) fun _ => rfl
    | @update id id' data data' hid hdata =>
      exact sendSameTexts_of_inStep (m := fun i => st.update (cond i id id') (cond i data data'))
        (update_pairBlank st hid hdata) (fun _ => rfl) fun _ => rfl
    | @delete id id' h =>
      have hstep : TwoInStep st (fun _ => True) fun i => st.delete (cond i id id') :=
        delete_inStep hst (B := fun b => (b true).IdentityAlike st.entity (b false))
          (agree_of_both (identityValues_alike h "delete"))
          fun _ _ _ hb => agree_of_both (deleteStatement_alike hb)
      exact sendSameTexts_of_inStep hstep (fun _ => rfl) fun _ => rfl
    | @bulkInsert rows rows' h =>
      obtain ⟨pairs, rfl, rfl, hpairs⟩ := exists_pairs h
      exact sendSameTexts_of_inStep (bulkInsert_pairBlank st hpairs) (fun _ => rfl) fun _ => rfl

end Operation

/-- An entity with a text. -/
def note : Entity :=
  { key := "note", table := "note"
    fields := [.ofType "id" .integer, .ofType "body" .text]
    identity := ["id"] }

/-- Notes in a database that does not give the rows that it writes. -/
def notes : Store :=
  (Database.root { Dialect.plain with capabilities := ⟨false, false, false⟩ }
    ⟨.off, .zero⟩).store note

/-- An update with a text that looks like SQL sends the texts of any other update. -/
theorem Operation.texts_alike_update :
    Operation.SendSameTexts notes
      (.update (.single (.integer 1)) (.ofPairs [("body", .text "a")]))
      (.update (.single (.integer 2)) (.ofPairs [("body", .text "'; drop table note -- %? $1")])) ∧
    (Operation.after notes .fresh
      (.update (.single (.integer 1)) (.ofPairs [("body", .text "a")]))).statements.map
        Statement.sql =
      ["update note set body = ? where id = ?", "select id, body from note where id = ?"] := by
  refine ⟨(Operation.texts_alike notes).2 _ _ (.update (.single ?_) (.cons ⟨rfl, ?_⟩ .nil)), rfl⟩
  · intro key hkey
    obtain rfl : key = "id" := List.mem_singleton.1 hkey
    refine ⟨fun f hf hkey => ?_, fun _ hnone => absurd rfl (hnone _ List.mem_cons_self)⟩
    rcases List.mem_cons.1 hf with rfl | hf
    · exact ⟨_, _, rfl, rfl, rfl⟩
    · obtain rfl := List.mem_singleton.1 hf
      exact absurd hkey (by decide)
  · refine ⟨fun f hf hkey => ?_, fun hid => absurd hid (by decide)⟩
    rcases List.mem_cons.1 hf with rfl | hf
    · exact absurd hkey (by decide)
    · obtain rfl := List.mem_singleton.1 hf
      exact ⟨_, _, rfl, rfl, rfl⟩

end EntitySql
