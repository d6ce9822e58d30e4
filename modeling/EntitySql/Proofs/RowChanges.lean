import EntitySql.Proofs.Pins
import EntitySql.Proofs.Requests
import EntitySql.Proofs.Templates
import EntitySql.Proofs.Tokens

/-!
# Changes of single rows

An update and a deletion are about the row of an identity. Each of them asks
every identity field for its value, whatever the form of the identity and
whatever else it holds; an identity that lacks a value is refused before
anything happens.

- `RowId.missing?`: the identity field that an identity lacks.
- `RowId.IsAskedBy`: columns and values that ask for the row of an identity.
- `EntityNames.columnOf_selected`, `EntityNames.columnOf_resolve`: fields have
  columns of their own, those of the identity quoted ones.
- `Template.render_separated`: the text of templates one after the other.
- `Store.IsUpdate`, `Store.IsDeletion`: the statements that change that row.
- `Action.Changes`: what an action sends, apart from queries.
- `Store.changes_asked_row`: all that updates and deletions send.
-/

namespace EntitySql

/-! ## Identities -/

namespace RowId

/-- The value that an identity has for a key. A single value is one for every key. -/
def component : RowId → String → Option Value
  | .single v, _ => some v
  | .compound values, key => values.get? key

/-- The identity field that an identity lacks: for a single value the second one if there are
several, otherwise the first one without a value or with NULL. -/
def missing? (id : RowId) (identity : List String) : Option String :=
  match id, identity with
  | .single _, _ :: second :: _ => some second
  | id, keys => keys.find? fun key => (id.component key).all Value.isNull

end RowId

namespace Store

variable {e : Entity} {operation : String}

/-- The first component that is missing is the one that is reported. -/
theorem componentsOf_of_missing {values : Record} {missing : String} : ∀ {keys : List String},
    (keys.find? fun key => (values.get? key).all Value.isNull) = some missing →
      componentsOf e operation values keys = .error (.missingIdentity e.key operation missing)
  | key :: keys, h => by
    rw [List.find?_cons] at h
    rw [componentsOf]
    cases hget : values.get? key with
    | none =>
      rw [hget] at h
      cases h
      rfl
    | some v =>
      rw [hget, Option.all_some] at h
      dsimp only
      cases hnull : v.isNull with
      | true =>
        rw [hnull] at h
        cases h
        rfl
      | false =>
        rw [hnull] at h
        have hrest : componentsOf e operation values keys = _ := componentsOf_of_missing h
        simp only [Bool.false_eq_true, if_false, ok_bind, hrest, error_bind]

/-- An identity that lacks a field is refused. -/
theorem identityValues_of_missing {id : RowId} {missing : String}
    (h : id.missing? e.identity = some missing) :
    identityValues e operation id = .error (.missingIdentity e.key operation missing) := by
  cases id with
  | compound values =>
    have hcomponents : componentsOf e operation values e.identity = _ := componentsOf_of_missing h
    rw [identityValues, hcomponents]
    rfl
  | single v =>
    rw [identityValues]
    revert h
    cases e.identity with
    | nil =>
      intro h
      cases h
    | cons key keys =>
      cases keys with
      | cons second keys =>
        intro h
        cases h
        rfl
      | nil =>
        intro h
        simp only [RowId.missing?, List.find?_cons, List.find?_nil, RowId.component,
          Option.all_some] at h
        dsimp only
        cases hnull : v.isNull with
        | true =>
          rw [hnull] at h
          cases h
          rfl
        | false =>
          rw [hnull] at h
          cases h

theorem exists_identityValues {id : RowId} (h : id.missing? e.identity = none) :
    ∃ r, identityValues e operation id = .ok r ∧
      ∀ key ∈ e.identity, r.get? key = id.component key := by
  cases id with
  | compound values =>
    have hvalues : ∀ key ∈ e.identity, ∃ v, values.get? key = some v ∧ v.isNull = false := by
      intro key hkey
      have hfound := List.find?_eq_none.1 h key hkey
      rw [RowId.component] at hfound
      cases hget : values.get? key with
      | none =>
        rw [hget] at hfound
        exact absurd rfl hfound
      | some v =>
        rw [hget] at hfound
        exact ⟨v, rfl, by simpa using hfound⟩
    obtain ⟨pairs, hpairs⟩ : ∃ pairs, componentsOf e operation values e.identity = .ok pairs :=
      exists_componentsOf hvalues
    have hidentity :
        identityValues e operation (.compound values) = .ok (Record.ofPairs pairs) := by
      rw [identityValues, hpairs]
      rfl
    exact ⟨_, hidentity, (identityValues_compound hidentity).2⟩
  | single v =>
    rw [identityValues]
    revert h
    cases e.identity with
    | nil => exact fun _ => ⟨_, rfl, fun key hkey => absurd hkey List.not_mem_nil⟩
    | cons key keys =>
      cases keys with
      | cons second keys =>
        intro h
        cases h
      | nil =>
        intro h
        have hnull := List.find?_eq_none.1 h key List.mem_cons_self
        rw [RowId.component, Option.all_some] at hnull
        refine ⟨_, if_neg hnull, fun k hk => ?_⟩
        rw [Record.get?_insert, if_pos (List.mem_singleton.1 hk)]
        rfl

/-- The values of an identity are its components. -/
theorem get?_of_identityValues {id : RowId} {r : Record}
    (h : identityValues e operation id = .ok r) :
    ∀ key ∈ e.identity, r.get? key = id.component key := by
  cases hmissing : id.missing? e.identity with
  | some missing =>
    rw [identityValues_of_missing hmissing] at h
    cases h
  | none =>
    obtain ⟨r', hr', hcomponent⟩ : ∃ r', identityValues e operation id = .ok r' ∧ _ :=
      exists_identityValues hmissing
    cases h.symm.trans hr'
    exact hcomponent

end Store

/-! ## What is asked for -/

/-- Columns and values ask for the row of an identity: there is one for each identity field,
namely its column and the stored form of the value that the identity has for it. -/
structure RowId.IsAskedBy (id : RowId) (e : Entity) (names : EntityNames)
    (pins : List (String × Value)) : Prop where
  ne_nil : pins ≠ []
  fields : ∃ keys : List String, keys.Nodup ∧ (∀ key, key ∈ keys ↔ key ∈ e.identity) ∧
    List.Forall₂ (fun key pin => ∃ f v, e.field key = .ok f ∧ names.columnOf key = .ok pin.1 ∧
      id.component key = some v ∧ f.converter.toStored v = .ok pin.2 ∧ pin.2.isNull = false)
      keys pins

theorem forall₂_pins {e : Entity} {names : EntityNames} : ∀ {entries pins : List (String × Value)},
    e.pins names entries = .ok pins → List.Forall₂ (fun a pin => ∃ f,
      Condition.lookUp e names a.1 = .ok (f, pin.1) ∧ f.converter.toStored a.2 = .ok pin.2)
      entries pins
  | [], _, h => by
    cases h
    exact .nil
  | a :: entries, _, h => by
    simp only [Entity.pins, bind_eq_ok] at h
    obtain ⟨⟨f, column⟩, hlook, w, hw, rest, hrest, heq⟩ := h
    cases heq
    exact .cons ⟨f, hlook, hw⟩ (forall₂_pins hrest)

theorem RowId.isAskedBy_pins {id : RowId} {e : Entity} (he : e.IsSound) {names : EntityNames}
    {r : Record} (hr : r.IsIdentity e)
    (hcomponent : ∀ key ∈ e.identity, r.get? key = id.component key)
    {pins : List (String × Value)} (hpins : e.pins names r.entries = .ok pins) :
    id.IsAskedBy e names pins where
  ne_nil := by
    rw [Ne, ← List.length_eq_zero_iff, length_pins hpins, List.length_eq_zero_iff]
    exact hr.entries_ne_nil he
  fields := by
    refine ⟨r.entries.map Prod.fst, ?_, fun key => ?_, ?_⟩
    · exact List.pairwise_map.2 (r.ascending.imp fun hlt => Std.ne_of_lt hlt)
    · constructor
      · intro hkey
        obtain ⟨a, ha, rfl⟩ := List.mem_map.1 hkey
        exact (hr.only a.1 a.2 (Record.get?_of_mem ha)).1
      · intro hkey
        obtain ⟨v, hv⟩ := hr.complete key hkey
        exact List.mem_map.2 ⟨(key, v), Record.mem_of_get? hv, rfl⟩
    · rw [List.forall₂_map_left_iff]
      have hentry : ∀ a ∈ r.entries, id.component a.1 = some a.2 ∧ a.2.isNull = false := by
        intro a ha
        have hget := Record.get?_of_mem ha
        obtain ⟨hkey, hnull⟩ := hr.only a.1 a.2 hget
        exact ⟨(hcomponent a.1 hkey).symm.trans hget, hnull⟩
      refine ((List.forall₂_and_left _ _).2 ⟨hentry, forall₂_pins hpins⟩).imp ?_
      rintro a pin ⟨⟨hcomponent, hnull⟩, f, hlook, hw⟩
      obtain ⟨hf, hcolumn⟩ := Condition.lookUp_eq_ok.1 hlook
      exact ⟨f, a.2, hf, hcolumn, hcomponent, hw, by rw [Converter.isNull_of_toStored hw, hnull]⟩

/-! ## Names -/

theorem Entity.storedAs_same (e : Entity) (hasJsonColumns : Bool) :
    (e.storedAs hasJsonColumns).key = e.key ∧
      (e.storedAs hasJsonColumns).identity = e.identity := by
  cases hasJsonColumns with
  | true => exact ⟨rfl, rfl⟩
  | false =>
    rw [storedAs_false]
    exact ⟨rfl, rfl⟩

/-- Among the names of an entity is the text for each field that the database knows. -/
theorem EntityNames.columnOf_selected {e : Entity} (he : e.IsSound) (q : Quoting) {f : Field}
    (hf : f ∈ e.selected) : (resolve e q).columnOf f.key = .ok (fieldText q f) :=
  he.columnOf_resolveBy q.wrap hf

/-- The column of an identity field, among the names of its entity, is the quoted one. -/
theorem EntityNames.columnOf_resolve {e : Entity} (he : e.IsSound) (q : Quoting) {key : String}
    (hkey : key ∈ e.identity) :
    ∃ f, e.field key = .ok f ∧ (resolve e q).columnOf key = .ok (q.wrap f.column) := by
  obtain ⟨f, hf, hcolumn⟩ := he.identity_found key hkey
  obtain ⟨hmem, rfl⟩ := Entity.mem_of_field hf
  rw [Field.hasColumn, Bool.and_eq_true, Option.isNone_iff_eq_none] at hcolumn
  have hselected : f ∈ e.selected := List.mem_filter.2 ⟨hmem, hcolumn.1⟩
  refine ⟨f, hf, ?_⟩
  rw [columnOf_selected he q hselected, fieldText, fieldTextBy, hcolumn.2]

/-- All names that are known under the key of an entity are its own. -/
def Database.KnowsOwn (db : Database) (e : Entity) (s : Session) : Prop :=
  ∀ n ∈ s.namesIn db.scope, n.1 = e.key → n.2 = EntityNames.resolve e db.dialect.quoting

/-- If what is known of an entity is its own, so is what is found. -/
theorem Database.KnowsOwn.eq_resolve {db : Database} {e : Entity} {s t : Session}
    {names : EntityNames} (h : db.KnowsOwn e s) (hnames : db.names e s = (.ok names, t)) :
    names = EntityNames.resolve e db.dialect.quoting := by
  rw [Database.names] at hnames
  split at hnames
  · next n hn =>
    cases hnames
    exact h n (List.mem_of_find?_eq_some hn) (by simpa using List.find?_some hn)
  · simp only [Action.bind_eq_ok] at hnames
    obtain ⟨_, _, _, _, _, _, hresolve⟩ := hnames
    cases hresolve
    rfl

/-! ## Texts -/

/-- The texts of templates that come one after the other. -/
def Template.renderEach (write : Nat → Value → String) : (position : Nat) → List Template →
    List String
  | _, [] => []
  | position, t :: ts =>
    t.render write position :: renderEach write (position + t.values.length) ts

/-- The text of templates with a separating text between. -/
theorem Template.render_separated (write : Nat → Value → String) (separator : String) :
    ∀ (ts : List Template) (position : Nat), (separated separator ts).render write position =
      String.intercalate separator (renderEach write position ts)
  | [], _ => rfl
  | [t], position => by simp [separated, renderEach]
  | t :: u :: ts, position => by
    have hrest := render_separated write separator (u :: ts) (position + t.values.length)
    rw [renderEach] at hrest
    simp [separated, renderEach, render_append, render, hrest, String.append_assoc]

/-- Columns set equal to the tokens of positions, from a position on. -/
def equations (style : TokenStyle) (position : Nat) (columns : List String) : List String :=
  (columns.zipIdx position).map fun c => c.1 ++ " = " ++ style.token c.2

/-- A list of equations as a template. -/
def equationsTemplate (separator : String) (pairs : List (String × Value)) : Template :=
  Template.separated separator (pairs.map fun p => [.text (p.1 ++ " = "), .param p.2])

theorem render_equations (separator : String) (style : TokenStyle)
    (pairs : List (String × Value)) (position : Nat) :
    (equationsTemplate separator pairs).render (fun k _ => style.token k) position =
      String.intercalate separator (equations style position (pairs.map Prod.fst)) := by
  have htexts : Template.renderEach (fun k _ => style.token k) position
      (pairs.map fun p => [.text (p.1 ++ " = "), .param p.2]) =
        equations style position (pairs.map Prod.fst) := by
    induction pairs generalizing position with
    | nil => rfl
    | cons p pairs ih =>
      rw [List.map_cons, Template.renderEach, ih]
      simp [equations, Template.render, Template.values]
  rw [equationsTemplate, Template.render_separated, htexts]

theorem values_equations (separator : String) (pairs : List (String × Value)) :
    (equationsTemplate separator pairs).values = pairs.map Prod.snd := by
  rw [equationsTemplate, Template.values_separated, List.flatMap_map]
  induction pairs with
  | nil => rfl
  | cons p pairs ih =>
    rw [List.flatMap_cons, ih]
    rfl

/-- The tests of an identity are equations. -/
theorem pinTemplate_eq (pins : List (String × Value)) :
    pinTemplate pins = equationsTemplate " and " pins := by
  have htest : ∀ p : String × Value,
      (pinTest p).template = [.text (p.1 ++ " = "), .param p.2] := by
    intro p
    have htext : p.1 ++ " " ++ CompareOp.eq.sql ++ " " = p.1 ++ " = " := by
      rw [String.append_assoc, String.append_assoc]
      rfl
    rw [pinTest, Predicate.template, Test.template, htext]
  rw [pinTemplate, equationsTemplate]
  exact congrArg _ (List.map_congr_left fun p _ => htest p)

/-! ## Statements -/

namespace Store

/-- A statement deletes the row of an identity: its `where` clause has an equation for each
identity field and nothing else, and nothing comes after it. -/
structure IsDeletion (st : Store) (names : EntityNames) (id : RowId) (x : Statement) : Prop where
  asks : ∃ pins, id.IsAskedBy st.entity names pins ∧
    x.sql = "delete from " ++ names.table ++ " where " ++ String.intercalate " and "
      (equations st.database.dialect.style 1 (pins.map Prod.fst)) ∧
    x.params = pins.map Prod.snd

/-- A statement updates the row of an identity with what is written of a record: its `where`
clause has an equation for each identity field and nothing else, and only the list of columns
that are returned may come after it. -/
structure IsUpdate (st : Store) (names : EntityNames) (id : RowId) (data : Record)
    (x : Statement) : Prop where
  asks : ∃ written columns pins returning,
    writtenValues st.entity data false = .ok written ∧
    columnTexts names (written.map Prod.fst) = .ok columns ∧ id.IsAskedBy st.entity names pins ∧
    (returning = "" ∨ ∃ list, selectList st.entity names = .ok list ∧
      returning = " returning " ++ list) ∧
    x.sql = "update " ++ names.table ++ " set " ++ String.intercalate ", "
      (equations st.database.dialect.style 1 columns) ++ " where " ++ String.intercalate " and "
      (equations st.database.dialect.style (columns.length + 1) (pins.map Prod.fst)) ++ returning ∧
    x.params = written.map Prod.snd ++ pins.map Prod.snd

variable {st : Store} {names : EntityNames} {id : RowId} {r : Record} {t : Template}

/-- The statement of a deletion. -/
theorem isDeletion_of_deleteStatement (he : st.entity.IsSound) (hr : r.IsIdentity st.entity)
    (hcomponent : ∀ key ∈ st.entity.identity, r.get? key = id.component key)
    (h : deleteStatement st.entity names r = .ok t) :
    st.IsDeletion names id (t.statement st.database.dialect.style) := by
  obtain ⟨clause, hclause, rfl⟩ := deleteStatement_eq_ok.1 h
  obtain ⟨pins, hpins, rfl⟩ := exists_pins_of_whereClause he hr hclause
  refine ⟨pins, RowId.isAskedBy_pins he hr hcomponent hpins, ?_, ?_⟩
  · rw [pinTemplate_eq]
    simp [Template.statement, Template.sql, Template.render, render_equations, String.append_assoc]
  · rw [pinTemplate_eq]
    exact values_equations " and " pins

/-- The text of the clause that asks for the rows that were written. -/
theorem render_returningClause {e : Entity} {d : Dialect} (write : Nat → Value → String)
    (position : Nat) (h : returningClause e names d = .ok t) :
    t.render write position = "" ∨ ∃ list, selectList e names = .ok list ∧
      t.render write position = " returning " ++ list := by
  rw [returningClause_eq_ok] at h
  split at h
  · obtain ⟨list, hlist, rfl⟩ := h
    exact .inr ⟨list, hlist, by simp [Template.render]⟩
  · exact .inl (by rw [h, Template.render])

theorem isUpdate_of_updateStatement (he : st.entity.IsSound) (hr : r.IsIdentity st.entity)
    (hcomponent : ∀ key ∈ st.entity.identity, r.get? key = id.component key) {data : Record}
    {written : List (Field × Value)} (hwritten : writtenValues st.entity data false = .ok written)
    (h : updateStatement st.entity names st.database.dialect r written = .ok t) :
    st.IsUpdate names id data (t.statement st.database.dialect.style) := by
  obtain ⟨columns, hcolumns, clause, hclause, returning, hreturning, rfl⟩ :=
    updateStatement_eq_ok.1 h
  obtain ⟨pins, hpins, rfl⟩ := exists_pins_of_whereClause he hr hclause
  have hlength : columns.length = (written.map Prod.snd).length := by
    rw [length_columnTexts hcolumns, List.length_map, List.length_map]
  have hset : assignments columns (written.map Prod.snd) =
      equationsTemplate ", " (columns.zip (written.map Prod.snd)) := rfl
  have hfst : (columns.zip (written.map Prod.snd)).map Prod.fst = columns :=
    List.map_fst_zip (Nat.le_of_eq hlength)
  have hsnd : (columns.zip (written.map Prod.snd)).map Prod.snd = written.map Prod.snd :=
    List.map_snd_zip (Nat.le_of_eq hlength.symm)
  have hvalues := values_assignments hlength
  refine ⟨written, columns, pins, _, hwritten, hcolumns,
    RowId.isAskedBy_pins he hr hcomponent hpins,
    render_returningClause (fun k _ => st.database.dialect.style.token k)
      (columns.length + 1 + pins.length) hreturning, ?_, ?_⟩
  · simp [Template.statement, Template.sql, Template.render, Template.render_append, hset,
      render_equations, values_equations, pinTemplate_eq, hfst, hsnd, hlength, Template.values,
      String.append_assoc, Nat.add_comm 1]
  · simp [Template.statement, Template.values, hvalues, pinTemplate_eq, values_equations,
      values_returningClause hreturning]

/-! ## What updates and deletions send -/

/-- A statement that reads rows of an entity starts with `select`. -/
theorem leadingKeyword_selectStatement {e : Entity} {f : Filter}
    (h : selectStatement e names f = .ok t) (style : TokenStyle) :
    leadingKeyword (t.statement style).sql = "SELECT" := by
  obtain ⟨clause, -, list, -, rfl⟩ := selectStatement_eq_ok.1 h
  rw [Template.statement, Template.sql, Template.render]
  exact leadingKeyword_of_word "select".toList (List.cons_ne_nil _ _) rfl
    (by simp [String.append_assoc]; rfl)

end Store

namespace Action

variable {α β : Type} {db : Database} {s u : Session} {due : Prop}

/-- An action sends queries and changes of a kind. If a change is due, it succeeds only with one. -/
def Changes (m : Action α) (s : Session) (due : Prop) (IsChange : Statement → Prop) : Prop :=
  ∃ sent, (m s).2.statements = s.statements ++ sent ∧
    (∀ x ∈ sent, leadingKeyword x.sql = "SELECT" ∨ IsChange x) ∧
      (due → (∃ a, (m s).1 = .ok a) → ∃ x ∈ sent, IsChange x)

/-- Changes of a kind are of any kind that includes it. -/
theorem Changes.imp {m : Action α} {IsChange IsChange' : Statement → Prop}
    (h : m.Changes s due IsChange) (himp : ∀ x, IsChange x → IsChange' x) :
    m.Changes s due IsChange' := by
  obtain ⟨sent, hstatements, hkinds, hdue⟩ := h
  refine ⟨sent, hstatements, fun x hx => (hkinds x hx).imp_right (himp x), fun hd hok => ?_⟩
  obtain ⟨x, hx, hchange⟩ := hdue hd hok
  exact ⟨x, hx, himp x hchange⟩

theorem Changes.after {m : Action β} {f : β → Action α} {IsChange : Statement → Prop}
    (hm : (m s).2.statements = s.statements)
    (hf : ∀ b t, m s = (.ok b, t) → (f b).Changes t due IsChange) :
    (m >>= f).Changes s due IsChange := by
  cases hresult : m s with
  | mk result t =>
    rw [hresult] at hm
    cases result with
    | error failure =>
      rw [Changes, bind_of_error hresult]
      refine ⟨[], by rw [hm, List.append_nil], fun x hx => (nomatch hx), ?_⟩
      rintro - ⟨a, ha⟩
      cases ha
    | ok b =>
      obtain ⟨sent, hstatements, hkinds, hdue⟩ := hf b t hresult
      rw [Changes, bind_of_ok hresult]
      exact ⟨sent, by rw [hstatements, hm], hkinds, hdue⟩

/-- A template that is built and sent is the first statement of an action that succeeds. -/
theorem exists_sent {x : Except Failure Template} {f : RowSet → Action α}
    (hf : ∀ result, Through db (fun _ => True) true (f result)) {a : α}
    (h : ((liftM x : Action Template) >>= fun t => db.send t >>= f) s = (.ok a, u)) :
    ∃ t more, x = .ok t ∧
      u.statements = s.statements ++ t.statement db.dialect.style :: more := by
  cases x with
  | error failure =>
    rw [bind_of_error (lift_of_error rfl)] at h
    cases h
  | ok t =>
    rw [bind_of_ok (lift_of_ok rfl), bind_eq_ok] at h
    obtain ⟨result, w, hsend, hrest⟩ := h
    obtain ⟨more, hmore⟩ := (hf result).exchanges w
    refine ⟨t, more, rfl, ?_⟩
    rw [hrest] at hmore
    rw [hmore.statements, (Database.send_ok hsend).2.1, List.append_assoc]
    rfl

end Action

namespace Store

variable {st : Store} {names : EntityNames} {id : RowId} {r : Record} {s : Session}

/-- A deletion sends the statement that deletes the row of its identity. -/
theorem deleteWith_changes (he : st.entity.IsSound) (hr : r.IsIdentity st.entity)
    (hcomponent : ∀ key ∈ st.entity.identity, r.get? key = id.component key) :
    (st.deleteWith r names).Changes s True (st.IsDeletion names id) := by
  have hdeletion : ∀ t, deleteStatement st.entity names r = .ok t →
      st.IsDeletion names id (t.statement st.database.dialect.style) :=
    fun _ => isDeletion_of_deleteStatement he hr hcomponent
  have hthrough : Action.Through st.database (st.IsDeletion names id) true
      (st.deleteWith r names) := deleteWith_through hdeletion
  obtain ⟨sent, hsent⟩ := hthrough.exchanges s
  refine ⟨sent, hsent.statements, fun x hx => .inr (hsent.property x hx), ?_⟩
  rintro - ⟨a, ha⟩
  obtain ⟨t, more, ht, hstatements⟩ := Action.exists_sent (fun _ => .signal)
    (show st.deleteWith r names s = (.ok a, _) from Prod.ext ha rfl)
  rw [hsent.statements, List.append_cancel_left_eq] at hstatements
  exact ⟨_, hstatements ▸ List.mem_cons_self, hdeletion t ht⟩

/-- An update sends the statement that updates the row of its identity, if anything is written,
and only reads rows otherwise. -/
theorem updateWith_changes (he : st.entity.IsSound) (hr : r.IsIdentity st.entity)
    (hcomponent : ∀ key ∈ st.entity.identity, r.get? key = id.component key) {data : Record} :
    (st.updateWith r data names).Changes s (writtenValues st.entity data false ≠ .ok [])
      (st.IsUpdate names id data) := by
  have hupdate : ∀ written t, writtenValues st.entity data false = .ok written →
      updateStatement st.entity names st.database.dialect r written = .ok t →
        st.IsUpdate names id data (t.statement st.database.dialect.style) :=
    fun _ _ => isUpdate_of_updateStatement he hr hcomponent
  have hread : ∀ names f t, selectStatement st.entity names f = .ok t →
      leadingKeyword (t.statement st.database.dialect.style).sql = "SELECT" :=
    fun _ _ _ h => leadingKeyword_selectStatement h _
  have hthrough : Action.Through st.database
      (fun x => leadingKeyword x.sql = "SELECT" ∨ st.IsUpdate names id data x) true
      (st.updateWith r data names) :=
    updateWith_through (fun written t hwritten ht => .inr (hupdate written t hwritten ht))
      fun names f t ht => .inl (hread names f t ht)
  obtain ⟨sent, hsent⟩ := hthrough.exchanges s
  refine ⟨sent, hsent.statements, hsent.property, ?_⟩
  rintro hdue ⟨a, ha⟩
  obtain ⟨t, hok⟩ : ∃ t, st.updateWith r data names s = (.ok a, t) := ⟨_, Prod.ext ha rfl⟩
  have hall := hsent.statements
  rw [hok] at hall
  rw [updateWith] at hok
  cases hwritten : writtenValues st.entity data false with
  | error failure =>
    rw [Action.bind_of_error (Action.lift_of_error hwritten)] at hok
    cases hok
  | ok written =>
    have hne : ¬ written.isEmpty = true := fun hempty =>
      hdue (by rw [hwritten, List.isEmpty_iff.1 hempty])
    rw [Action.bind_of_ok (Action.lift_of_ok hwritten), if_neg hne] at hok
    obtain ⟨statement, more, hstatement, hfirst⟩ :=
      Action.exists_sent (fun _ => afterUpdate_through fun _ _ _ _ => trivial) hok
    rw [hall, List.append_cancel_left_eq] at hfirst
    exact ⟨_, hfirst ▸ List.mem_cons_self, hupdate written statement hwritten hstatement⟩

/-- What is done with the values of an identity that lacks none, and with the names of the entity,
is done after nothing was sent. -/
theorem changes_of_identity {α : Type} {operation : String} {due : Prop}
    (hmissing : id.missing? st.entity.identity = none) {f : Record → EntityNames → Action α}
    {IsChange : EntityNames → Statement → Prop}
    (hf : ∀ r names t, r.IsIdentity st.entity →
      (∀ key ∈ st.entity.identity, r.get? key = id.component key) →
        (f r names).Changes t due (IsChange names)) :
    (do
      let r ← identityValues st.entity operation id
      let names ← st.database.names st.entity
      f r names : Action α).Changes s due
        fun x => ∃ names t, st.database.names st.entity s = (.ok names, t) ∧ IsChange names x := by
  obtain ⟨before, hbefore, hcomponent⟩ : ∃ r, identityValues st.entity operation id = .ok r ∧ _ :=
    exists_identityValues hmissing
  refine .after rfl fun r t hlift => ?_
  rw [Action.lift_of_ok hbefore] at hlift
  cases hlift
  have hnothing : (st.database.names st.entity s).2.statements = s.statements := by
    have hexchanged : Session.Exchanged (fun _ => True) s (st.database.names st.entity s).2 [] :=
      Database.names_exchanged st.entity s
    rw [hexchanged.statements, List.append_nil]
  refine .after hnothing fun names t hnames => ?_
  exact (hf before names t (identityValues_complete hbefore) hcomponent).imp
    fun x hx => ⟨names, t, hnames, hx⟩

/-- An update or deletion with an identity that lacks a field is refused and leaves the session as
it is. With any other identity they send queries and statements that ask each identity field for
the value that the identity has for it, and nothing else; if they succeed, a deletion has sent such
a statement, and so has an update unless nothing of its record is written. Identity fields are
asked for by their own columns. -/
theorem changes_asked_row (e : BuiltEntity)
    (db : Database) (id : RowId) (data : Record) (s : Session) :
    (∀ missing, id.missing? e.identity = some missing →
      (db.store e).update id data s = (.error (.missingIdentity e.key "update" missing), s) ∧
      (db.store e).delete id s = (.error (.missingIdentity e.key "delete" missing), s)) ∧
    (id.missing? e.identity = none →
      ((db.store e).update id data).Changes s
        (writtenValues (db.store e).entity data false ≠ .ok [])
        (fun x => ∃ names t, db.names (db.store e).entity s = (.ok names, t) ∧
          (db.store e).IsUpdate names id data x) ∧
      ((db.store e).delete id).Changes s True
        (fun x => ∃ names t, db.names (db.store e).entity s = (.ok names, t) ∧
          (db.store e).IsDeletion names id x)) ∧
    (db.KnowsOwn (db.store e).entity s → ∀ names t,
      db.names (db.store e).entity s = (.ok names, t) → ∀ key ∈ e.identity, ∃ f,
        (db.store e).entity.field key = .ok f ∧
          names.columnOf key = .ok (db.dialect.quoting.wrap f.column)) := by
  have he : (db.store e).entity.IsSound := e.isSound.storedAs _
  obtain ⟨hsame, hidentity⟩ : (db.store e).entity.key = e.key ∧
      (db.store e).entity.identity = e.identity := e.storedAs_same _
  refine ⟨fun missing hmissing => ?_, fun hmissing => ?_, fun hown names t hnames key hkey => ?_⟩
  · rw [← hidentity] at hmissing
    rw [update_eq, delete_eq, ← hsame]
    exact ⟨Action.bind_of_error (Action.lift_of_error (identityValues_of_missing hmissing)),
      Action.bind_of_error (Action.lift_of_error (identityValues_of_missing hmissing))⟩
  · rw [← hidentity] at hmissing
    rw [update_eq, delete_eq]
    exact ⟨changes_of_identity hmissing fun _ _ _ hr hcomponent =>
        updateWith_changes he hr hcomponent,
      changes_of_identity hmissing fun _ _ _ hr hcomponent =>
        deleteWith_changes he hr hcomponent⟩
  · rw [hown.eq_resolve hnames]
    exact EntityNames.columnOf_resolve he _ (hidentity ▸ hkey)

/-- The lines of orders, which two numbers identify. -/
def line : Entity :=
  { key := "line", table := "lines"
    fields := [.ofType "orderId" .integer, .ofType "lineNo" .integer, .ofType "sku" .text]
    identity := ["orderId", "lineNo"] }

def builtLine : BuiltEntity := ⟨line, "line", some "lines", line.fields, line.identity, rfl⟩

/-- A database with lines. -/
def lineDatabase : Database := .root Dialect.plain ⟨.off, .zero⟩

/-- The identity of a line, with its article besides. -/
def lineId : RowId :=
  .compound (.ofPairs [("sku", .text "B-7"), ("orderId", .integer 1), ("lineNo", .integer 2)])

/-- An order alone does not identify a line, and nothing is deleted. An order and a number do,
whatever comes with them, and the line is deleted by them alone. -/
theorem changes_asked_row_lines :
    (lineDatabase.store line).delete (.single (.integer 1)) Session.fresh =
      (.error (.missingIdentity "line" "delete" "lineNo"), Session.fresh) ∧
    ((lineDatabase.store line).delete lineId).Changes Session.fresh True
      ((lineDatabase.store line).IsDeletion (.resolve line .bare) lineId) ∧
    ((lineDatabase.store line).delete lineId Session.fresh).2.statements =
      [⟨"delete from lines where lineNo = ? and orderId = ?", [.integer 2, .integer 1]⟩] := by
  have hpartial :=
    (changes_asked_row builtLine lineDatabase (.single (.integer 1)) .empty Session.fresh).1
  have hwhole := (changes_asked_row builtLine lineDatabase lineId .empty Session.fresh).2.1
  refine ⟨(hpartial "lineNo" rfl).2, (hwhole rfl).2.imp ?_, rfl⟩
  rintro x ⟨names, t, hnames, hx⟩
  cases hnames
  exact hx

end Store

end EntitySql
