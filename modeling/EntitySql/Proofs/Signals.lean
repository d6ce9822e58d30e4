import EntitySql.Proofs.Replies
import EntitySql.Proofs.Templates

/-!
# Signals of changes

An operation that changes rows signals the change as soon as it knows that the
change was made. Between the answer to a statement and the signal, the answer
may turn out to be unreadable, and then the operation fails and the signal is
missed. Nothing else gets lost, and nothing is signalled that was not answered.

The invariant is an account: what was signalled, missed or is still owed is
what was answered.

- `Statement.isChange`, `changes`: the statements that change rows.
- `Signals`: the account of an action; `Signals.bind` and the rules for one
  step each.
- `Store.insert_signals` and the like, one for each operation.
- `Operation.signals_changes`: what operations and runs of them signal.
-/

namespace EntitySql

/-- A statement changes rows, by its first word. -/
def Statement.isChange (x : Statement) : Bool :=
  ["INSERT", "UPDATE", "DELETE"].contains (leadingKeyword x.sql)

/-- The number of statements that change rows. -/
def changes (xs : List Statement) : Nat := xs.countP Statement.isChange

theorem changes_append (xs ys : List Statement) : changes (xs ++ ys) = changes xs + changes ys :=
  List.countP_append

/-! ## The account of an action -/

/-- What an action sends and signals. Of the changes that were answered before it, `owed` were not
signalled, and `left` are not when it succeeds. Then every statement was answered, and `sent` of
them are changes. If it fails, the signal of one change may be missed, because of what is wrong
with its answer. Only changes that are `loose` are missed. -/
def Signals (P : Statement → Prop) (loose : Statement → Bool) (sent owed left : Nat) {α : Type}
    (s : Session) (outcome : Except Failure α × Session) : Prop :=
  ∃ xs missed, s.Exchanged P outcome.2 xs ∧
    outcome.2.mutations + missed = s.mutations + owed + changes (s.answered 0 xs) ∧
    missed ≤ owed + (s.answered 0 xs).countP loose ∧
    match outcome.1 with
    | .ok _ => missed = left ∧ s.answered 0 xs = xs ∧ changes xs = sent
    | .error failure => changes xs ≤ sent ∧ (missed = 0 ∨ missed = 1 ∧ failure.IsOfAnswer)

namespace Signals

variable {P : Statement → Prop} {loose : Statement → Bool} {db : Database} {α β : Type}
  {s : Session} {sent sent' owed mid left : Nat}

theorem bind {m : Action α} {f : α → Action β} (hm : Signals P loose sent owed mid s (m s))
    (hf : ∀ a t, m s = (.ok a, t) → Signals P loose sent' mid left t (f a t)) :
    Signals P loose (sent + sent') owed left s ((m >>= f) s) := by
  obtain ⟨xs, missed, hxs, haccount, hloose, hm⟩ := hm
  cases hresult : m s with
  | mk result t =>
    rw [hresult] at hxs haccount hm
    cases result with
    | error failure =>
      rw [Action.bind_of_error hresult]
      obtain ⟨hsent, hmissed⟩ := hm
      exact ⟨xs, missed, hxs, haccount, hloose, Nat.le_add_right_of_le hsent, hmissed⟩
    | ok a =>
      obtain ⟨rfl, hanswered, rfl⟩ := hm
      obtain ⟨ys, missed', hys, haccount', hloose', hf⟩ := hf a t hresult
      rw [Action.bind_of_ok hresult]
      -- the replies to the second group are those that come after the first one
      have hboth : s.answered 0 (xs ++ ys) = xs ++ t.answered 0 ys := by
        rw [Session.answered_append, hanswered, hxs.answered_eq, Nat.zero_add, Nat.add_zero]
      dsimp only at haccount
      rw [hanswered] at haccount hloose
      refine ⟨xs ++ ys, missed', hxs.trans hys, ?_, ?_, ?_⟩
      · rw [hboth, changes_append]
        omega
      · rw [hboth, List.countP_append]
        omega
      · cases hfinal : (f a t).1 with
        | ok b =>
          rw [hfinal] at hf
          obtain ⟨hleft, hall, rfl⟩ := hf
          exact ⟨hleft, by rw [hboth, hall], changes_append xs ys⟩
        | error failure =>
          rw [hfinal] at hf
          obtain ⟨hsent, hmissed⟩ := hf
          exact ⟨by rw [changes_append]; omega, hmissed⟩

/-- An action without changes, and another one after it. -/
theorem quiet {m : Action α} {f : α → Action β} (hm : Signals P loose 0 owed mid s (m s))
    (hf : ∀ a t, m s = (.ok a, t) → Signals P loose sent mid left t (f a t)) :
    Signals P loose sent owed left s ((m >>= f) s) := by
  rw [← Nat.zero_add sent]
  exact hm.bind hf

/-- An action, and another one without changes after it. -/
theorem last {m : Action α} {f : α → Action β} (hm : Signals P loose sent owed mid s (m s))
    (hf : ∀ a t, m s = (.ok a, t) → Signals P loose 0 mid left t (f a t)) :
    Signals P loose sent owed left s ((m >>= f) s) :=
  hm.bind hf

/-- What is found out without the session while no signal is owed. -/
theorem found (x : Except Failure α) :
    Signals P loose 0 0 0 s ((liftM x : Action α) s) := by
  refine ⟨[], 0, .refl s, rfl, Nat.le_refl 0, ?_⟩
  cases x with
  | ok a => exact ⟨rfl, rfl, rfl⟩
  | error failure => exact ⟨Nat.le_refl 0, .inl rfl⟩

/-- What is read in an answer before the change is signalled. -/
theorem read {x : Except Failure α} (h : FailsAs Failure.IsOfAnswer x) :
    Signals P loose 0 1 1 s ((liftM x : Action α) s) := by
  refine ⟨[], 1, .refl s, rfl, Nat.le_refl 1, ?_⟩
  cases hx : x with
  | ok a => exact ⟨rfl, rfl, rfl⟩
  | error failure => exact ⟨Nat.le_refl 0, .inr ⟨rfl, h failure hx⟩⟩

theorem of_pure (a : α) : Signals P loose 0 0 0 s ((pure a : Action α) s) := found (.ok a)

theorem names (e : Entity) : Signals P loose 0 0 0 s (db.names e s) := by
  refine ⟨[], 0, Database.names_exchanged e s, Action.FailsBefore.mutations_names,
    Nat.le_refl 0, ?_⟩
  cases (db.names e s).1 with
  | ok names => exact ⟨rfl, rfl, rfl⟩
  | error failure => exact ⟨Nat.le_refl 0, .inl rfl⟩

/-- Nothing is owed for a statement that is not answered. -/
theorem of_refused {failure : Failure} {t : Session} {xs : List Statement}
    (hsent : s.Exchanged P t xs) (hsignals : t.mutations = s.mutations)
    (hnone : s.answered 0 xs = []) (hchanges : changes xs ≤ sent) :
    Signals P loose sent 0 left s ((.error failure, t) : Except Failure α × Session) := by
  refine ⟨xs, 0, hsent, ?_, Nat.zero_le _, hchanges, .inl rfl⟩
  rw [hnone]
  exact hsignals

end Signals

namespace Session

variable {P : Statement → Prop} {s t : Session} {x : Statement}

/-- A statement that was sent has a property. -/
theorem Exchanged.of_mem {xs : List Statement} (h : s.Exchanged (fun _ => True) t xs)
    (hproperty : ∀ x ∈ xs, P x) : s.Exchanged P t xs :=
  ⟨h.statements, hproperty, h.scripted, h.scopes⟩

theorem answered_of_reply {result : RowSet} (h : s.reply? 0 x = some result) :
    s.answered 0 [x] = [x] := by
  rw [answered, h]
  rfl

theorem answered_of_refusal (h : s.reply? 0 x = none) : s.answered 0 [x] = [] := by
  rw [answered, h]
  rfl

end Session

theorem changes_of_isChange {x : Statement} (h : x.isChange = true) : changes [x] = 1 := by
  rw [changes, List.countP_singleton, if_pos h]

theorem changes_of_query {x : Statement} (h : x.isChange = false) : changes [x] = 0 := by
  rw [changes, List.countP_singleton, if_neg (by simp [h])]

namespace Signals

variable {P : Statement → Prop} {loose : Statement → Bool} {db : Database} {α β : Type}
  {s : Session} {t : Template}

/-- A statement is not answered and the failure comes of that, or it is answered. -/
theorem send_cases (hx : P (t.statement db.dialect.style)) :
    (∃ failure u xs, db.send t s = (.error failure, u) ∧ s.Exchanged P u xs ∧
      u.mutations = s.mutations ∧ s.answered 0 xs = [] ∧
      xs.Sublist [t.statement db.dialect.style]) ∨
    ∃ result u, db.send t s = (.ok result, u) ∧
      s.Exchanged P u [t.statement db.dialect.style] ∧ u.mutations = s.mutations ∧
      s.answered 0 [t.statement db.dialect.style] = [t.statement db.dialect.style] := by
  have hmem : ∀ x ∈ [t.statement db.dialect.style], P x := fun x h => List.mem_singleton.1 h ▸ hx
  have hsends := db.sends t s
  cases hresult : db.send t s with
  | mk result u =>
    rw [hresult] at hsends
    cases hsends with
    | closed _ => exact .inl ⟨_, _, [], rfl, .refl s, rfl, rfl, List.nil_sublist _⟩
    | refused hreply hexchanged hsignals _ =>
      exact .inl ⟨_, _, _, rfl, hexchanged.of_mem hmem, hsignals,
        Session.answered_of_refusal hreply, .refl _⟩
    | answered hreply hexchanged hsignals =>
      exact .inr ⟨_, _, rfl, hexchanged.of_mem hmem, hsignals, Session.answered_of_reply hreply⟩

/-- A statement is sent. Unless it is a query, its change is owed when it is answered. -/
theorem send {left : Nat} (hx : P (t.statement db.dialect.style))
    (hleft : changes [t.statement db.dialect.style] = left)
    (hloose : left ≤ [t.statement db.dialect.style].countP loose) :
    Signals P loose left 0 left s (db.send t s) := by
  rcases send_cases hx with ⟨failure, u, xs, hu, hexchanged, hsignals, hnone, hsub⟩ |
    ⟨result, u, hu, hexchanged, hsignals, hanswered⟩
  · rw [hu]
    exact .of_refused hexchanged hsignals hnone (hleft ▸ hsub.countP_le)
  · rw [hu]
    refine ⟨_, left, hexchanged, ?_, ?_, rfl, hanswered, hleft⟩
    · rw [hanswered, hleft]
      exact congrArg (· + left) hsignals
    · rw [hanswered, Nat.zero_add]
      exact hloose

theorem sendChange
    (hx : P (t.statement db.dialect.style) ∧ loose (t.statement db.dialect.style) = true)
    (hchange : (t.statement db.dialect.style).isChange = true) :
    Signals P loose 1 0 1 s (db.send t s) :=
  send hx.1 (changes_of_isChange hchange) (by simp [hx.2])

theorem sendQuery (hx : P (t.statement db.dialect.style))
    (hquery : (t.statement db.dialect.style).isChange = false) :
    Signals P loose 0 0 0 s (db.send t s) :=
  send hx (changes_of_query hquery) (Nat.zero_le _)

/-- A change that is signalled is counted, without a statement. -/
theorem exists_signalChange (hcounts : db.dialect.countsMutations = true) (s : Session) :
    ∃ u, db.signalChange s = (.ok (), u) ∧ s.Exchanged P u [] ∧
      u.mutations = s.mutations + 1 := by
  obtain ⟨u, hu, hexchanged, -⟩ := db.signalChange_exchanged P s
  have hgrows : u.mutations = s.mutations + 1 := by
    rw [Database.signalChange, hcounts] at hu
    exact (congrArg (fun outcome => outcome.2.mutations) hu).symm
  exact ⟨u, hu, hexchanged, hgrows⟩

/-- A signal pays for what is owed. -/
theorem signal (hcounts : db.dialect.countsMutations = true) :
    Signals P loose 0 1 0 s (db.signalChange s) := by
  obtain ⟨u, hu, hexchanged, hgrows⟩ := exists_signalChange hcounts s
  rw [hu]
  exact ⟨[], 0, hexchanged, hgrows, Nat.zero_le _, rfl, rfl, rfl⟩

/-- A change that is signalled right after its answer is not missed, whether loose or not. -/
theorem sendSignal (hcounts : db.dialect.countsMutations = true)
    (hx : P (t.statement db.dialect.style))
    (hchange : (t.statement db.dialect.style).isChange = true) (f : RowSet → α) :
    Signals P loose 1 0 0 s ((do
      let result ← db.send t
      db.signalChange
      return f result : Action α) s) := by
  have hone := changes_of_isChange hchange
  rcases send_cases hx with ⟨failure, u, xs, hu, hexchanged, hsignals, hnone, hsub⟩ |
    ⟨result, u, hu, hexchanged, hsignals, hanswered⟩
  · rw [Action.bind_of_error hu]
    exact .of_refused hexchanged hsignals hnone (hone ▸ hsub.countP_le)
  · obtain ⟨v, hv, hquiet, hgrows⟩ := exists_signalChange hcounts u
    rw [Action.bind_of_ok hu, Action.bind_of_ok hv]
    refine ⟨_, 0, hexchanged.trans hquiet, ?_, Nat.zero_le _, rfl, hanswered, hone⟩
    show v.mutations = _
    rw [List.append_nil, hanswered, hone, hgrows, hsignals, Nat.add_zero]

/-- The account of an action that owes nothing, as it is read off in the end. -/
theorem settled {s : Session} {n : Nat} {outcome : Except Failure α × Session}
    (h : Signals P loose n 0 0 s outcome) (hloose : ∀ x, loose x = true → x.isChange = true) :
    ∃ xs missed, s.Exchanged P outcome.2 xs ∧
      outcome.2.mutations + missed = s.mutations + changes (s.answered 0 xs) ∧
      missed ≤ (s.answered 0 xs).countP loose ∧ missed ≤ changes (s.answered 0 xs) ∧ missed ≤ 1 ∧
      changes (s.answered 0 xs) ≤ n ∧ changes xs ≤ n ∧
      ∀ a, outcome.1 = .ok a → missed = 0 ∧ s.answered 0 xs = xs ∧ changes xs = n := by
  obtain ⟨xs, missed, hxs, haccount, hmissed, hend⟩ := h
  rw [Nat.zero_add] at hmissed
  have hanswered : changes (s.answered 0 xs) ≤ changes xs := (s.answered_sublist xs 0).countP_le
  have hchanges : missed ≤ changes (s.answered 0 xs) :=
    Nat.le_trans hmissed (List.countP_mono_left fun x _ => hloose x)
  refine ⟨xs, missed, hxs, haccount, hmissed, hchanges, ?_⟩
  cases hresult : outcome.1 with
  | ok a =>
    rw [hresult] at hend
    obtain ⟨rfl, hall, rfl⟩ := hend
    exact ⟨Nat.zero_le 1, hanswered, Nat.le_refl _, fun _ _ => ⟨rfl, hall, rfl⟩⟩
  | error failure =>
    rw [hresult] at hend
    obtain ⟨hsent, hcases⟩ := hend
    exact ⟨by omega, Nat.le_trans hanswered hsent, hsent, fun _ h => nomatch h⟩

end Signals

/-! ## Statements by their first word -/

/-- The text of a statement starts with a word and a blank, before its first parameter. -/
def Template.StartsWith (word : String) (t : Template) : Prop :=
  ∃ text rest more, t = .text text :: rest ∧ text.toList = word.toList ++ ' ' :: more

/-- The first word of a statement is that of its template. -/
theorem Template.StartsWith.leadingKeyword_eq {word : String} {t : Template}
    (h : t.StartsWith word) (hne : word.toList ≠ [])
    (hword : word.toList.any Text.isBlank = false) (style : TokenStyle) :
    leadingKeyword (t.statement style).sql =
      String.ofList (capitals (word.toList.dropWhile (· == '('))) := by
  obtain ⟨text, rest, more, rfl, htext⟩ := h
  have hsql : (statement style (.text text :: rest)).sql.toList = word.toList ++
      ' ' :: (more ++ (render (fun position _ => style.token position) 1 rest).toList) := by
    rw [statement, sql, render, String.toList_append, htext, List.append_assoc, List.cons_append]
  exact leadingKeyword_of_word word.toList hne hword hsql

/-- Statements that insert, update and delete rows are changes. -/
theorem Template.StartsWith.isChange_eq_true {word : String} {t : Template}
    (h : t.StartsWith word) (hword : word ∈ ["insert", "update", "delete"]) (style : TokenStyle) :
    (t.statement style).isChange = true := by
  rw [Statement.isChange]
  simp only [List.mem_cons, List.not_mem_nil, or_false] at hword
  rcases hword with rfl | rfl | rfl
  · rw [h.leadingKeyword_eq (by decide) (by decide)]
    decide
  · rw [h.leadingKeyword_eq (by decide) (by decide)]
    decide
  · rw [h.leadingKeyword_eq (by decide) (by decide)]
    decide

theorem Template.StartsWith.isChange_eq_false {t : Template} (h : t.StartsWith "select")
    (style : TokenStyle) : (t.statement style).isChange = false := by
  rw [Statement.isChange, h.leadingKeyword_eq (by decide) (by decide)]
  decide

namespace Store

variable {e : Entity} {names : EntityNames} {d : Dialect} {t : Template}

theorem startsWith_countStatement {f : Filter} (h : countStatement e names f = .ok t) :
    t.StartsWith "select" := by
  obtain ⟨clause, -, rfl⟩ := countStatement_eq_ok.1 h
  exact ⟨_, _, _, rfl, by simp; rfl⟩

theorem startsWith_findStatement {o : FindOptions} (h : findStatement e names d o = .ok t) :
    t.StartsWith "select" := by
  obtain ⟨list, -, clause, -, order, -, page, -, rfl⟩ := findStatement_eq_ok.1 h
  exact ⟨_, _, _, rfl, by simp [String.append_assoc]; rfl⟩

theorem startsWith_selectStatement {f : Filter} (h : selectStatement e names f = .ok t) :
    t.StartsWith "select" := by
  obtain ⟨clause, -, list, -, rfl⟩ := selectStatement_eq_ok.1 h
  exact ⟨_, _, _, rfl, by simp [String.append_assoc]; rfl⟩

theorem startsWith_insertStatement {data : Record} (h : insertStatement e names d data = .ok t) :
    t.StartsWith "insert" := by
  obtain ⟨written, -, _, ⟨-, rfl⟩ | ⟨-, columns, -, rfl⟩, returning, -, rfl⟩ :=
    insertStatement_eq_ok.1 h
  · exact ⟨_, _, _, rfl, by simp [String.append_assoc]; rfl⟩
  · exact ⟨_, _, _, rfl, by delta insertHead; simp [String.append_assoc]; rfl⟩

theorem startsWith_bulkStatement {fields : List Field} {rows : List (List (Field × Value))}
    (h : bulkStatement names fields rows = .ok t) : t.StartsWith "insert" := by
  obtain ⟨columns, -, rfl⟩ := bulkStatement_eq_ok.1 h
  exact ⟨_, _, _, rfl, by delta insertHead; simp [String.append_assoc]; rfl⟩

theorem startsWith_updateStatement {identity : Record} {written : List (Field × Value)}
    (h : updateStatement e names d identity written = .ok t) : t.StartsWith "update" := by
  obtain ⟨columns, -, clause, -, returning, -, rfl⟩ := updateStatement_eq_ok.1 h
  exact ⟨_, _, _, rfl, by simp [String.append_assoc]; rfl⟩

theorem startsWith_deleteStatement {identity : Record}
    (h : deleteStatement e names identity = .ok t) : t.StartsWith "delete" := by
  obtain ⟨clause, -, rfl⟩ := deleteStatement_eq_ok.1 h
  exact ⟨_, _, _, rfl, by simp; rfl⟩

/-! ## Operations -/

variable {st : Store} {P : Statement → Prop} {loose : Statement → Bool} {s : Session} {α : Type}

/-- A query signals nothing. -/
theorem query_signals {build : EntityNames → Except Failure Template}
    (hselect : ∀ names t, build names = .ok t →
      t.StartsWith "select" ∧ P (t.statement st.database.dialect.style))
    (read : RowSet → Except Failure α) : Signals P loose 0 0 0 s (st.query build read s) := by
  refine .quiet (.names _) fun names u _ => .quiet (.found _) fun t v ht => ?_
  obtain ⟨hstart, hx⟩ := hselect names t (Action.lift_eq_ok.1 ht).1
  exact .quiet (.sendQuery hx (hstart.isChange_eq_false _)) fun result w _ => .found _

/-- A row that is read signals nothing. -/
theorem findOne_signals (hread : ∀ names f t, selectStatement st.entity names f = .ok t →
      P (t.statement st.database.dialect.style)) (operation : String) (f : Filter) :
    Signals P loose 0 0 0 s (st.findOne operation f s) :=
  query_signals (fun names t ht => ⟨startsWith_selectStatement ht, hread names f t ht⟩) _

section

variable (hcounts : st.database.dialect.countsMutations = true)
  (hread : ∀ names f t, selectStatement st.entity names f = .ok t →
    P (t.statement st.database.dialect.style))

include hcounts hread

/-- What an insert does with the answer to its statement pays for the change. -/
theorem afterInsert_signals (data : Record) (sql : String) (result : RowSet) :
    Signals P loose 0 1 0 s (st.afterInsert data sql result s) := by
  rw [afterInsert]
  split
  · refine .quiet (.read (decodeSingle_ofAnswer "insert" result)) fun row u _ => ?_
    exact .quiet (.signal hcounts) fun _ v _ => .of_pure row
  · refine .quiet (.signal hcounts) fun _ u _ => .quiet (.found _) fun f v _ => ?_
    exact findOne_signals hread "insert" f

/-- An insert sends one change. -/
theorem insert_signals (data : Record)
    (hx : ∀ names t, insertStatement st.entity names st.database.dialect data = .ok t →
      P (t.statement st.database.dialect.style) ∧
        loose (t.statement st.database.dialect.style) = true) :
    Signals P loose 1 0 0 s (st.insert data s) := by
  rw [insert_eq]
  refine .quiet (.names _) fun names u _ => .quiet (.found _) fun t v ht => ?_
  have hstatement := (Action.lift_eq_ok.1 ht).1
  have hchange := (startsWith_insertStatement hstatement).isChange_eq_true (by decide)
    st.database.dialect.style
  exact .last (.sendChange (hx names t hstatement) hchange) fun result w _ =>
    afterInsert_signals hcounts hread data _ result

/-- What an update does with the answer to its statement pays for the change. -/
theorem afterUpdate_signals (before data : Record) (result : RowSet) :
    Signals P loose 0 1 0 s (st.afterUpdate before data result s) := by
  rw [afterUpdate]
  split
  · refine .quiet (.read (decodeSingle_ofAnswer "update" result)) fun row u _ => ?_
    exact .quiet (.signal hcounts) fun _ v _ => .of_pure row
  · refine .quiet (.read (expectOneChanged_ofAnswer result)) fun _ u _ => ?_
    refine .quiet (.signal hcounts) fun _ v _ => ?_
    exact findOne_signals hread "update" _

/-- An update sends one change if there is something to write, and none otherwise. -/
theorem update_signals (id : RowId) (data : Record)
    (hx : ∀ names before written t,
      updateStatement st.entity names st.database.dialect before written = .ok t →
        P (t.statement st.database.dialect.style) ∧
          loose (t.statement st.database.dialect.style) = true) :
    Signals P loose (updateCount st.entity data) 0 0 s (st.update id data s) := by
  rw [update_eq, updateCount]
  refine .quiet (.found _) fun before u _ => .quiet (.names _) fun names v _ => ?_
  rw [updateWith]
  cases hwritten : writtenValues st.entity data false with
  | error failure =>
    refine .quiet (.found _) fun written w h => ?_
    cases (Action.lift_eq_ok.1 h).1
  | ok written =>
    refine .quiet (.found _) fun written' w h => ?_
    cases (Action.lift_eq_ok.1 h).1
    cases written with
    | nil => exact findOne_signals hread "update" _
    | cons a written =>
      refine .quiet (.found _) fun t x ht => ?_
      have hstatement := (Action.lift_eq_ok.1 ht).1
      have hchange := (startsWith_updateStatement hstatement).isChange_eq_true (by decide)
        st.database.dialect.style
      exact .last (.sendChange (hx names before _ t hstatement) hchange) fun result y _ =>
        afterUpdate_signals hcounts hread before data result

end

theorem delete_signals (hcounts : st.database.dialect.countsMutations = true) (id : RowId)
    (hx : ∀ names identity t, deleteStatement st.entity names identity = .ok t →
      P (t.statement st.database.dialect.style) ∧
        loose (t.statement st.database.dialect.style) = true) :
    Signals P loose 1 0 0 s (st.delete id s) := by
  rw [delete_eq]
  refine .quiet (.found _) fun identity u _ => .quiet (.names _) fun names v _ => ?_
  refine .quiet (.found _) fun t w ht => ?_
  have hstatement := (Action.lift_eq_ok.1 ht).1
  have hchange := (startsWith_deleteStatement hstatement).isChange_eq_true (by decide)
    st.database.dialect.style
  exact .last (.sendChange (hx names identity t hstatement) hchange) fun _ x _ => .signal hcounts

/-! ### Many rows -/

/-- The statement inserts rows into columns. -/
def IsMany (st : Store) (x : Statement) : Prop :=
  ∃ names fields rows t, bulkStatement names fields rows = .ok t ∧ fields ≠ [] ∧ rows ≠ [] ∧
    x = t.statement st.database.dialect.style

/-- The statement inserts a row of defaults. -/
def IsSingle (st : Store) (x : Statement) : Prop :=
  ∃ names t, insertStatement st.entity names st.database.dialect Record.empty = .ok t ∧
    x = t.statement st.database.dialect.style

/-- The statement of many rows has values. -/
theorem IsMany.params_ne_nil {x : Statement} (h : st.IsMany x) : x.params ≠ [] := by
  obtain ⟨names, fields, rows, t, ht, hfields, hrows, rfl⟩ := h
  obtain ⟨f, fs, rfl⟩ := List.exists_cons_of_ne_nil hfields
  obtain ⟨row, rest, rfl⟩ := List.exists_cons_of_ne_nil hrows
  rw [Template.statement, values_bulkStatement ht]
  exact List.cons_ne_nil _ _

theorem IsSingle.params_eq_nil {x : Statement} (h : st.IsSingle x) : x.params = [] := by
  obtain ⟨names, t, ht, rfl⟩ := h
  obtain ⟨written, hwritten, hvalues⟩ := values_insertStatement ht
  rw [writtenValues_empty] at hwritten
  cases hwritten
  exact hvalues

/-- Inserts of defaults send one change each. -/
theorem insertDefaults_signals
    (hinsert : ∀ u, Signals P loose 1 0 0 u (st.insert Record.empty u)) :
    ∀ (records : List Record) (s : Session),
      Signals P loose records.length 0 0 s (st.insertDefaults records s)
  | [], _ => .of_pure ()
  | _ :: rest, s => by
    rw [List.length_cons, Nat.add_comm]
    exact (hinsert s).bind fun _ u _ => insertDefaults_signals hinsert rest u

/-- The rows of one piece are inserted by one change, or by one each. -/
theorem insertChunk_signals (hcounts : st.database.dialect.countsMutations = true)
    (hinsert : ∀ u, Signals P loose 1 0 0 u (st.insert Record.empty u))
    (hmany : ∀ x, st.IsMany x → P x) (names : EntityNames) (piece : List Record) :
    ∃ sent, Signals P loose sent 0 0 s (st.insertChunk names piece s) := by
  rw [insertChunk]
  cases hrows : writtenRows st.entity piece with
  | error failure =>
    refine ⟨0, .quiet (.found _) fun rows u h => ?_⟩
    cases (Action.lift_eq_ok.1 h).1
  | ok rows =>
    by_cases hempty : (bulkFields st.entity rows).isEmpty = true
    · refine ⟨piece.length, .quiet (.found _) fun rows' u h => ?_⟩
      cases (Action.lift_eq_ok.1 h).1
      rw [if_pos hempty]
      exact .last (insertDefaults_signals hinsert piece u) fun _ v _ => .of_pure _
    · refine ⟨1, .quiet (.found _) fun rows' u h => ?_⟩
      cases (Action.lift_eq_ok.1 h).1
      rw [if_neg hempty]
      refine .quiet (.found _) fun t v ht => ?_
      have hstatement := (Action.lift_eq_ok.1 ht).1
      have hfields : bulkFields st.entity rows ≠ [] := fun hnil => hempty (by rw [hnil]; rfl)
      have hne : rows ≠ [] := by
        rintro rfl
        exact hfields (List.filter_eq_nil_iff.2 fun f _ => by simp)
      refine .sendSignal hcounts (hmany _ ⟨names, _, rows, t, hstatement, hfields, hne, rfl⟩) ?_ _
      exact (startsWith_bulkStatement hstatement).isChange_eq_true (by decide) _

theorem insertChunks_signals (hcounts : st.database.dialect.countsMutations = true)
    (hinsert : ∀ u, Signals P loose 1 0 0 u (st.insert Record.empty u))
    (hmany : ∀ x, st.IsMany x → P x) (names : EntityNames) :
    ∀ (pieces : List (List Record)) (s : Session),
      ∃ sent, Signals P loose sent 0 0 s (st.insertChunks names pieces s)
  | [], _ => ⟨0, .of_pure 0⟩
  | piece :: rest, s => by
    rw [insertChunks]
    obtain ⟨sent, hsent⟩ : ∃ sent, Signals P loose sent 0 0 s (st.insertChunk names piece s) :=
      insertChunk_signals hcounts hinsert hmany names piece
    cases hresult : (st.insertChunk names piece s) with
    | mk result t =>
      obtain ⟨sent', hsent'⟩ := insertChunks_signals hcounts hinsert hmany names rest t
      refine ⟨sent + sent', hsent.bind fun inserted u hu => ?_⟩
      cases hresult.symm.trans hu
      exact .last hsent' fun others v _ => .of_pure _

end Store

/-! ## Operations and runs -/

open Script (Reply)

/-- How many changes an operation on one row sends when it succeeds. An update without anything to
write only reads the row. -/
def Operation.changeCount (e : Entity) : Operation → Option Nat
  | .count _ | .find _ => some 0
  | .insert _ | .delete _ => some 1
  | .update _ data => some (Store.updateCount e data)
  | .bulkInsert _ => none

/-- An insert of one row of defaults, which has no values. -/
def Statement.isBare (x : Statement) : Bool := x.isChange && x.params.isEmpty

/-- An insert of many rows, each with its values. -/
def Statement.isFilled (x : Statement) : Bool := x.isChange && !x.params.isEmpty

/-- A change is bare or not. -/
theorem changes_eq_add (xs : List Statement) :
    changes xs = xs.countP Statement.isFilled + xs.countP Statement.isBare := by
  induction xs with
  | nil => rfl
  | cons x xs ih =>
    rw [changes] at ih ⊢
    rw [List.countP_cons, List.countP_cons, List.countP_cons, ih, Statement.isFilled,
      Statement.isBare]
    cases x.isChange <;> cases x.params.isEmpty <;> simp <;> omega

/-- Operations one after the other, each on its store. -/
def performAll : List (Store × Operation) → Action Unit
  | [] => return ()
  | (st, op) :: rest => do
    let _ ← op.perform st
    performAll rest

namespace Operation

variable {st : Store} {s : Session}

/-- An operation on one row sends one change at most. -/
theorem changeCount_le_one {e : Entity} {op : Operation} {n : Nat}
    (h : op.changeCount e = some n) : n ≤ 1 := by
  cases op with
  | count _ | find _ | insert _ | delete _ =>
    cases h
    decide
  | update id data =>
    cases h
    rw [Store.updateCount]
    split <;> decide
  | bulkInsert rows => cases h

/-- The account of an operation on one row. -/
theorem perform_signals (hcounts : st.database.dialect.countsMutations = true) {op : Operation}
    {n : Nat} (hn : op.changeCount st.entity = some n) :
    Signals (fun _ => True) Statement.isChange n 0 0 s (op.perform st s) := by
  cases op with
  | count f =>
    cases hn
    refine .quiet (Store.query_signals (fun names t ht => ?_) _) fun _ _ _ => .of_pure _
    exact ⟨Store.startsWith_countStatement ht, trivial⟩
  | find o =>
    cases hn
    refine .quiet (Store.query_signals (fun names t ht => ?_) _) fun _ _ _ => .of_pure _
    exact ⟨Store.startsWith_findStatement ht, trivial⟩
  | insert data =>
    cases hn
    refine .last (Store.insert_signals hcounts (fun _ _ _ _ => trivial) data fun names t ht => ?_)
      fun _ _ _ => .of_pure _
    exact ⟨trivial, (Store.startsWith_insertStatement ht).isChange_eq_true (by decide) _⟩
  | update id data =>
    cases hn
    refine .last (Store.update_signals hcounts (fun _ _ _ _ => trivial) id data
      fun names before written t ht => ?_) fun _ _ _ => .of_pure _
    exact ⟨trivial, (Store.startsWith_updateStatement ht).isChange_eq_true (by decide) _⟩
  | delete id =>
    cases hn
    refine .last (Store.delete_signals hcounts id fun names identity t ht => ?_)
      fun _ _ _ => .of_pure _
    exact ⟨trivial, (Store.startsWith_deleteStatement ht).isChange_eq_true (by decide) _⟩
  | bulkInsert rows => cases hn

/-- The account of inserts of many rows: only inserts of one row of defaults are missed. -/
theorem bulkInsert_signals (hcounts : st.database.dialect.countsMutations = true)
    (rows : List Record) :
    ∃ sent, Signals (fun x => x.isChange = true → st.IsMany x ∨ st.IsSingle x) Statement.isBare
      sent 0 0 s ((Operation.bulkInsert rows).perform st s) := by
  have hinsert : ∀ u, Signals (fun x => x.isChange = true → st.IsMany x ∨ st.IsSingle x)
      Statement.isBare 1 0 0 u (st.insert Record.empty u) := by
    intro u
    refine Store.insert_signals hcounts (fun names f t ht hchange => ?_) _ fun names t ht => ?_
    · rw [(Store.startsWith_selectStatement ht).isChange_eq_false] at hchange
      cases hchange
    · have hsingle : st.IsSingle (t.statement st.database.dialect.style) := ⟨names, t, ht, rfl⟩
      refine ⟨fun _ => .inr hsingle, ?_⟩
      rw [Statement.isBare, (Store.startsWith_insertStatement ht).isChange_eq_true (by decide),
        hsingle.params_eq_nil]
      rfl
  cases hnames : st.database.names st.entity s with
  | mk result named =>
    cases result with
    | error failure =>
      refine ⟨0, .quiet (.quiet (.names _) fun names u h => ?_) fun _ _ _ => .of_pure _⟩
      cases hnames.symm.trans h
    | ok names =>
      obtain ⟨sent, hsent⟩ := Store.insertChunks_signals hcounts hinsert (fun x hx _ => .inl hx)
        names (Store.chunks (Store.bulkSize - 1) rows) named
      refine ⟨sent, .last (.quiet (.names _) fun names' u h => ?_) fun _ _ _ => .of_pure _⟩
      cases hnames.symm.trans h
      exact hsent

/-- What an operation signals in the end. -/
structure Accounted (st : Store) (op : Operation) (s : Session)
    (outcome : Except Failure Reply × Session) (sent : List Statement) : Prop where
  statements : outcome.2.statements = s.statements ++ sent
  /-- If the operation succeeds, every change that it sent was signalled. -/
  succeeded : ∀ reply, outcome.1 = .ok reply → outcome.2.mutations = s.mutations + changes sent
  /-- Without a change that was answered, nothing is signalled. -/
  unanswered : changes (s.answered 0 sent) = 0 → outcome.2.mutations = s.mutations
  /-- An operation on one row sends and signals one change at most, as its kind says. -/
  single : ∀ n, op.changeCount st.entity = some n →
    n ≤ 1 ∧ changes sent ≤ n ∧ outcome.2.mutations ≤ s.mutations + n ∧
      ∀ reply, outcome.1 = .ok reply → changes sent = n
  /-- Of the changes of many rows that are answered, each statement of many rows is signalled; of
  the inserts of one row of defaults, one at most is not. -/
  many : op.changeCount st.entity = none →
    (∀ x ∈ sent, x.isChange = true →
      st.IsMany x ∧ x.isFilled = true ∨ st.IsSingle x ∧ x.isBare = true) ∧
    ∃ singles, outcome.2.mutations =
        s.mutations + (s.answered 0 sent).countP Statement.isFilled + singles ∧
      singles ≤ (s.answered 0 sent).countP Statement.isBare ∧
      (s.answered 0 sent).countP Statement.isBare ≤ singles + 1

theorem exists_accounted (hcounts : st.database.dialect.countsMutations = true) (op : Operation)
    (s : Session) : ∃ sent, op.Accounted st s (op.perform st s) sent := by
  cases hcount : op.changeCount st.entity with
  | some n =>
    obtain ⟨xs, missed, hxs, haccount, -, hmissed, -, hanswered, hsent, hend⟩ :=
      (perform_signals (s := s) hcounts hcount).settled fun _ h => h
    refine ⟨xs, hxs.statements, fun reply hreply => ?_, fun hnone => by omega, fun m hm => ?_,
      fun h => nomatch hcount.symm.trans h⟩
    · obtain ⟨rfl, hall, -⟩ := hend reply hreply
      rw [hall] at haccount
      exact haccount
    · cases hcount.symm.trans hm
      exact ⟨changeCount_le_one hcount, hsent, by omega,
        fun reply hreply => (hend reply hreply).2.2⟩
  | none =>
    obtain ⟨rows, rfl⟩ : ∃ rows, op = .bulkInsert rows := by
      cases op <;> first | exact ⟨_, rfl⟩ | cases hcount
    obtain ⟨n, hsignals⟩ := bulkInsert_signals (s := s) hcounts rows
    obtain ⟨xs, missed, hxs, haccount, hbare, hmissed, hone, -, hsent, hend⟩ :=
      hsignals.settled fun x h => (Bool.and_eq_true _ _ ▸ h : _ ∧ _).1
    refine ⟨xs, hxs.statements, fun reply hreply => ?_, fun hnone => by omega,
      fun m hm => (nomatch hcount.symm.trans hm), fun _ => ⟨fun x hx hchange => ?_, ?_⟩⟩
    · obtain ⟨rfl, hall, -⟩ := hend reply hreply
      rw [hall] at haccount
      exact haccount
    · rcases hxs.property x hx hchange with h | h
      · refine .inl ⟨h, ?_⟩
        rw [Statement.isFilled, hchange]
        simpa using h.params_ne_nil
      · refine .inr ⟨h, ?_⟩
        rw [Statement.isBare, hchange, h.params_eq_nil]
        rfl
    · rw [changes_eq_add] at haccount
      exact ⟨(s.answered 0 xs).countP Statement.isBare - missed, by omega, by omega, by omega⟩

/-- Every operation signals each change that it makes exactly once, unless it fails because of what
is wrong with the answer to the change. So after any number of operations that succeeded, as many
changes were signalled as were sent. -/
theorem signals_changes {d : Dialect} (hcounts : d.countsMutations = true) :
    (∀ (st : Store) (op : Operation) (s : Session), st.database.dialect = d →
      ∃ sent, op.Accounted st s (op.perform st s) sent) ∧
    ∀ (ops : List (Store × Operation)) (s t : Session),
      (∀ o ∈ ops, o.1.database.dialect = d) → performAll ops s = (.ok (), t) →
        ∃ sent, t.statements = s.statements ++ sent ∧ t.mutations = s.mutations + changes sent := by
  have hall : ∀ (st : Store) (op : Operation) (s : Session), st.database.dialect = d →
      ∃ sent, op.Accounted st s (op.perform st s) sent := by
    rintro st op s rfl
    exact exists_accounted hcounts op s
  refine ⟨hall, fun ops => ?_⟩
  induction ops with
  | nil =>
    intro s t _ h
    cases h
    exact ⟨[], (List.append_nil _).symm, rfl⟩
  | cons o ops ih =>
    intro s t hdialect h
    obtain ⟨reply, u, hu, hrest⟩ := Action.bind_eq_ok.1 h
    obtain ⟨sent, hsent⟩ := hall o.1 o.2 s (hdialect o List.mem_cons_self)
    obtain ⟨sent', hstatements, hgrows⟩ :=
      ih u t (fun o' ho' => hdialect o' (List.mem_cons_of_mem o ho')) hrest
    have hfirst := hsent.statements
    have hsignals := hsent.succeeded
    rw [hu] at hfirst hsignals
    refine ⟨sent ++ sent', ?_, ?_⟩
    · rw [hstatements, hfirst, List.append_assoc]
    · rw [hgrows, hsignals reply rfl, changes_append, Nat.add_assoc]

/-- A note is inserted, changed and deleted. -/
def noteOperations : List (Store × Operation) :=
  [.insert (.ofPairs [("id", .integer 1), ("title", .text "a")]),
    .update (.single (.integer 1)) (.ofPairs [("title", .text "b")]),
    .delete (.single (.integer 1))].map fun op => (Store.noteDatabase.store Store.note, op)

/-- A session in which the rows that are written are given back. -/
def noteSession : Session :=
  { Session.fresh with
    scripted := [.rows { RowSet.oneChanged with rows := [[.integer 1, .text "a"]] },
      .rows { RowSet.oneChanged with rows := [[.integer 1, .text "b"]] }] }

/-- All three changes of the note are signalled, and none if the first one is refused. -/
theorem signals_changes_notes :
    (∃ t sent, performAll noteOperations noteSession = (.ok (), t) ∧
      t.statements = sent ∧ t.mutations = changes sent ∧ t.mutations = 3) ∧
    ∃ sent, (Operation.insert .empty).Accounted (Store.noteDatabase.store Store.note)
      { Session.fresh with scripted := [.failure "locked"] }
      ((Operation.insert .empty).perform (Store.noteDatabase.store Store.note)
        { Session.fresh with scripted := [.failure "locked"] }) sent := by
  have hall := signals_changes (d := .plain) rfl
  have hrun : performAll noteOperations noteSession =
      (.ok (), (performAll noteOperations noteSession).2) := rfl
  have hdialect : ∀ o ∈ noteOperations, o.1.database.dialect = .plain := by
    simp [noteOperations]
    rfl
  obtain ⟨sent, hstatements, hgrows⟩ := hall.2 noteOperations noteSession _ hdialect hrun
  refine ⟨⟨_, sent, hrun, hstatements, ?_, rfl⟩, hall.1 _ _ _ rfl⟩
  rw [hgrows]
  exact Nat.zero_add _

end Operation

end EntitySql
