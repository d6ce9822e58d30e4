import EntitySql.Proofs.Outcomes
import EntitySql.Store.Operations
import Mathlib.Tactic.Choose

/-!
# Runs in step

Some properties are about several runs at once: of one operation with every
style of tokens, or of two operations that differ in their values only. Such
runs stay in step as long as the database gives them the same answers: they
send statement for statement, and all of them go on or all of them fail.

- `Agree`: all runs of a computation succeed, or all of them fail.
- `InStep`: all runs of an action send corresponding statements.
- `InStep.bind`, `InStep.onFailure`: actions in sequence.
- `Database.names_inStep`, `Database.send_inStep`: what every operation is made of.
-/

namespace EntitySql

/-- The statement that is sent for a template. -/
def Template.statement (style : TokenStyle) (t : Template) : Statement := ⟨t.sql style, t.values⟩

/-- The same database with another way to write tokens. -/
def Database.withStyle (db : Database) (style : TokenStyle) : Database :=
  { db with dialect := { db.dialect with style } }

variable {ι α β : Type}

/-! ## Computations -/

/-- All runs of a computation succeed with results that belong together, or all of them fail. -/
def Agree (Q : (ι → α) → Prop) (x : ι → Except Failure α) : Prop :=
  (∃ a, Q a ∧ ∀ i, x i = .ok (a i)) ∨ ∀ i, ∃ e, x i = .error e

/-- All runs have the same result. -/
def AllSame (a : ι → α) : Prop := ∃ r, ∀ i, a i = r

namespace Agree

variable {Q : (ι → α) → Prop} {R : (ι → β) → Prop}

/-- Results that belong together agree. -/
theorem of_ok {a : ι → α} (h : Q a) : Agree Q fun i => .ok (a i) := .inl ⟨a, h, fun _ => rfl⟩

theorem of_error (e : ι → Failure) : Agree Q fun i => .error (e i) := .inr fun i => ⟨e i, rfl⟩

theorem imp {Q' : (ι → α) → Prop} {x : ι → Except Failure α} (h : Agree Q x)
    (himp : ∀ a, Q a → Q' a) : Agree Q' x := by
  rcases h with ⟨a, ha, hx⟩ | hx
  · exact .inl ⟨a, himp a ha, hx⟩
  · exact .inr hx

/-- Computations in sequence agree if their steps do. -/
theorem bind {x : ι → Except Failure α} {f : ι → α → Except Failure β} (hx : Agree Q x)
    (hf : ∀ a, Q a → Agree R fun i => f i (a i)) : Agree R fun i => x i >>= f i := by
  rcases hx with ⟨a, ha, hx⟩ | hx
  · simp only [hx, ok_bind]
    exact hf a ha
  · right
    intro i
    obtain ⟨e, he⟩ := hx i
    refine ⟨e, ?_⟩
    show (x i >>= f i) = _
    rw [he, error_bind]

/-- A computation that is the same in all runs. -/
theorem of_const (x : Except Failure α) :
    Agree (fun a => ∃ r, x = .ok r ∧ ∀ i, a i = r) fun _ : ι => x := by
  cases x with
  | error e => exact of_error fun _ => e
  | ok r => exact of_ok ⟨r, rfl, fun _ => rfl⟩

end Agree

/-! ## Actions -/

/-- The sessions will give the same answers and know the same names, in scopes of a kind. -/
def SameAnswers (P : List Scope → Prop) (s : ι → Session) : Prop :=
  ∃ scripted scopes, P scopes ∧ ∀ i, (s i).scripted = scripted ∧ (s i).scopes = scopes

/-- Runs of an action in step: from sessions with the same answers they send statements whose
templates correspond, and their results belong together, or all of them fail. Their scopes stay of
one kind. -/
def InStep (P : List Scope → Prop) (style : ι → TokenStyle) (T : (ι → Template) → Prop)
    (Q : (ι → α) → Prop) (m : ι → Action α) : Prop :=
  ∀ s : ι → Session, SameAnswers P s →
    ∃ ts : List (ι → Template), (∀ t ∈ ts, T t) ∧
      (∀ i, (m i (s i)).2.statements =
        (s i).statements ++ ts.map fun t => (t i).statement (style i)) ∧
      SameAnswers P (fun i => (m i (s i)).2) ∧
      Agree Q fun i => (m i (s i)).1

/-- An action that sends nothing and leaves the answers and names as they are. -/
def Quiet (m : Action α) : Prop :=
  ∀ s, (m s).2.statements = s.statements ∧ (m s).2.scripted = s.scripted ∧
    (m s).2.scopes = s.scopes

/-- An action that always fails, and sends nothing. -/
def Refuses (m : Action α) : Prop :=
  ∀ s, (∃ e, (m s).1 = .error e) ∧ (m s).2.statements = s.statements ∧
    (m s).2.scripted = s.scripted ∧ (m s).2.scopes = s.scopes

namespace InStep

variable {P : List Scope → Prop} {style : ι → TokenStyle} {T : (ι → Template) → Prop}
  {Q : (ι → α) → Prop} {R : (ι → β) → Prop}

/-- Actions that send nothing are in step if their results agree. -/
theorem of_quiet {m : ι → Action α} (hm : ∀ i, Quiet (m i))
    (h : ∀ s, SameAnswers P s → Agree Q fun i => (m i (s i)).1) : InStep P style T Q m := by
  intro s hs
  refine ⟨[], by simp, ?_, ?_, h s hs⟩
  · intro i
    rw [(hm i (s i)).1]
    simp
  · obtain ⟨scripted, scopes, hP, hsame⟩ := hs
    refine ⟨scripted, scopes, hP, fun i => ?_⟩
    rw [(hm i (s i)).2.1, (hm i (s i)).2.2]
    exact hsame i

/-- Actions that always fail are in step. -/
theorem of_refuses {m : ι → Action α} (hm : ∀ i, Refuses (m i)) : InStep P style T Q m :=
  of_quiet (fun i s => (hm i s).2) fun s _ => .inr fun i => (hm i (s i)).1

/-- Results found without the session. -/
theorem lift {x : ι → Except Failure α} (h : Agree Q x) :
    InStep P style T Q fun i => (liftM (x i) : Action α) :=
  of_quiet (fun _ _ => ⟨rfl, rfl, rfl⟩) fun _ _ => h

theorem lift_const (x : Except Failure α) :
    InStep P style T AllSame fun _ => (liftM x : Action α) := by
  refine lift ((Agree.of_const x).imp ?_)
  rintro a ⟨r, _, ha⟩
  exact ⟨r, ha⟩

theorem of_pure {a : ι → α} (h : Q a) : InStep P style T Q fun i => (pure (a i) : Action α) :=
  of_quiet (fun _ _ => ⟨rfl, rfl, rfl⟩) fun _ _ => .of_ok h

/-- What holds of all results that belong together holds of the results. -/
theorem imp {Q' : (ι → α) → Prop} {m : ι → Action α} (h : InStep P style T Q m)
    (himp : ∀ a, Q a → Q' a) : InStep P style T Q' m := by
  intro s hs
  obtain ⟨ts, hts, hsent, hsame, hagree⟩ := h s hs
  exact ⟨ts, hts, hsent, hsame, hagree.imp himp⟩

/-- Actions in sequence are in step if each of them is. -/
theorem bind {m : ι → Action α} {f : ι → α → Action β} (hm : InStep P style T Q m)
    (hf : ∀ a, Q a → InStep P style T R fun i => f i (a i)) :
    InStep P style T R fun i => m i >>= f i := by
  intro s hs
  obtain ⟨ts, hts, hsent, hsame, hagree⟩ := hm s hs
  rcases hagree with ⟨a, ha, hok⟩ | herror
  -- all runs go on, and what they send next is in step again
  · obtain ⟨us, hus, hsent', hsame', hagree'⟩ := hf a ha _ hsame
    have hrun : ∀ i, (m i >>= f i) (s i) = f i (a i) (m i (s i)).2 :=
      fun i => Action.bind_of_ok (Prod.ext (hok i) rfl)
    simp only [hrun]
    refine ⟨ts ++ us, ?_, ?_, hsame', hagree'⟩
    · intro t ht
      exact (List.mem_append.1 ht).elim (hts t) (hus t)
    · intro i
      rw [hsent', hsent, List.map_append, List.append_assoc]
  -- all runs stop here, each with a failure of its own
  · have hrun : ∀ i, ∃ e, (m i >>= f i) (s i) = (.error e, (m i (s i)).2) := by
      intro i
      obtain ⟨e, he⟩ := herror i
      exact ⟨e, Action.bind_of_error (Prod.ext he rfl)⟩
    choose e he using hrun
    simp only [he]
    exact ⟨ts, hts, hsent, hsame, .of_error e⟩

/-- What is done when an action fails. -/
theorem onFailure {m : ι → Action α} {h : ι → Failure → Action α} (hm : InStep P style T Q m)
    (hh : ∀ e : ι → Failure, InStep P style T Q fun i => h i (e i)) :
    InStep P style T Q fun i => Action.onFailure (m i) (h i) := by
  intro s hs
  obtain ⟨ts, hts, hsent, hsame, hagree⟩ := hm s hs
  rcases hagree with ⟨a, ha, hok⟩ | herror
  -- no run fails, so nothing is handled
  · have hrun : ∀ i, Action.onFailure (m i) (h i) (s i) = (.ok (a i), (m i (s i)).2) := by
      intro i
      have hmi : m i (s i) = (.ok (a i), (m i (s i)).2) := Prod.ext (hok i) rfl
      rw [Action.onFailure, hmi]
    simp only [hrun]
    exact ⟨ts, hts, hsent, hsame, .of_ok ha⟩
  · choose e he using herror
    obtain ⟨us, hus, hsent', hsame', hagree'⟩ := hh e _ hsame
    have hrun : ∀ i, Action.onFailure (m i) (h i) (s i) = h i (e i) (m i (s i)).2 := by
      intro i
      have hmi : m i (s i) = (.error (e i), (m i (s i)).2) := Prod.ext (he i) rfl
      rw [Action.onFailure, hmi]
    simp only [hrun]
    refine ⟨ts ++ us, ?_, ?_, hsame', hagree'⟩
    · intro t ht
      exact (List.mem_append.1 ht).elim (hts t) (hus t)
    · intro i
      rw [hsent', hsent, List.map_append, List.append_assoc]

/-- A change of the session that leaves its statements and answers, and changes the scopes of
all sessions alike. -/
theorem update {f : ι → Session → Session} {g : List Scope → List Scope}
    (hg : ∀ scopes, P scopes → P (g scopes))
    (hf : ∀ i s, (f i s).statements = s.statements ∧ (f i s).scripted = s.scripted ∧
      (f i s).scopes = g s.scopes) :
    InStep P style T (fun _ => True) fun i => Action.update (f i) := by
  intro s hs
  obtain ⟨scripted, scopes, hP, hsame⟩ := hs
  refine ⟨[], by simp, ?_, ⟨scripted, g scopes, hg scopes hP, ?_⟩, .of_ok trivial⟩
  · intro i
    show (f i (s i)).statements = _
    rw [(hf i (s i)).1]
    simp
  · intro i
    show (f i (s i)).scripted = scripted ∧ (f i (s i)).scopes = g scopes
    rw [(hf i (s i)).2.1, (hf i (s i)).2.2, (hsame i).1, (hsame i).2]
    exact ⟨rfl, rfl⟩

/-- Scopes stay of a kind if each run keeps them so. -/
theorem keeping {m : ι → Action α} (h : InStep (fun _ => True) style T Q m)
    (hP : ∀ i s, P s.scopes → P (m i s).2.scopes) :
    InStep P style T (fun a => Q a ∧ ∀ i, ∃ s, P s.scopes ∧ (m i s).1 = .ok (a i)) m := by
  rintro s ⟨scripted, scopes, hscopes, hsame⟩
  obtain ⟨ts, hts, hsent, ⟨scripted', scopes', -, hsame'⟩, hagree⟩ :=
    h s ⟨scripted, scopes, trivial, hsame⟩
  have hstart : ∀ i, P (s i).scopes := fun i => (hsame i).2 ▸ hscopes
  refine ⟨ts, hts, hsent, ?_, ?_⟩
  -- without any runs there is no scope to be kept
  · by_cases hruns : Nonempty ι
    · obtain ⟨i⟩ := hruns
      exact ⟨scripted', scopes', (hsame' i).2 ▸ hP i (s i) (hstart i), hsame'⟩
    · exact ⟨scripted, scopes, hscopes, fun i => absurd ⟨i⟩ hruns⟩
  · rcases hagree with ⟨a, ha, hok⟩ | herror
    · exact .inl ⟨a, ⟨ha, fun i => ⟨s i, hstart i, hok i⟩⟩, hok⟩
    · exact .inr herror

end InStep

/-! ## Databases -/

namespace Database

variable {P : List Scope → Prop} {style : ι → TokenStyle} {T : (ι → Template) → Prop}
  {Q : (ι → α) → Prop}

/-- A handle is closed in all sessions or in none. -/
theorem checkOpen_inStep (db : ι → Database) {scope : Nat} (hdb : ∀ i, (db i).scope = scope) :
    InStep P style T (fun _ => True) fun i => (db i).checkOpen := by
  refine InStep.of_quiet ?_ ?_
  · intro i s
    unfold checkOpen
    split <;> exact ⟨rfl, rfl, rfl⟩
  · rintro s ⟨scripted, scopes, -, hsame⟩
    have hopen : ∀ i, (s i).isOpen (db i).scope =
        Session.isOpen { (default : Session) with scopes } scope := by
      intro i
      rw [Session.isOpen, Session.isOpen, (hsame i).2, hdb]
    simp only [checkOpen, hopen]
    split
    · exact .of_ok trivial
    · exact .of_error fun _ => .transactionCompleted

/-- The failure of a statement is reported at most. -/
theorem statementFailed_refuses (db : Database) (sql : String) (arguments : List (String × Value))
    (f : Failure) : Refuses (db.statementFailed sql arguments f : Action α) := by
  intro s
  cases f <;> exact ⟨⟨_, rfl⟩, rfl, rfl, rfl⟩

theorem schemaFailed_refuses (db : Database) (es : List Entity) (f : Failure) :
    Refuses (db.schemaFailed es f : Action α) := by
  cases f with
  | driver detail => exact statementFailed_refuses db (db.schemaText es) [] _
  | execution detail sql params => exact statementFailed_refuses db (db.schemaText es) [] _
  | _ => exact fun s => ⟨⟨_, rfl⟩, rfl, rfl, rfl⟩

/-- The style of tokens does not matter to the first use of an entity. -/
@[simp] theorem withStyle_firstUse (db : Database) (style : TokenStyle) :
    (db.withStyle style).dialect.firstUse = db.dialect.firstUse := rfl

/-- An entity is announced in all runs or in none. -/
theorem announce_inStep (db : Database) (e : Entity) :
    InStep P style T (fun _ => True) fun i => (db.withStyle (style i)).announce e := by
  unfold announce
  refine InStep.bind (checkOpen_inStep _ fun _ => rfl) fun _ _ => ?_
  simp only [withStyle_firstUse]
  cases db.dialect.firstUse with
  | performs => exact InStep.update (g := id) (fun _ h => h) fun _ _ => ⟨rfl, rfl, rfl⟩
  | ignores => exact InStep.of_pure trivial
  | fails f => exact InStep.of_refuses fun _ s => ⟨⟨f, rfl⟩, rfl, rfl, rfl⟩

/-- Names that are not known yet are settled in all runs or in none. -/
theorem settle_inStep (db : Database) (e : Entity) (settled : EntityNames) :
    InStep (fun _ => True) style T AllSame fun i => (do
      Action.onFailure ((db.withStyle (style i)).announce e)
        ((db.withStyle (style i)).schemaFailed [e])
      Action.update fun s => s.remember db.scope e.key settled
      return settled : Action EntityNames) := by
  refine InStep.bind (InStep.onFailure (announce_inStep db e) fun f =>
    InStep.of_refuses fun i => schemaFailed_refuses _ [e] (f i)) fun _ _ => ?_
  refine InStep.bind (InStep.update (g := fun scopes => scopes.modify db.scope fun c =>
    { c with names := c.names ++ [(e.key, settled)] }) (fun _ _ => trivial)
      fun _ _ => ⟨rfl, rfl, rfl⟩) fun _ _ => ?_
  exact InStep.of_pure ⟨settled, fun _ => rfl⟩

/-- The names of an entity are the same in all runs. -/
theorem names_inStep (db : Database) (e : Entity) :
    InStep (fun _ => True) style T AllSame fun i => (db.withStyle (style i)).names e := by
  intro s hs
  obtain ⟨scripted, scopes, -, hsame⟩ := hs
  -- all sessions know the same names
  have hknown : ∀ i, (s i).namesIn (db.withStyle (style i)).scope =
      Session.namesIn { (default : Session) with scopes } db.scope := by
    intro i
    rw [Session.namesIn, Session.namesIn, (hsame i).2]
    rfl
  cases hfind : (Session.namesIn { (default : Session) with scopes } db.scope).find?
      fun n => n.1 == e.key with
  | some n =>
    have hrun : ∀ i, (db.withStyle (style i)).names e (s i) = (.ok n.2, s i) := by
      intro i
      simp only [names, hknown, hfind]
    simp only [hrun]
    exact InStep.of_pure (a := fun _ => n.2) ⟨n.2, fun _ => rfl⟩ s
      ⟨scripted, scopes, trivial, hsame⟩
  | none =>
    have hrun : ∀ i, (db.withStyle (style i)).names e (s i) = (do
        Action.onFailure ((db.withStyle (style i)).announce e)
          ((db.withStyle (style i)).schemaFailed [e])
        Action.update fun s =>
          s.remember db.scope e.key (EntityNames.resolve e db.dialect.quoting)
        return EntityNames.resolve e db.dialect.quoting : Action EntityNames) (s i) := by
      intro i
      simp only [names, hknown, hfind]
      rfl
    simp only [hrun]
    exact settle_inStep db e _ s ⟨scripted, scopes, trivial, hsame⟩

/-- Corresponding statements are received in all runs, and answered alike if they are of one
kind. -/
theorem receive_inStep {t : ι → Template} (ht : T t)
    (hkind : ∀ i j, returnsRows ((t i).sql (style i)) = returnsRows ((t j).sql (style j))) :
    InStep P style T AllSame fun i => Action.receive ((t i).sql (style i)) (t i).values := by
  intro s hs
  obtain ⟨scripted, scopes, hP, hsame⟩ := hs
  refine ⟨[t], by simpa using ht, fun i => Action.statements_receive _ _ _, ?_⟩
  cases scripted with
  | nil =>
    have hrun : ∀ i, Action.receive ((t i).sql (style i)) (t i).values (s i) =
        (.ok (Action.defaultAnswer ((t i).sql (style i))),
          (s i).record ((t i).sql (style i)) (t i).values) := by
      intro i
      rw [Action.receive, (hsame i).1]
    -- nobody answers, so the text decides whether there are rows
    have hanswer : ∀ i j, Action.defaultAnswer ((t i).sql (style i)) =
        Action.defaultAnswer ((t j).sql (style j)) := by
      intro i j
      rw [Action.defaultAnswer, Action.defaultAnswer, hkind i j]
    simp only [hrun]
    refine ⟨⟨[], scopes, hP, hsame⟩, .of_ok ?_⟩
    -- without any runs there is no template to take the answer from
    by_cases h : Nonempty ι
    · obtain ⟨j⟩ := h
      exact ⟨_, fun i => hanswer i j⟩
    · exact ⟨default, fun i => absurd ⟨i⟩ h⟩
  | cons answer rest =>
    cases answer with
    | rows result =>
      have hrun : ∀ i, Action.receive ((t i).sql (style i)) (t i).values (s i) =
          (.ok result, { (s i).record ((t i).sql (style i)) (t i).values with scripted := rest }) :=
        by
          intro i
          rw [Action.receive, (hsame i).1]
      simp only [hrun]
      exact ⟨⟨rest, scopes, hP, fun i => ⟨rfl, (hsame i).2⟩⟩, .of_ok ⟨result, fun _ => rfl⟩⟩
    | failure detail =>
      have hrun : ∀ i, Action.receive ((t i).sql (style i)) (t i).values (s i) =
          (.error (.driver detail),
            { (s i).record ((t i).sql (style i)) (t i).values with scripted := rest }) := by
        intro i
        rw [Action.receive, (hsame i).1]
      simp only [hrun]
      exact ⟨⟨rest, scopes, hP, fun i => ⟨rfl, (hsame i).2⟩⟩, .of_error fun _ => .driver detail⟩

/-- Corresponding statements are sent in all runs or in none. -/
theorem send_inStep (db : Database) {t : ι → Template} (ht : T t)
    (hkind : ∀ i j, returnsRows ((t i).sql (style i)) = returnsRows ((t j).sql (style j))) :
    InStep P style T AllSame fun i => (db.withStyle (style i)).send (t i) := by
  refine InStep.onFailure ?_ fun f => InStep.of_refuses fun i => statementFailed_refuses _ _ _ (f i)
  refine InStep.bind (checkOpen_inStep _ fun _ => rfl) fun _ _ => ?_
  refine InStep.bind (receive_inStep ht hkind) fun result hresult => ?_
  refine InStep.bind (InStep.update (g := id) (fun _ h => h) fun _ _ => ⟨rfl, rfl, rfl⟩)
    fun _ _ => ?_
  exact InStep.of_pure hresult

/-- A change is signalled in all runs. -/
theorem signalChange_inStep (db : Database) :
    InStep P style T (fun _ => True) fun i => (db.withStyle (style i)).signalChange := by
  refine InStep.update (g := id) (fun _ h => h) ?_
  intro i s
  split <;> exact ⟨rfl, rfl, rfl⟩

end Database

end EntitySql
