import EntitySql.Proofs.Served

/-!
# First uses

A scope knows the names of the entities that were announced through it, and of
those that its parent knew when it was opened. What it learns afterwards stays
with it. This module tells from the events of a run alone what a scope knows,
and proves that sessions know just that.

- `Event.Settled`, `Event.Knows`: what a scope knows after a run with given events.
- `Session.Happens`, `Session.Trace`: steps and runs with their events.
- `Session.Moves`: single moves, of which steps are made (`Session.Happens.moves`).
- `Session.Agrees`: a session knows what the events say.
- `Session.Trace.announces_first_uses`: entities are announced once, and in time.
-/

namespace EntitySql

/-! ## What events say -/

namespace Event

/-- After the events a scope knows the names of an entity, quoted in a given way: the entity was
announced through the scope, or the scope that it was opened from knew the names at that time. -/
inductive Settled : List Event → Nat → Entity → Quoting → Prop
  | announced {before : List Event} (db : Database) (e : Entity) :
    Settled (before ++ [.announced db e]) db.scope e db.dialect.quoting
  | inherited {before : List Event} {db : Database} {inner : Nat} {e : Entity} {q : Quoting}
    (h : Settled before db.scope e q) : Settled (before ++ [.opened db inner]) inner e q
  | later {before : List Event} {m : Event} {scope : Nat} {e : Entity} {q : Quoting}
    (h : Settled before scope e q) : Settled (before ++ [m]) scope e q

/-- After the events a scope knows names under a key. -/
def Knows (events : List Event) (scope : Nat) (key : String) : Prop :=
  ∃ e q, Settled events scope e q ∧ e.key = key

/-- There is a scope after the events: the first one, or one that was opened. -/
def HasScope (events : List Event) (scope : Nat) : Prop :=
  scope = 0 ∨ ∃ db, .opened db scope ∈ events

/-- The event tells that an entity of the given key was announced through a scope. -/
def Announces (scope : Nat) (key : String) : Event → Prop
  | .announced db e => db.scope = scope ∧ e.key = key
  | _ => False

/-- The event tells that the database was told of an entity of the given key through a scope, with
success or without. -/
def Asks (scope : Nat) (key : String) : Event → Prop
  | .announced db e | .refused db e => db.scope = scope ∧ e.key = key
  | _ => False

/-- The event adds nothing to what is known. -/
def IsSilent : Event → Prop
  | .announced .. | .opened .. => False
  | _ => True

/-- The event fits the ones before it. The database is told of an entity that is not known yet;
names are those of the entity that was announced first, and statements are built with them; a
transaction has a scope of its own. -/
def Fits (before : List Event) : Event → Prop
  | .announced db e | .refused db e => ¬ Knows before db.scope e.key
  | .named db e names =>
    ∃ first q, Settled before db.scope first q ∧ first.key = e.key ∧ names = .resolve first q
  | .sent db (some e) x =>
    ∃ first q, Settled before db.scope first q ∧ first.key = e.key ∧
      ∃ t, Store.Builds e db.dialect (.resolve first q) t ∧ x = t.statement db.dialect.style
  | .sent _ none _ => True
  | .opened db inner => HasScope before db.scope ∧ ¬ HasScope before inner

/-- Each of the events fits the ones before it. -/
def AllFit (before : List Event) : List Event → Prop
  | [] => True
  | m :: rest => m.Fits before ∧ AllFit (before ++ [m]) rest

variable {before xs ys : List Event} {scope : Nat} {key : String} {e : Entity} {q : Quoting}

/-- Nothing is known before anything has happened. -/
theorem not_settled_nil : ¬ Settled [] scope e q := by
  intro h
  generalize hxs : [] = events at h
  cases h <;> exact absurd hxs.symm (List.append_ne_nil_of_right_ne_nil _ (List.cons_ne_nil _ _))

/-- What one event adds to what is known. -/
theorem settled_append_singleton {m : Event} :
    Settled (before ++ [m]) scope e q ↔
      Settled before scope e q ∨
        (∃ db, m = .announced db e ∧ db.scope = scope ∧ db.dialect.quoting = q) ∨
          ∃ db, m = .opened db scope ∧ Settled before db.scope e q := by
  constructor
  · intro h
    generalize hxs : before ++ [m] = events at h
    cases h with
    | announced db e =>
      obtain ⟨-, rfl⟩ := List.append_singleton_inj.1 hxs
      exact .inr (.inl ⟨db, rfl, rfl, rfl⟩)
    | inherited h =>
      obtain ⟨rfl, rfl⟩ := List.append_singleton_inj.1 hxs
      exact .inr (.inr ⟨_, rfl, h⟩)
    | later h =>
      obtain ⟨rfl, -⟩ := List.append_singleton_inj.1 hxs
      exact .inl h
  · rintro (h | ⟨db, rfl, rfl, rfl⟩ | ⟨db, rfl, h⟩)
    · exact .later h
    · exact .announced db e
    · exact .inherited h

/-- What is known stays known. -/
theorem Settled.append (h : Settled before scope e q) (xs : List Event) :
    Settled (before ++ xs) scope e q := by
  induction xs generalizing before with
  | nil => rwa [List.append_nil]
  | cons m xs ih =>
    rw [List.append_cons]
    exact ih (.later h)

theorem Knows.append (h : Knows before scope key) (xs : List Event) :
    Knows (before ++ xs) scope key := by
  obtain ⟨e, q, hsettled, hkey⟩ := h
  exact ⟨e, q, hsettled.append xs, hkey⟩

theorem HasScope.append (h : HasScope before scope) (xs : List Event) :
    HasScope (before ++ xs) scope :=
  h.imp id fun ⟨db, hmem⟩ => ⟨db, List.mem_append_left xs hmem⟩

/-- Events of two runs, one after the other. -/
theorem allFit_append : ∀ {before xs : List Event},
    AllFit before (xs ++ ys) ↔ AllFit before xs ∧ AllFit (before ++ xs) ys
  | before, [] => by simp [AllFit]
  | before, m :: xs => by
    rw [List.cons_append, AllFit, AllFit, allFit_append, and_assoc, List.append_assoc,
      List.singleton_append]

/-- Each event fits the ones before it. -/
theorem AllFit.fits {after : List Event} {m : Event} (h : AllFit [] (before ++ m :: after)) :
    m.Fits before := (allFit_append.1 h).2.1

/-- The database is not told again of an entity that is known. -/
theorem AllFit.not_asks (h : AllFit before xs) (hknows : Knows before scope key) :
    ∀ m ∈ xs, ¬ m.Asks scope key := by
  induction xs generalizing before with
  | nil => exact List.forall_mem_nil _
  | cons m xs ih =>
    refine List.forall_mem_cons.2 ⟨fun hasks => ?_, ih h.2 (hknows.append [m])⟩
    have hfits := h.1
    cases m with
    | announced db e =>
      obtain ⟨rfl, rfl⟩ := hasks
      exact hfits hknows
    | refused db e =>
      obtain ⟨rfl, rfl⟩ := hasks
      exact hfits hknows
    | _ => exact hasks.elim

/-- The database is not told again of an entity that was announced. -/
theorem AllFit.once (h : AllFit before xs) :
    xs.Pairwise fun m m' => m.Announces scope key → ¬ m'.Asks scope key := by
  induction xs generalizing before with
  | nil => exact .nil
  | cons m xs ih =>
    refine .cons (fun m' hm' hannounces => ?_) (ih h.2)
    cases m with
    | announced db e =>
      obtain ⟨rfl, rfl⟩ := hannounces
      exact h.2.not_asks ⟨e, _, .announced db e, rfl⟩ m' hm'
    | _ => exact hannounces.elim

/-- A scope that there is learns only what is announced through it. -/
theorem AllFit.not_knows (h : AllFit before xs) (hscope : HasScope before scope)
    (hnew : ¬ Knows before scope key) (hxs : ∀ m ∈ xs, ¬ m.Announces scope key) :
    ¬ Knows (before ++ xs) scope key := by
  induction xs generalizing before with
  | nil => rwa [List.append_nil]
  | cons m xs ih =>
    rw [List.append_cons]
    obtain ⟨hm, hxs⟩ := List.forall_mem_cons.1 hxs
    refine ih h.2 (hscope.append [m]) ?_ hxs
    rintro ⟨e, q, hsettled, rfl⟩
    rcases settled_append_singleton.1 hsettled with hsettled | ⟨db, rfl, rfl, -⟩ | ⟨db, rfl, -⟩
    · exact hnew ⟨e, q, hsettled, rfl⟩
    · exact hm ⟨rfl, rfl⟩
    -- a transaction never gets a scope that there is
    · exact h.1.2 hscope

end Event

/-! ## Sessions and events -/

namespace Session

variable {s t u : Session} {scope : Nat} {key : String}

/-- The same scopes know the same names. -/
theorem known?_of_scopes (h : t.scopes = s.scopes) : t.known? = s.known? := by
  funext scope key
  rw [known?, known?, namesIn, namesIn, h]

/-- What is known after names were remembered in an open scope. -/
theorem known?_remember (hscopes : t.scopes = s.scopes) (hopen : s.isOpen scope = true)
    (hnew : s.known? scope key = none) (names : EntityNames) (other : Nat) (otherKey : String) :
    (t.remember scope key names).known? other otherKey =
      if other = scope ∧ otherKey = key then some names else s.known? other otherKey := by
  rw [← known?_of_scopes hscopes] at hnew ⊢
  rw [isOpen, ← hscopes] at hopen
  cases hscope : t.scopes[scope]? with
  | none =>
    rw [hscope] at hopen
    cases hopen
  | some c =>
    rw [known?, namesIn, hscope, Option.map_eq_none_iff] at hnew
    rw [known?, known?, namesIn, namesIn, remember, List.getElem?_modify]
    by_cases hother : other = scope
    · subst hother
      rw [hscope]
      by_cases hkey : otherKey = key
      · subst hkey
        simp [List.find?_append, hnew]
      · have hkey' : ¬ key = otherKey := fun h => hkey h.symm
        simp [List.find?_append, hkey, hkey', Option.or_none]
    · have hother' : ¬ scope = other := fun h => hother h.symm
      simp [hother, hother']

theorem known?_of_le (h : s.scopes.length ≤ scope) : s.known? scope key = none := by
  rw [known?, namesIn, List.getElem?_eq_none h]
  rfl

/-- What is known after a scope was opened. -/
theorem known?_openScope (parent scope : Nat) (key : String) :
    (s.openScope parent).known? scope key =
      if scope = s.scopes.length then s.known? parent key else s.known? scope key := by
  by_cases hscope : scope = s.scopes.length
  · rw [if_pos hscope, hscope, known?, known?, namesIn, openScope,
      List.getElem?_append_right (Nat.le_refl _)]
    simp
  · rw [if_neg hscope]
    rcases Nat.lt_or_gt_of_ne hscope with hlt | hgt
    · rw [known?, known?, namesIn, namesIn, openScope, List.getElem?_append_left hlt]
    · have hnone : (s.openScope parent).scopes.length ≤ scope := by
        rw [openScope, List.length_append]
        exact hgt
      rw [known?_of_le hnone, known?_of_le (Nat.le_of_lt hgt)]

/-- The end of a scope makes no difference to what is known. -/
theorem known?_closeScope (scope : Nat) : (s.closeScope scope).known? = s.known? := by
  funext other key
  rw [known?, known?, namesIn, namesIn, closeScope, List.getElem?_modify]
  cases s.scopes[other]? with
  | none => rfl
  | some c => by_cases h : scope = other <;> simp [h]

/-- A single move, with its events. -/
inductive Move (s : Session) : List Event → Session → Prop
  /-- Names are looked up. -/
  | looked {db : Database} {e : Entity} {events : List Event} {r : Except Failure EntityNames}
    {t : Session} (h : db.Looks e s events r t) : Move s events t
  /-- A statement is sent that was built with names that are known. -/
  | asked {db : Database} {e : Entity} {names : EntityNames} {x : Template} {t : Session}
    (hknown : s.known? db.scope e.key = some names) (hbuilt : Store.Builds e db.dialect names x)
    (hscopes : t.scopes = s.scopes) :
    Move s [.sent db (some e) (x.statement db.dialect.style)] t
  /-- A statement is sent that was written by hand. -/
  | wrote {db : Database} {x : Statement} {t : Session} (hscopes : t.scopes = s.scopes) :
    Move s [.sent db none x] t
  /-- A scope is opened. -/
  | opened {db : Database} {t : Session} (hopen : s.isOpen db.scope = true)
    (hscopes : t.scopes = (s.openScope db.scope).scopes) :
    Move s [.opened db s.scopes.length] t
  /-- Something is done that has nothing to do with names. -/
  | quiet {t : Session} (hlength : t.scopes.length = s.scopes.length)
    (hknown : t.known? = s.known?) : Move s [] t

/-- Any number of moves. -/
inductive Moves (s : Session) : List Event → Session → Prop
  | refl : Moves s [] s
  | tail {xs ys : List Event} {t u : Session} (h : Moves s xs t) (hmove : t.Move ys u) :
    Moves s (xs ++ ys) u

theorem Move.of_scopes (h : t.scopes = s.scopes) : s.Move [] t :=
  .quiet (congrArg List.length h) (known?_of_scopes h)

theorem Move.moves {xs : List Event} (h : s.Move xs t) : s.Moves xs t := .tail .refl h

/-- Moves one after the other. -/
theorem Moves.trans {xs ys : List Event} (h : s.Moves xs t) (h' : t.Moves ys u) :
    s.Moves (xs ++ ys) u := by
  induction h' with
  | refl => rwa [List.append_nil]
  | tail _ hmove ih =>
    rw [← List.append_assoc]
    exact .tail ih hmove

/-- The session knows just what the events say. -/
structure Agrees (events : List Event) (s : Session) : Prop where
  settled : ∀ {scope : Nat} {e : Entity} {q : Quoting}, Event.Settled events scope e q →
    s.known? scope e.key = some (.resolve e q)
  known : ∀ {scope : Nat} {key : String} {names : EntityNames},
    s.known? scope key = some names →
      ∃ e q, Event.Settled events scope e q ∧ e.key = key ∧ names = .resolve e q
  scopes : ∀ scope, scope < s.scopes.length ↔ Event.HasScope events scope

namespace Agrees

variable {before : List Event} {m : Event}

/-- Nothing is known at the beginning. -/
theorem fresh : Agrees [] .fresh where
  settled := fun h => absurd h Event.not_settled_nil
  known := fun {scope key names} h => by
    have hnone : Session.fresh.known? scope key = none := by
      cases scope with
      | zero => rfl
      | succ n => exact known?_of_le (Nat.succ_le_succ (Nat.zero_le n))
    rw [hnone] at h
    cases h
  scopes := fun scope => by simp [Session.fresh, Event.HasScope]

/-- What the session does not know is not known from the events. -/
theorem not_knows (h : s.Agrees before) (hnew : s.known? scope key = none) :
    ¬ Event.Knows before scope key := by
  rintro ⟨e, q, hsettled, rfl⟩
  rw [h.settled hsettled] at hnew
  cases hnew

theorem of_same (h : s.Agrees before) (hlength : t.scopes.length = s.scopes.length)
    (hknown : t.known? = s.known?) : t.Agrees before where
  settled := fun hsettled => by rw [hknown, h.settled hsettled]
  known := fun heq => h.known (by rwa [hknown] at heq)
  scopes := fun scope => by rw [hlength, h.scopes]

theorem of_scopes (h : s.Agrees before) (hscopes : t.scopes = s.scopes) : t.Agrees before :=
  h.of_same (congrArg List.length hscopes) (known?_of_scopes hscopes)

/-- An event that adds nothing. -/
theorem event (h : s.Agrees before) (hsilent : m.IsSilent) : s.Agrees (before ++ [m]) where
  settled := fun hsettled => by
    rcases Event.settled_append_singleton.1 hsettled with hsettled | ⟨db, rfl, -⟩ | ⟨db, rfl, -⟩
    · exact h.settled hsettled
    · exact hsilent.elim
    · exact hsilent.elim
  known := fun heq => by
    obtain ⟨e, q, hsettled, hkey, hnames⟩ := h.known heq
    exact ⟨e, q, hsettled.append _, hkey, hnames⟩
  scopes := fun scope => by
    rw [h.scopes]
    refine ⟨fun hscope => hscope.append _, fun hscope => hscope.imp id ?_⟩
    rintro ⟨db, hmem⟩
    rcases List.mem_append.1 hmem with hmem | hmem
    · exact ⟨db, hmem⟩
    · rw [← List.mem_singleton.1 hmem] at hsilent
      exact hsilent.elim

theorem remember {db : Database} {e : Entity} (h : s.Agrees before)
    (hscopes : t.scopes = s.scopes) (hopen : s.isOpen db.scope = true)
    (hnew : s.known? db.scope e.key = none) :
    (t.remember db.scope e.key (.resolve e db.dialect.quoting)).Agrees
      (before ++ [.announced db e]) where
  settled := fun {scope e' q} hsettled => by
    rw [known?_remember hscopes hopen hnew]
    rcases Event.settled_append_singleton.1 hsettled with
      hsettled | ⟨db, heq, rfl, rfl⟩ | ⟨db, heq, -⟩
    · have hknown := h.settled hsettled
      rw [if_neg, hknown]
      rintro ⟨rfl, hkey⟩
      rw [hkey, hnew] at hknown
      cases hknown
    · cases heq
      rw [if_pos ⟨rfl, rfl⟩]
    · cases heq
  known := fun {scope key names} heq => by
    rw [known?_remember hscopes hopen hnew] at heq
    split at heq
    · next hsame =>
      obtain ⟨rfl, rfl⟩ := hsame
      cases heq
      exact ⟨e, _, .announced db e, rfl, rfl⟩
    · obtain ⟨e', q, hsettled, hkey, hnames⟩ := h.known heq
      exact ⟨e', q, hsettled.append _, hkey, hnames⟩
  scopes := fun scope => by
    rw [Session.remember, List.length_modify, hscopes, h.scopes]
    refine ⟨fun hscope => hscope.append _, fun hscope => hscope.imp id ?_⟩
    rintro ⟨db', hmem⟩
    rcases List.mem_append.1 hmem with hmem | hmem
    · exact ⟨db', hmem⟩
    · cases List.mem_singleton.1 hmem

theorem openScope {db : Database} (h : s.Agrees before) :
    (s.openScope db.scope).Agrees (before ++ [.opened db s.scopes.length]) where
  settled := fun {scope e q} hsettled => by
    rw [known?_openScope]
    rcases Event.settled_append_singleton.1 hsettled with
      hbefore | ⟨db', heq, -⟩ | ⟨db', heq, hparent⟩
    · have hknown := h.settled hbefore
      rw [if_neg, hknown]
      rintro rfl
      rw [known?_of_le (Nat.le_refl _)] at hknown
      cases hknown
    · cases heq
    · cases heq
      rw [if_pos rfl, h.settled hparent]
  known := fun {scope key names} heq => by
    rw [known?_openScope] at heq
    split at heq
    · next hscope =>
      obtain ⟨e, q, hsettled, hkey, hnames⟩ := h.known heq
      exact ⟨e, q, hscope ▸ .inherited hsettled, hkey, hnames⟩
    · obtain ⟨e, q, hsettled, hkey, hnames⟩ := h.known heq
      exact ⟨e, q, hsettled.append _, hkey, hnames⟩
  scopes := fun scope => by
    have hlength : (s.openScope db.scope).scopes.length = s.scopes.length + 1 := by
      rw [Session.openScope, List.length_append]
      rfl
    rw [hlength, Nat.lt_succ_iff_lt_or_eq, h.scopes]
    constructor
    · rintro (hscope | rfl)
      · exact hscope.append _
      · exact .inr ⟨db, List.mem_append_right _ List.mem_cons_self⟩
    · rintro (rfl | ⟨db', hmem⟩)
      · exact .inl (.inl rfl)
      · rcases List.mem_append.1 hmem with hmem | hmem
        · exact .inl (.inr ⟨db', hmem⟩)
        · cases List.mem_singleton.1 hmem
          exact .inr rfl

/-- The events of looking up names fit. -/
theorem looks {db : Database} {e : Entity} {new : List Event} {r : Except Failure EntityNames}
    (h : s.Agrees before) (hlooks : db.Looks e s new r t) :
    t.Agrees (before ++ new) ∧ Event.AllFit before new := by
  cases hlooks with
  | known hknown =>
    obtain ⟨first, q, hsettled, hkey, hnames⟩ := h.known hknown
    exact ⟨h.event trivial, ⟨first, q, hsettled, hkey, hnames⟩, trivial⟩
  | settled hnew hopen hscopes _ =>
    rw [List.append_cons]
    refine ⟨(h.remember hscopes hopen hnew).event trivial, h.not_knows hnew, ?_, trivial⟩
    exact ⟨e, _, .announced db e, rfl, rfl⟩
  | refused hnew _ hscopes _ _ =>
    exact ⟨(h.of_scopes hscopes).event trivial, h.not_knows hnew, trivial⟩
  | closed hnew _ =>
    rw [List.append_nil]
    exact ⟨h, trivial⟩

end Agrees

/-- The events of a move fit, and what they say of the session is right. -/
theorem Move.agrees {before new : List Event} (h : s.Move new t) (hbefore : s.Agrees before) :
    t.Agrees (before ++ new) ∧ Event.AllFit before new := by
  cases h with
  | looked h => exact hbefore.looks h
  | asked hknown hbuilt hscopes =>
    obtain ⟨first, q, hsettled, hkey, rfl⟩ := hbefore.known hknown
    exact ⟨(hbefore.of_scopes hscopes).event trivial,
      ⟨first, q, hsettled, hkey, _, hbuilt, rfl⟩, trivial⟩
  | wrote hscopes => exact ⟨(hbefore.of_scopes hscopes).event trivial, trivial, trivial⟩
  | opened hopen hscopes =>
    refine ⟨hbefore.openScope.of_scopes hscopes,
      ⟨(hbefore.scopes _).1 (lt_length_of_isOpen hopen), fun hscope => ?_⟩, trivial⟩
    exact Nat.lt_irrefl _ ((hbefore.scopes _).2 hscope)
  | quiet hlength hknown =>
    rw [List.append_nil]
    exact ⟨hbefore.of_same hlength hknown, trivial⟩

theorem Moves.agrees {before new : List Event} (h : s.Moves new t) (hbefore : s.Agrees before) :
    t.Agrees (before ++ new) ∧ Event.AllFit before new := by
  induction h with
  | refl =>
    rw [List.append_nil]
    exact ⟨hbefore, trivial⟩
  | tail _ hmove ih =>
    obtain ⟨hagrees, hfits⟩ := hmove.agrees ih.1
    rw [← List.append_assoc]
    exact ⟨hagrees, Event.allFit_append.2 ⟨ih.2, hfits⟩⟩

/-- What is known stays known. -/
theorem Move.known {new : List Event} (h : s.Move new t) {names : EntityNames}
    (hknown : s.known? scope key = some names) : t.known? scope key = some names := by
  cases h with
  | looked h =>
    cases h with
    | known _ => exact hknown
    | settled hnew hopen hscopes _ =>
      rw [known?_remember hscopes hopen hnew, if_neg, hknown]
      rintro ⟨rfl, rfl⟩
      rw [hnew] at hknown
      cases hknown
    | refused _ _ hscopes _ _ => rw [known?_of_scopes hscopes, hknown]
    | closed _ _ => exact hknown
  | asked _ _ hscopes => rw [known?_of_scopes hscopes, hknown]
  | wrote hscopes => rw [known?_of_scopes hscopes, hknown]
  | opened _ hscopes =>
    rw [known?_of_scopes hscopes, known?_openScope, if_neg, hknown]
    rintro rfl
    rw [known?_of_le (Nat.le_refl _)] at hknown
    cases hknown
  | quiet _ hsame => rw [hsame, hknown]

theorem Moves.known {new : List Event} (h : s.Moves new t) {names : EntityNames}
    (hknown : s.known? scope key = some names) : t.known? scope key = some names := by
  induction h with
  | refl => exact hknown
  | tail _ hmove ih => exact hmove.known ih

end Session

/-! ## Requests are moves -/

namespace Database

variable {db : Database} {e : Entity} {s t : Session} {events : List Event}

/-- Names that were handed out are known. -/
theorem Looks.known_of_ok {names : EntityNames} (h : db.Looks e s events (.ok names) t) :
    t.known? db.scope e.key = some names := by
  cases h with
  | known hknown => exact hknown
  | settled hnew hopen hscopes _ =>
    rw [Session.known?_remember hscopes hopen hnew, if_pos ⟨rfl, rfl⟩]

end Database

/-- What serves an entity makes moves. Names that were handed out before have to be known. -/
theorem Action.Serves.moves {db : Database} {e : Entity} {known : Option EntityNames} {α : Type}
    {m : Action α} (served : Serves db e known m) {s : Session}
    (hknown : ∀ names ∈ known, s.known? db.scope e.key = some names) :
    s.Moves (served.events s) (m s).2 := by
  induction served generalizing s with
  | found x h => exact .refl
  | signal =>
    obtain ⟨t, ht, -, -, hscopes⟩ : ∃ t, db.signalChange s = (.ok (), t) ∧ _ :=
      Database.signalChange_eq
    rw [ht]
    exact (Session.Move.of_scopes hscopes).moves
  | named next ih =>
    have hlooks := db.names_looks e s
    refine events_bind Session.Moves.trans (Session.Move.looked hlooks).moves
      fun names t hnames => ih names ?_
    rintro _ ⟨⟩
    rw [hnames] at hlooks
    exact hlooks.known_of_ok
  | asked x h hbuilt next ih =>
    cases x with
    | error failure =>
      rw [bind_of_error (lift_of_error rfl)]
      exact .refl
    | ok t =>
      rw [bind_of_ok (lift_of_ok rfl)]
      obtain ⟨r, u, hsend, hscopes, -, -⟩ := db.send_sends (some e) t s
      have hmoves : s.Moves (db.sendEvents (some e) (t.statement db.dialect.style) s)
          (db.send t s).2 := by
        rw [hsend, Database.sendEvents]
        split
        · exact (Session.Move.asked (hknown _ rfl) (hbuilt t rfl) hscopes).moves
        · exact (Session.Move.of_scopes hscopes).moves
      refine events_bind Session.Moves.trans hmoves fun result v hresult => ih t result ?_
      rintro _ ⟨⟩
      rw [hresult] at hmoves
      exact hmoves.known (hknown _ rfl)
  | bind first next ihfirst ihnext =>
    refine events_bind Session.Moves.trans (ihfirst hknown) fun a t hresult => ihnext a ?_
    intro names hnames
    -- names that were handed out before stay known while the first action runs
    have hmoves := ihfirst hknown
    rw [hresult] at hmoves
    exact hmoves.known (hknown names hnames)

/-- A request makes moves. -/
theorem Database.Request.moves (db : Database) (r : Request) (s : Session) :
    s.Moves (r.events db s) (r.perform db s).2 := by
  cases r with
  | operate e op => exact (op.served ⟨e, db⟩).moves nofun
  | condition e f => exact (db.conditionServed e f).moves nofun
  | execute sql params arguments =>
    obtain ⟨r, t, hsend, hscopes, -, -⟩ := db.execute_sends none sql params arguments s
    rw [perform_execute, hsend, events, sendEvents]
    split
    · exact (Session.Move.wrote hscopes).moves
    · exact (Session.Move.of_scopes hscopes).moves

/-! ## Runs -/

namespace Session

variable {s t : Session} {events : List Event}

/-- A step in the use of a session, with its events. -/
inductive Happens (s : Session) : List Event → Session → Prop
  /-- A request through a handle. -/
  | request (db : Database) (r : Database.Request) : Happens s (r.events db s) (r.perform db s).2
  /-- The tables of entities are created. -/
  | schema (db : Database) (es : List Entity) : Happens s [] (db.ensureSchema es s).2
  /-- A transaction is opened. -/
  | opened (db : Database) (h : s.isOpen db.scope = true) :
    Happens s [.opened db s.scopes.length] (db.openTransaction s).2
  /-- A scope ends. -/
  | ended (scope : Nat) : Happens s [] (s.closeScope scope)
  /-- The end of a transaction is recorded. -/
  | recorded (sql : String) : Happens s [] (s.record sql [])
  /-- An answer is put in line. -/
  | expected (answer : Scripted) : Happens s [] (s.expect answer)
  /-- Statements and answers are forgotten. -/
  | cleared : Happens s [] s.clear

/-- A run from the beginning, with its events. -/
inductive Trace : List Event → Session → Prop
  | fresh : Trace [] .fresh
  | step {events new : List Event} {s t : Session} (h : Trace events s) (hstep : s.Happens new t) :
    Trace (events ++ new) t

/-- The runs with events are the runs that there are. -/
theorem exists_trace_iff : (∃ events, Trace events s) ↔ fresh.LeadsTo s := by
  constructor
  · rintro ⟨events, h⟩
    induction h with
    | fresh => exact .refl
    | step _ hstep ih =>
      refine ih.tail ?_
      cases hstep with
      | request db r => exact .request db r
      | schema db es => exact .schema db es
      | opened db _ => exact .opened db
      | ended scope => exact .ended scope
      | recorded sql => exact .recorded sql
      | expected answer => exact .expected answer
      | cleared => exact .cleared
  · intro h
    induction h with
    | refl => exact ⟨[], .fresh⟩
    | @tail t u _ hstep ih =>
      obtain ⟨events, htrace⟩ := ih
      have hhappens : (∃ new, t.Happens new u) ∨ u = t := by
        cases hstep with
        | request db r => exact .inl ⟨_, .request db r⟩
        | schema db es => exact .inl ⟨_, .schema db es⟩
        | opened db =>
          cases hopen : t.isOpen db.scope with
          | true => exact .inl ⟨_, .opened db hopen⟩
          | false =>
            rw [Database.openTransaction_eq, hopen]
            exact .inr rfl
        | ended scope => exact .inl ⟨_, .ended scope⟩
        | recorded sql => exact .inl ⟨_, .recorded sql⟩
        | expected answer => exact .inl ⟨_, .expected answer⟩
        | cleared => exact .inl ⟨_, .cleared⟩
      rcases hhappens with ⟨new, hhappens⟩ | rfl
      · exact ⟨_, htrace.step hhappens⟩
      · exact ⟨events, htrace⟩

/-- A step makes moves. -/
theorem Happens.moves {new : List Event} (h : s.Happens new t) : s.Moves new t := by
  cases h with
  | request db r => exact r.moves db s
  | schema db es => exact (Move.of_scopes (db.scopes_ensureSchema es s)).moves
  | opened db hopen =>
    rw [Database.openTransaction_eq, if_pos hopen]
    exact Move.moves (.opened hopen rfl)
  | ended scope =>
    exact (Move.quiet (List.length_modify _ _ _) (known?_closeScope scope)).moves
  | recorded sql => exact Move.moves (.of_scopes rfl)
  | expected answer => exact Move.moves (.of_scopes rfl)
  | cleared => exact Move.moves (.of_scopes rfl)

/-- After a run the session knows what the events say, and the events fit. -/
theorem Trace.agrees (h : Trace events s) : s.Agrees events ∧ Event.AllFit [] events := by
  induction h with
  | fresh => exact ⟨.fresh, trivial⟩
  | step _ hstep ih =>
    obtain ⟨hagrees, hfits⟩ := hstep.moves.agrees ih.1
    exact ⟨hagrees, Event.allFit_append.2 ⟨ih.2, hfits⟩⟩

end Session

/-! ## In time -/

/-- The first event of looking up names that are not known. -/
theorem Database.lookupEvents_of_new {db : Database} {e : Entity} {s : Session}
    (hopen : s.isOpen db.scope = true) (hnew : s.known? db.scope e.key = none) :
    ∃ first rest, db.lookupEvents e s = first :: rest ∧ first.Asks db.scope e.key := by
  rw [lookupEvents, hnew]
  dsimp only
  split
  · exact ⟨_, _, rfl, rfl, rfl⟩
  · exact ⟨_, _, if_pos hopen, rfl, rfl⟩

/-- The names are looked up before anything else is done with the session; only a failure that is
found without it may come before. -/
inductive Action.Serves.LooksFirst {db : Database} {e : Entity} :
    {α : Type} → {m : Action α} → Serves db e none m → Prop
  | named {α : Type} {f : EntityNames → Action α}
    (next : ∀ names, Serves db e (some names) (f names)) : LooksFirst (.named next)
  | found {α β : Type} {x : Except Failure α} {f : α → Action β} {h}
    {next : ∀ a, Serves db e none (f a)} (hplain : FailsAs Failure.IsPlain x)
    (hnext : ∀ a, LooksFirst (next a)) : LooksFirst (.bind (.found x h) next)
  | bind {α β : Type} {m : Action α} {f : α → Action β} {first : Serves db e none m}
    {next : ∀ a, Serves db e none (f a)} (hfirst : LooksFirst first) :
    LooksFirst (.bind first next)

/-- An entity that is not known is asked for, unless there is a failure before. -/
theorem Action.Serves.LooksFirst.asks {db : Database} {e : Entity} {α : Type} {m : Action α}
    {served : Serves db e none m} (h : served.LooksFirst) {s : Session}
    (hopen : s.isOpen db.scope = true) (hnew : s.known? db.scope e.key = none) :
    (∃ event rest, served.events s = event :: rest ∧ event.Asks db.scope e.key) ∨
      served.events s = [] ∧ ∃ failure : Failure, failure.IsPlain ∧ m s = (.error failure, s) := by
  induction h with
  | named next =>
    obtain ⟨first, rest, hevents, hasks⟩ := Database.lookupEvents_of_new hopen hnew
    rw [events, hevents]
    exact .inl ⟨first, _, rfl, hasks⟩
  | @found _ _ x _ _ _ hplain _ ih =>
    rw [events, events, List.nil_append]
    cases x with
    | error failure => exact .inr ⟨rfl, failure, hplain failure rfl, bind_of_error rfl⟩
    | ok a =>
      rw [bind_of_ok (lift_of_ok rfl)]
      exact ih a
  | bind _ ih =>
    rw [events]
    rcases ih with ⟨event, rest, hevents, hasks⟩ | ⟨hevents, failure, hplain, hresult⟩
    · rw [hevents]
      exact .inl ⟨event, _, rfl, hasks⟩
    · rw [hevents, hresult, bind_of_error hresult]
      exact .inr ⟨rfl, failure, hplain, rfl⟩

/-- Operations look up names first. -/
theorem Operation.looksFirst (st : Store) (op : Operation) : (op.served st).LooksFirst := by
  cases op with
  | count f => exact .bind (.named _)
  | find o => exact .bind (.named _)
  | insert data => exact .bind (.named _)
  | update id data =>
    exact .bind (.found (Store.identityValues_failsAs "update" id) fun before => .named _)
  | delete id =>
    exact .bind (.found (Store.identityValues_failsAs "delete" id) fun identity => .named _)
  | bulkInsert rows => exact .bind (.named _)

/-- A request that is about an entity asks for it if it is not known, unless there is a failure
before. -/
theorem Database.Request.asks_first {db : Database} {r : Request} {e : Entity} {s : Session}
    (habout : r.about db = some e) (hopen : s.isOpen db.scope = true)
    (hnew : s.known? db.scope e.key = none) :
    (∃ event rest, r.events db s = event :: rest ∧ event.Asks db.scope e.key) ∨
      r.events db s = [] ∧
        ∃ failure : Failure, failure.IsPlain ∧ r.perform db s = (.error failure, s) := by
  cases r with
  | operate e' op =>
    cases habout
    exact (op.looksFirst ⟨e, db⟩).asks hopen hnew
  | condition e' f =>
    cases habout
    have hfirst : (db.conditionServed e' f).LooksFirst := .bind (.named _)
    exact hfirst.asks hopen hnew
  | execute sql params arguments => cases habout

namespace Session

variable {s t : Session} {events : List Event}

/-- What a step announces is in its events. -/
theorem Happens.firstUses {new : List Event} (h : s.Happens new t) :
    t.firstUses = s.firstUses ++ new.filterMap Event.firstUse? := by
  have hquiet : ∀ {t : Session}, t.firstUses = s.firstUses →
      t.firstUses = s.firstUses ++ ([] : List Event).filterMap Event.firstUse? := by
    intro t huses
    rw [huses, List.filterMap_nil, List.append_nil]
  cases h with
  | request db r => exact (r.events_account db s).firstUses
  | schema db es =>
    exact hquiet (Database.ensureSchema_keeps Session.firstUses (fun _ _ => rfl) (fun _ _ => rfl)
      db es s)
  | opened db hopen =>
    rw [Database.openTransaction_eq, if_pos hopen]
    exact hquiet rfl
  | ended scope => exact hquiet rfl
  | recorded sql => exact hquiet rfl
  | expected answer => exact hquiet rfl
  | cleared => exact hquiet rfl

/-- The entities that the database was told of are in the events. -/
theorem Trace.firstUses (h : Trace events s) : s.firstUses = events.filterMap Event.firstUse? := by
  induction h with
  | fresh => rfl
  | step _ hstep ih => rw [hstep.firstUses, ih, List.filterMap_append]

/-- Entities are announced once and in time, and the events tell all that is announced and sent.
Through each scope the database is told at most once of an entity of each key, and is not asked
again after that. A statement for an entity is sent when its key is known: announced through the
scope, or known to the parent when the scope was opened. What the parent knew is not announced
through the new scope, and what is announced there stays unknown to the parent: whatever happened
since, a request through the parent asks before anything else happens. -/
theorem Trace.announces_first_uses (h : Trace events s) :
    (s.firstUses = events.filterMap Event.firstUse? ∧
      ∀ (db : Database) (r : Database.Request), (r.perform db s).2.statements =
        s.statements ++ (r.events db s).filterMap Event.statement?) ∧
      (∀ scope key, events.Pairwise fun m m' => m.Announces scope key → ¬ m'.Asks scope key) ∧
      (∀ before db e x after, events = before ++ .sent db (some e) x :: after →
        Event.Knows before db.scope e.key) ∧
      ∀ before db inner after key, events = before ++ .opened db inner :: after →
        (Event.Knows before db.scope key → ∀ m ∈ after, ¬ m.Asks inner key) ∧
        (¬ Event.Knows before db.scope key → (∀ m ∈ after, ¬ m.Announces db.scope key) →
          s.isOpen db.scope = true →
            ∀ (outer : Database) (r : Database.Request) (e : Entity), outer.scope = db.scope →
              r.about outer = some e → e.key = key →
                (∃ m rest, r.events outer s = m :: rest ∧ m.Asks db.scope key) ∨
                  r.events outer s = [] ∧ ∃ failure : Failure, failure.IsPlain ∧
                    r.perform outer s = (.error failure, s)) := by
  obtain ⟨hagrees, hfits⟩ := h.agrees
  refine ⟨⟨h.firstUses, fun db r => (r.events_account db s).statements⟩,
    fun scope key => hfits.once, ?_, ?_⟩
  · rintro before db e x after rfl
    obtain ⟨first, q, hsettled, hkey, -⟩ := hfits.fits
    exact ⟨first, q, hsettled, hkey⟩
  · rintro before db inner after key rfl
    obtain ⟨-, hopened, hafter⟩ := Event.allFit_append.1 hfits
    rw [List.nil_append] at hopened hafter
    refine ⟨fun hknows => ?_, fun hnew hsilent hopen outer r e hscope habout hkey => ?_⟩
    · obtain ⟨e, q, hsettled, hkey⟩ := hknows
      exact hafter.not_asks ⟨e, q, .inherited hsettled, hkey⟩
    · subst hkey
      -- the parent was there before, so that it learns by announcements alone
      have hunknown : ¬ Event.Knows (before ++ .opened db inner :: after) db.scope e.key :=
        Event.AllFit.not_knows ⟨hopened, hafter⟩ hopened.1 hnew
          (List.forall_mem_cons.2 ⟨id, hsilent⟩)
      rw [← hscope] at hunknown hopen ⊢
      refine r.asks_first habout hopen ?_
      cases hknown : s.known? outer.scope e.key with
      | none => rfl
      | some names =>
        obtain ⟨first, q, hsettled, hkey, -⟩ := hagrees.known hknown
        exact absurd ⟨first, q, hsettled, hkey⟩ hunknown

/-- An entity that is used in a transaction first. -/
def ledger : Entity :=
  { key := "entry", table := "ledger", fields := [.ofType "id" .integer], identity := ["id"] }

/-- The outer handle, and the one of its transaction. -/
def outerHandle : Database := .root .plain .off
def innerHandle : Database := { outerHandle with scope := 1, depth := 1 }

/-- The session after a count in a transaction that was rolled back. -/
def rolledBack : Session :=
  let counted := (Database.Request.operate ledger (.count .everything)).perform innerHandle
    (outerHandle.openTransaction fresh).2
  (counted.2.closeScope 1).record "rollback" []

theorem announces_first_uses_rolledBack :
    let count : Database.Request := .operate ledger (.count .everything)
    rolledBack.firstUses = ["entry"] ∧
      ∃ m rest, count.events outerHandle rolledBack = m :: rest ∧ m.Asks 0 "entry" := by
  intro count
  have hopened := Trace.step .fresh (.opened outerHandle rfl)
  have hcounted := hopened.step (.request innerHandle count)
  have htrace : Trace (.opened outerHandle 1 :: [.announced innerHandle ledger,
      .named innerHandle ledger (.resolve ledger .bare),
      .sent innerHandle (some ledger) ⟨"select count(*) as count from ledger", []⟩]) rolledBack :=
    (hcounted.step (.ended 1)).step (.recorded "rollback")
  obtain ⟨⟨huses, -⟩, -, -, hscopes⟩ := htrace.announces_first_uses
  have hnew : ¬ Event.Knows [] outerHandle.scope "entry" := by
    rintro ⟨e, q, hsettled, -⟩
    exact Event.not_settled_nil hsettled
  have hsilent : ∀ m ∈ [Event.announced innerHandle ledger,
      .named innerHandle ledger (.resolve ledger .bare),
      .sent innerHandle (some ledger) ⟨"select count(*) as count from ledger", []⟩],
      ¬ m.Announces outerHandle.scope "entry" := by
    simp [Event.Announces, innerHandle, outerHandle, Database.root]
  have hasks := (hscopes [] outerHandle 1 _ "entry" rfl).2 hnew hsilent rfl outerHandle count
    ledger rfl rfl rfl
  refine ⟨huses, hasks.resolve_right ?_⟩
  rintro ⟨hnone, -⟩
  cases hnone

end Session

end EntitySql
