import EntitySql.Proofs.Faults
import Mathlib.Data.Set.List
import Mathlib.Logic.Relation

/-!
# Raw filters at work

Building a raw filter may take work in the world outside, such as a query whose
answer the filter needs. All raw filters of a filter are at work at the same
time, and nothing is known of how long each of them takes. They are polled in
rounds; too many for rounds are polled in any order, and their results are asked
for in the order of the tree.

- `Builder`: who builds raw filters, and what a poll of work may come to.
- `Builder.Steps`: polls of raw filters at work, in any order.
- `Builder.Awaits`: the polls until a failure is found.
- `Ends`: how the wait for raw filters ends.
- `Builder.Steps.forall₂`: what each poll keeps is kept of every raw filter.
- `Builder.writes_of_steps`: each template is cut from a text of its own filter.
-/

namespace EntitySql

/-- The place of a raw filter while all of them are awaited. -/
inductive Slot (S : Type) where
  /-- The raw filter is at work. -/
  | running (work : S)
  /-- The work is done, and the text was cut. -/
  | finished (result : Except Failure Template)

namespace Slot

variable {S : Type}

/-- What a poll leaves in a place: more work, or what a text was cut into. -/
def ofPoll : S ⊕ Except Failure RawText → Slot S
  | .inl work => running work
  | .inr result => finished (result >>= piecesOf)

/-- The failure of a raw filter that has failed. -/
def failure? : Slot S → Option Failure
  | running _ => none
  | finished result => fault? result

/-- Whether a raw filter has come to its template. -/
def isDone : Slot S → Bool
  | running _ => false
  | finished result => (fault? result).isNone

/-- The failure that ends the wait. All raw filters are looked at, or the results are asked for in
their order, if they are too many for rounds. -/
def found? (slots : List (Slot S)) : Option Failure :=
  if slots.length ≤ Job.mostInRounds then slots.findSome? failure?
  else (slots.find? fun slot => !slot.isDone).bind failure?

theorem found?_of_le {slots : List (Slot S)} (h : slots.length ≤ Job.mostInRounds) :
    found? slots = slots.findSome? failure? := if_pos h

theorem found?_of_lt {slots : List (Slot S)} (h : Job.mostInRounds < slots.length) :
    found? slots = (slots.find? fun slot => !slot.isDone).bind failure? := if_neg (Nat.not_le.2 h)

theorem isDone_iff {slot : Slot S} : slot.isDone = true ↔ ∃ t, finished (.ok t) = slot := by
  cases slot with
  | running work => simp [isDone]
  | finished result => cases result <;> simp [isDone, fault?]

/-- If no raw filter is at work and none is found to have failed, all have come to their
templates. -/
theorem exists_map_finished {slots : List (Slot S)} (hfound : found? slots = none)
    (hwork : ∀ work, running work ∉ slots) :
    ∃ ts : List Template, ts.map (fun t => finished (.ok t)) = slots := by
  have hdone : ∀ slot ∈ slots, slot.failure? = none → slot.isDone = true := by
    intro slot hslot hfailure
    cases slot with
    | running work => exact absurd hslot (hwork work)
    | finished result =>
      rw [isDone, Option.isNone_iff_eq_none]
      exact hfailure
  have hall : ∀ slot ∈ slots, slot.isDone = true := by
    rcases Nat.lt_or_ge Job.mostInRounds slots.length with hmany | hfew
    · rw [found?_of_lt hmany] at hfound
      cases hfind : slots.find? fun slot => !slot.isDone with
      | none => simpa using hfind
      | some slot =>
        rw [hfind] at hfound
        have hnot := List.find?_some hfind
        rw [hdone slot (List.mem_of_find?_eq_some hfind) hfound] at hnot
        cases hnot
    · rw [found?_of_le hfew, List.findSome?_eq_none_iff] at hfound
      exact fun slot hslot => hdone slot hslot (hfound slot hslot)
  have hrange : slots ∈ Set.range (List.map fun t => (finished (.ok t) : Slot S)) := by
    rw [Set.range_list_map]
    exact fun slot hslot => isDone_iff.1 (hall slot hslot)
  exact hrange

end Slot

/-- Who builds raw filters. -/
structure Builder (W : Type) where
  /-- What is left to do for a raw filter. -/
  Work : Type
  start : List RawPart → Work
  /-- A poll of work in a world may come to more work or to a result, in another world. -/
  Polls : Work → W → Work ⊕ Except Failure RawText → W → Prop

namespace Builder

variable {W : Type}

section

variable (build : Builder W)

/-- Raw filters at the beginning of their work. -/
def slots (rs : List (List RawPart)) : List (Slot build.Work) :=
  rs.map fun parts => .running (build.start parts)

/-- One of the raw filters at work is polled. -/
inductive Step : List (Slot build.Work) → W → List (Slot build.Work) → W → Prop
  | here {work : build.Work} {next : build.Work ⊕ Except Failure RawText} {w w' : W}
    {rest : List (Slot build.Work)} (h : build.Polls work w next w') :
    Step (.running work :: rest) w (.ofPoll next :: rest) w'
  | there {slot : Slot build.Work} {w w' : W} {rest rest' : List (Slot build.Work)}
    (h : Step rest w rest' w') : Step (slot :: rest) w (slot :: rest') w'

/-- Raw filters at work are polled, in any order and any number of times. -/
def Steps : List (Slot build.Work) × W → List (Slot build.Work) × W → Prop :=
  Relation.ReflTransGen fun a b => build.Step a.1 a.2 b.1 b.2

/-- Each of the raw filters at work is polled once, in their order, up to a poll that fails. -/
inductive Round : List (Slot build.Work) → W → List (Slot build.Work) → W → Prop
  | nil {w : W} : Round [] w [] w
  | finished {result : Except Failure Template} {rest rest' : List (Slot build.Work)} {w w' : W}
    (hrest : Round rest w rest' w') :
    Round (.finished result :: rest) w (.finished result :: rest') w'
  | polled {work : build.Work} {next : build.Work ⊕ Except Failure RawText}
    {rest rest' : List (Slot build.Work)} {w w' w'' : W} (h : build.Polls work w next w')
    (hnext : (Slot.ofPoll next).failure? = none) (hrest : Round rest w' rest' w'') :
    Round (.running work :: rest) w (.ofPoll next :: rest') w''
  | failed {work : build.Work} {next : build.Work ⊕ Except Failure RawText}
    {rest : List (Slot build.Work)} {w w' : W} {failure : Failure} (h : build.Polls work w next w')
    (hnext : (Slot.ofPoll next).failure? = some failure) :
    Round (.running work :: rest) w (.ofPoll next :: rest) w'

/-- What is polled next: all raw filters in a round, or any of them if they are too many. -/
def Turn (a b : List (Slot build.Work) × W) : Prop :=
  if a.1.length ≤ Job.mostInRounds then build.Round a.1 a.2 b.1 b.2 else build.Step a.1 a.2 b.1 b.2

/-- Raw filters are awaited together until a failure is found. -/
def Awaits : List (Slot build.Work) × W → List (Slot build.Work) × W → Prop :=
  Relation.ReflTransGen fun a b => Slot.found? a.1 = none ∧ build.Turn a b

/-- Work that a raw filter may come to by polls. -/
inductive Reaches (parts : List RawPart) : build.Work → Prop
  | start : Reaches parts (build.start parts)
  | poll {work work' : build.Work} {w w' : W} (h : Reaches parts work)
    (hpoll : build.Polls work w (.inl work') w') : Reaches parts work'

/-- A text, with its values, that a raw filter may come to. -/
def Writes (parts : List RawPart) (r : RawText) : Prop :=
  ∃ work w w', build.Reaches parts work ∧ build.Polls work w (.inr (.ok r)) w'

end

end Builder

/-- How the wait for raw filters may end: with the templates of all of them, or with a failure that
is found. -/
inductive Ends {S : Type} (slots : List (Slot S)) : Except Failure (List Template) → Prop
  | all {ts : List Template} (h : slots = ts.map fun t => .finished (.ok t)) : Ends slots (.ok ts)
  | failed {failure : Failure} (h : Slot.found? slots = some failure) : Ends slots (.error failure)

namespace Builder

variable {W : Type} {build : Builder W}

/-! ## What polls keep -/

/-- What each poll keeps of the raw filter that is polled is kept of all. -/
theorem Step.forall₂ {R : List RawPart → Slot build.Work → Prop}
    (hpoll : ∀ parts work w next w', R parts (.running work) → build.Polls work w next w' →
      R parts (.ofPoll next))
    {slots slots' : List (Slot build.Work)} {w w' : W} (h : build.Step slots w slots' w') :
    ∀ {rs : List (List RawPart)}, List.Forall₂ R rs slots → List.Forall₂ R rs slots' := by
  induction h with
  | here h =>
    rintro _ (_ | ⟨hwork, hrest⟩)
    exact .cons (hpoll _ _ _ _ _ hwork h) hrest
  | there _ ih =>
    rintro _ (_ | ⟨hslot, hrest⟩)
    exact .cons hslot (ih hrest)

/-- What each poll keeps of the raw filter that is polled is kept of all while they are at work. -/
theorem Steps.forall₂ {R : List RawPart → Slot build.Work → Prop}
    (hpoll : ∀ parts work w next w', R parts (.running work) → build.Polls work w next w' →
      R parts (.ofPoll next))
    {rs : List (List RawPart)} {a b : List (Slot build.Work) × W} (h : build.Steps a b)
    (hstart : List.Forall₂ R rs a.1) : List.Forall₂ R rs b.1 := by
  induction h with
  | refl => exact hstart
  | tail _ hstep ih => exact hstep.forall₂ hpoll ih

/-- What holds of each raw filter at the beginning of its work holds of all. -/
theorem forall₂_slots {R : List RawPart → Slot build.Work → Prop}
    (h : ∀ parts, R parts (.running (build.start parts))) (rs : List (List RawPart)) :
    List.Forall₂ R rs (build.slots rs) := by
  rw [slots, List.forall₂_map_right_iff, List.forall₂_same]
  exact fun parts _ => h parts

/-- What is known of a raw filter while it is awaited. -/
def Keeps (build : Builder W) (parts : List RawPart) : Slot build.Work → Prop
  | .running work => build.Reaches parts work
  | .finished (.ok t) => ∃ r, build.Writes parts r ∧ piecesOf r = .ok t
  | .finished (.error _) => True

/-- A poll takes work to more of its own work, or to a text of its own. -/
theorem keeps_ofPoll {parts : List RawPart} {work : build.Work} {w w' : W}
    {next : build.Work ⊕ Except Failure RawText} (hwork : build.Reaches parts work)
    (h : build.Polls work w next w') : build.Keeps parts (.ofPoll next) := by
  cases next with
  | inl work' => exact hwork.poll h
  | inr result =>
    cases result with
    | error failure => trivial
    | ok r =>
      cases hpieces : piecesOf r with
      | error failure =>
        rw [Slot.ofPoll, ok_bind, hpieces]
        trivial
      | ok t =>
        rw [Slot.ofPoll, ok_bind, hpieces]
        exact ⟨r, ⟨work, w, w', hwork, h⟩, hpieces⟩

/-- Whatever the order of polls, a template is cut from a text that its own raw filter wrote. -/
theorem writes_of_steps {rs : List (List RawPart)} {w w' : W} {slots : List (Slot build.Work)}
    (h : build.Steps (build.slots rs, w) (slots, w')) : List.Forall₂ (build.Keeps) rs slots :=
  h.forall₂ (fun _ _ _ _ _ => keeps_ofPoll) (forall₂_slots (fun _ => .start) rs)

/-- A poll does not change how many raw filters there are. -/
theorem Steps.length_eq {a b : List (Slot build.Work) × W} (h : build.Steps a b) :
    b.1.length = a.1.length := by
  have hstep : ∀ {slots slots' w w'}, build.Step slots w slots' w' →
      slots'.length = slots.length := by
    intro slots slots' w w' h
    induction h with
    | here _ => rfl
    | there _ ih => exact congrArg (· + 1) ih
  induction h with
  | refl => rfl
  | tail _ h ih => exact (hstep h).trans ih

/-! ## Rounds are polls in some order -/

/-- A poll of one raw filter leaves the others where they are. -/
theorem Steps.there {slot : Slot build.Work} {rest rest' : List (Slot build.Work)} {w w' : W}
    (h : build.Steps (rest, w) (rest', w')) :
    build.Steps (slot :: rest, w) (slot :: rest', w') :=
  Relation.ReflTransGen.lift (fun a : List (Slot build.Work) × W => (slot :: a.1, a.2))
    (fun _ _ hstep => Step.there hstep) _ _ h

theorem Round.steps {slots slots' : List (Slot build.Work)} {w w' : W}
    (h : build.Round slots w slots' w') : build.Steps (slots, w) (slots', w') := by
  induction h with
  | nil => exact .refl
  | finished _ ih => exact ih.there
  | polled h _ _ ih => exact .head (.here h) ih.there
  | failed h _ => exact .single (.here h)

theorem Turn.steps {a b : List (Slot build.Work) × W} (h : build.Turn a b) : build.Steps a b := by
  rw [Turn] at h
  split at h
  · exact h.steps
  · exact .single h

/-- Raw filters that are awaited are polled in some order. -/
theorem Awaits.steps {a b : List (Slot build.Work) × W} (h : build.Awaits a b) :
    build.Steps a b := by
  induction h with
  | refl => exact .refl
  | tail _ hturn ih => exact ih.trans hturn.2.steps

end Builder

end EntitySql
