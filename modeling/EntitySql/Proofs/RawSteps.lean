import EntitySql.Proofs.Builders

/-!
# Raw filters that are made of steps

A raw filter that is a list of steps does all of its work by itself: it leaves
the world as it is, and how often it waits is told by its steps. So there is no
choice in how the wait for such filters ends. It ends as it is computed for jobs
that are awaited together.

- `Builder.ofSteps`: the builder whose work is that of the steps of a raw filter.
- `Builder.outcomes_of_steps`: polls do not change what a raw filter comes to.
- `Builder.joinAll_of_awaits`: the wait ends as jobs end that are awaited together.
- `Builder.exists_ends`: the wait comes to an end.
- `Builder.ends_ofSteps_iff`: so it ends in one way.
-/

namespace EntitySql

/-- What a poll of work comes to. -/
def Job.polled {α : Type} : Job α → Job α ⊕ Except Failure α
  | done r => .inr r
  | wait t => .inl t

namespace Slot

/-- What is left to do for the template of a raw filter. -/
def job : Slot (Job RawText) → Job Template
  | running t => t.andThen piecesOf
  | finished result => .done result

/-- How many polls are left to do for a raw filter. -/
def left : Slot (Job RawText) → Nat
  | running t => t.waits + 1
  | finished _ => 0

theorem left_ofPoll (t : Job RawText) : (ofPoll t.polled).left < (running t).left := by
  cases t with
  | done r => exact Nat.succ_pos 0
  | wait t => exact Nat.lt_succ_self _

/-- A poll of what is left to do fails with the failure that is left in the place. -/
theorem poll_running (t : Job RawText) : (running t).job.poll =
    (ofPoll t.polled).failure?.elim (.ok (ofPoll t.polled).job) .error := by
  cases t with
  | wait t => rfl
  | done r =>
    show (Job.done (r >>= piecesOf)).poll =
      (fault? (r >>= piecesOf)).elim (.ok (Job.done (r >>= piecesOf))) .error
    cases r >>= piecesOf <;> rfl

theorem poll_finished {result : Except Failure Template} (h : fault? result = none) :
    (finished result).job.poll = .ok (finished result).job := by
  obtain ⟨t, rfl⟩ := fault?_eq_none.1 h
  rfl

end Slot

namespace Builder

/-- The builder whose work is that of steps; it leaves the world as it is. -/
@[reducible] def ofSteps (names : EntityNames) (W : Type) : Builder W where
  Work := Job RawText
  start parts := RawPart.work names parts ⟨"", []⟩
  Polls t w next w' := next = t.polled ∧ w' = w

variable {W : Type} {names : EntityNames} {rs : List (List RawPart)} {w w' : W}

theorem map_job_slots (rs : List (List RawPart)) :
    ((ofSteps names W).slots rs).map Slot.job = rs.map (RawPart.build names) := by
  rw [slots, List.map_map]
  rfl

/-! ## What polls keep -/

/-- Whatever the order of polls, raw filters that are made of steps come to their templates. -/
theorem outcomes_of_steps {slots : List (Slot (Job RawText))}
    (h : (ofSteps names W).Steps ((ofSteps names W).slots rs, w) (slots, w')) :
    List.Forall₂ (fun parts slot => slot.job.result = RawPart.template names parts) rs slots := by
  have hstart : List.Forall₂ (fun parts slot => slot.job.result = RawPart.template names parts) rs
      ((ofSteps names W).slots rs) := forall₂_slots RawPart.result_build rs
  refine h.forall₂ ?_ hstart
  rintro parts t v _ _ hwork ⟨rfl, rfl⟩
  rw [← hwork]
  cases t with
  | done r => rfl
  | wait t => rfl

/-- Steps leave the world as it is. -/
theorem world_of_steps {a b : List (Slot (Job RawText)) × W} (h : (ofSteps names W).Steps a b) :
    b.2 = a.2 := by
  have hstep : ∀ {slots slots' w w'}, (ofSteps names W).Step slots w slots' w' → w' = w := by
    intro slots slots' w w' h
    induction h with
    | here h => exact h.2
    | there _ ih => exact ih
  induction h with
  | refl => rfl
  | tail _ h ih => exact (hstep h).trans ih

/-! ## How the wait ends -/

/-- A round of raw filters is a round of jobs. -/
theorem mapM_poll_of_round {slots slots' : List (Slot (ofSteps names W).Work)}
    (h : (ofSteps names W).Round slots w slots' w') (hnone : slots.findSome? Slot.failure? = none) :
    (slots.map Slot.job).mapM Job.poll =
      (slots'.findSome? Slot.failure?).elim (.ok (slots'.map Slot.job)) .error := by
  induction h with
  | nil => rfl
  | @finished result rest rest' w w' _ ih =>
    have hresult : (Slot.finished result : Slot (Job RawText)).failure? = none :=
      List.findSome?_eq_none_iff.1 hnone _ List.mem_cons_self
    rw [List.findSome?_cons_of_isNone (by rw [hresult]; rfl)] at hnone ⊢
    rw [List.map_cons, List.mapM_cons, Slot.poll_finished hresult, ok_bind, ih hnone]
    cases rest'.findSome? Slot.failure? <;> rfl
  | @polled t next rest rest' w w' w'' h hnext _ ih =>
    rw [h.1] at hnext ⊢
    rw [List.findSome?_cons_of_isNone rfl] at hnone
    rw [List.findSome?_cons_of_isNone (by rw [hnext]; rfl), List.map_cons, List.mapM_cons,
      Slot.poll_running, hnext, Option.elim_none, ok_bind, ih hnone]
    cases rest'.findSome? Slot.failure? <;> rfl
  | @failed t next rest w w' failure h hnext =>
    rw [h.1] at hnext ⊢
    rw [List.findSome?_cons_of_isSome (by rw [hnext]; rfl), List.map_cons, List.mapM_cons,
      Slot.poll_running, hnext]
    rfl

/-- The wait for raw filters that are polled in rounds ends with the failure that these rounds
find for jobs. -/
theorem joinIn_of_awaits {a b : List (Slot (ofSteps names W).Work) × W}
    (h : (ofSteps names W).Awaits a b) {failure : Failure}
    (hfound : Slot.found? b.1 = some failure) (hfew : a.1.length ≤ Job.mostInRounds)
    (hnone : Slot.found? a.1 = none) {n : Nat} (hn : ∀ t ∈ a.1.map Slot.job, t.waits ≤ n) :
    Job.joinIn n (a.1.map Slot.job) = .error failure := by
  induction h using Relation.ReflTransGen.head_induction_on with
  | refl => cases hfound.symm.trans hnone
  | @head a c hac hcb ih =>
    have hround := hac.2
    rw [Turn, if_pos hfew] at hround
    rw [Slot.found?_of_le hfew] at hnone
    have hpoll := mapM_poll_of_round hround hnone
    have hfew' : c.1.length ≤ Job.mostInRounds := by rwa [hround.steps.length_eq]
    rw [Job.joinIn_of_waits_le hn (fun t ht => Nat.le_succ_of_le (hn t ht)), Job.joinIn, hpoll]
    rw [← Slot.found?_of_le hfew'] at hpoll ⊢
    cases hc : Slot.found? c.1 with
    | none =>
      rw [hc] at hpoll
      refine ih hfew' hc fun t ht => ?_
      rw [(Job.round_eq_ok hpoll).2] at ht
      obtain ⟨u, hu, rfl⟩ := List.mem_map.1 ht
      have := hn u hu
      rw [Job.waits_next]
      omega
    | some failure' =>
      -- nothing is polled after a failure
      rcases Relation.ReflTransGen.cases_head hcb with rfl | ⟨_, hstep, -⟩
      · cases hc.symm.trans hfound
        rfl
      · cases hc.symm.trans hstep.1

/-- The first raw filter that has not come to its template is the first that fails. -/
theorem findSome?_of_find? {slots : List (Slot (Job RawText))} {failure : Failure}
    (h : List.Forall₂ (fun parts slot => slot.job.result = RawPart.template names parts) rs slots)
    (hfind : (slots.find? fun slot => !slot.isDone).bind Slot.failure? = some failure) :
    rs.findSome? (fun parts => fault? (RawPart.template names parts)) = some failure := by
  induction h with
  | nil => cases hfind
  | @cons parts slot rs slots hslot _ ih =>
    cases slot with
    | running t => cases hfind
    | finished result =>
      have hresult : result = RawPart.template names parts := hslot
      cases result with
      | error failure' =>
        rw [List.findSome?_cons_of_isSome (by rw [← hresult]; rfl), ← hresult]
        exact hfind
      | ok t =>
        rw [List.findSome?_cons_of_isNone (by rw [← hresult]; rfl)]
        exact ih hfind

/-- The wait for raw filters ends as jobs end that are awaited together. -/
theorem joinAll_of_awaits {slots : List (Slot (ofSteps names W).Work)}
    {result : Except Failure (List Template)}
    (h : (ofSteps names W).Awaits ((ofSteps names W).slots rs, w) (slots, w'))
    (hends : Ends slots result) : Job.joinAll (rs.map (RawPart.build names)) = result := by
  have houtcomes := outcomes_of_steps h.steps
  cases hends with
  | all hall =>
    subst hall
    rw [Job.joinAll_eq_ok, Condition.results_iff]
    exact (List.forall₂_map_right_iff.1 houtcomes).imp fun _ _ h => h.symm
  | failed hfound =>
    rcases Nat.lt_or_ge Job.mostInRounds rs.length with hmany | hfew
    · rw [Slot.found?_of_lt (houtcomes.length_eq ▸ hmany)] at hfound
      rw [Job.joinAll_eq_error_of_lt (by rwa [List.length_map]), List.findSome?_map]
      simp only [Function.comp_def, RawPart.result_build]
      exact findSome?_of_find? houtcomes hfound
    · have hfew' : ((ofSteps names W).slots rs).length ≤ Job.mostInRounds := by
        rwa [Builder.slots, List.length_map]
      have hnone : Slot.found? ((ofSteps names W).slots rs) = none := by
        rw [Slot.found?_of_le hfew', List.findSome?_eq_none_iff]
        intro slot hslot
        obtain ⟨parts, -, rfl⟩ := List.mem_map.1 hslot
        rfl
      rw [Job.joinAll, List.length_map, if_pos hfew, ← map_job_slots]
      exact joinIn_of_awaits h hfound hfew' hnone Job.waits_le_rounds

/-! ## That the wait ends -/

/-- How many polls are left to do for all raw filters. -/
def leftAll (slots : List (Slot (ofSteps names W).Work)) : Nat :=
  slots.foldr (fun slot n => slot.left + n) 0

theorem leftAll_cons (slot : Slot (ofSteps names W).Work)
    (rest : List (Slot (ofSteps names W).Work)) :
    leftAll (slot :: rest) = slot.left + leftAll rest := rfl

/-- A round does some of what is left to do, if there is a raw filter at work. -/
theorem exists_round {slots : List (Slot (ofSteps names W).Work)}
    (hnone : slots.findSome? Slot.failure? = none) :
    ∃ slots', (ofSteps names W).Round slots w slots' w ∧ leftAll slots' ≤ leftAll slots ∧
      ∀ t, .running t ∈ slots → leftAll slots' < leftAll slots := by
  induction slots with
  | nil => exact ⟨[], .nil, Nat.le_refl _, fun t ht => absurd ht List.not_mem_nil⟩
  | cons slot rest ih =>
    rw [List.findSome?_eq_none_iff, List.forall_mem_cons, ← List.findSome?_eq_none_iff] at hnone
    obtain ⟨rest', hround, hle, hlt⟩ := ih hnone.2
    cases slot with
    | finished result =>
      refine ⟨_, .finished hround, ?_, fun t ht => ?_⟩
      · rw [leftAll_cons, leftAll_cons]
        omega
      · have := hlt t (by simpa using ht)
        rw [leftAll_cons, leftAll_cons]
        omega
    | running t =>
      have hpolled := Slot.left_ofPoll t
      cases hnext : (Slot.ofPoll t.polled).failure? with
      | none =>
        have hless : leftAll (.ofPoll t.polled :: rest') < leftAll (.running t :: rest) := by
          rw [leftAll_cons, leftAll_cons]
          omega
        exact ⟨_, .polled ⟨rfl, rfl⟩ hnext hround, hless.le, fun _ _ => hless⟩
      | some failure =>
        have hless : leftAll (.ofPoll t.polled :: rest) < leftAll (.running t :: rest) := by
          rw [leftAll_cons, leftAll_cons]
          omega
        exact ⟨_, .failed ⟨rfl, rfl⟩ hnext, hless.le, fun _ _ => hless⟩

/-- A poll of a raw filter at work does some of what is left to do. -/
theorem exists_step {slots : List (Slot (ofSteps names W).Work)} {t : Job RawText}
    (h : .running t ∈ slots) :
    ∃ slots', (ofSteps names W).Step slots w slots' w ∧ leftAll slots' < leftAll slots := by
  obtain ⟨before, after, rfl⟩ := List.append_of_mem h
  have hpolled := Slot.left_ofPoll t
  induction before with
  | nil =>
    refine ⟨_, .here ⟨rfl, rfl⟩, ?_⟩
    rw [List.nil_append, leftAll_cons, leftAll_cons]
    omega
  | cons slot before ih =>
    obtain ⟨rest, hstep, hless⟩ := ih (List.mem_append_cons_self)
    refine ⟨_, .there hstep, ?_⟩
    rw [List.cons_append, leftAll_cons, leftAll_cons]
    omega

/-- As long as nothing is found, the raw filters at work are polled. -/
theorem exists_turn {slots : List (Slot (ofSteps names W).Work)}
    (hnone : Slot.found? slots = none) {t : Job RawText} (h : .running t ∈ slots) :
    ∃ slots', (ofSteps names W).Turn (slots, w) (slots', w) ∧ leftAll slots' < leftAll slots := by
  rcases Nat.lt_or_ge Job.mostInRounds slots.length with hmany | hfew
  · obtain ⟨slots', hstep, hless⟩ := exists_step h
    exact ⟨slots', by rwa [Turn, if_neg (Nat.not_le.2 hmany)], hless⟩
  · rw [Slot.found?_of_le hfew] at hnone
    obtain ⟨slots', hround, -, hlt⟩ := exists_round hnone
    exact ⟨slots', by rwa [Turn, if_pos hfew], hlt t h⟩

/-- The wait for raw filters that are made of steps comes to an end. -/
theorem exists_ends (w : W) (slots : List (Slot (ofSteps names W).Work)) :
    ∃ slots' result, (ofSteps names W).Awaits (slots, w) (slots', w) ∧ Ends slots' result := by
  cases hfound : Slot.found? slots with
  | some failure => exact ⟨slots, _, .refl, .failed hfound⟩
  | none =>
    by_cases hwork : ∃ t, .running t ∈ slots
    · obtain ⟨t, ht⟩ := hwork
      obtain ⟨next, hturn, hless⟩ := exists_turn (w := w) hfound ht
      obtain ⟨slots', result, hawaits, hends⟩ := exists_ends w next
      exact ⟨slots', result, .head ⟨hfound, hturn⟩ hawaits, hends⟩
    · obtain ⟨ts, rfl⟩ := Slot.exists_map_finished hfound (not_exists.1 hwork)
      exact ⟨_, _, .refl, .all rfl⟩
termination_by leftAll slots

/-- Raw filters that are made of steps end in one way, as jobs end that are awaited together, and
leave the world as it is. -/
theorem ends_ofSteps_iff {result : Except Failure (List Template)} :
    (∃ slots, (ofSteps names W).Awaits ((ofSteps names W).slots rs, w) (slots, w') ∧
      Ends slots result) ↔ w' = w ∧ Job.joinAll (rs.map (RawPart.build names)) = result := by
  constructor
  · rintro ⟨slots, hawaits, hends⟩
    exact ⟨world_of_steps hawaits.steps, joinAll_of_awaits hawaits hends⟩
  · rintro ⟨rfl, rfl⟩
    obtain ⟨slots, result, hawaits, hends⟩ := exists_ends w' ((ofSteps names W).slots rs)
    rw [joinAll_of_awaits hawaits hends]
    exact ⟨slots, hawaits, hends⟩

end Builder

end EntitySql
