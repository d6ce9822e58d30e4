import EntitySql.Filter.Job
import EntitySql.Proofs.Outcomes

/-!
# Jobs that are awaited together

Waiting does not change what work comes to, so jobs that are awaited together
all succeed exactly if each of them does, in whatever rounds. Which of several
failures is found is a matter of rounds: the one that waits least, and the first
of those in the order of the jobs.

- `Job.joinAll_eq_ok`: what awaits jobs gives the results of all of them.
- `Job.IsFirstBy`: the failure that is found if jobs end in turns.
- `Job.joinAll_eq_error`: what awaits jobs fails with just that failure.
-/

namespace EntitySql

namespace Job

variable {α β : Type}

/-- One more step is taken once the work is done. -/
@[simp] theorem result_andThen (g : α → Except Failure β) :
    ∀ t : Job α, (t.andThen g).result = t.result >>= g
  | done _ => rfl
  | wait t => result_andThen g t

@[simp] theorem waits_andThen (g : α → Except Failure β) :
    ∀ t : Job α, (t.andThen g).waits = t.waits
  | done _ => rfl
  | wait t => congrArg (· + 1) (waits_andThen g t)

/-- The work comes to nothing but a failure. -/
def Fails (t : Job α) : Prop := ∃ failure, t.result = .error failure

/-! ## What a round finds -/

/-- What is left of work after it was polled. -/
def next : Job α → Job α
  | done r => done r
  | wait t => t

/-- Polling does not change what work comes to. -/
@[simp] theorem result_next (t : Job α) : t.next.result = t.result := by
  cases t <;> rfl

/-- Work that was polled waits once less. -/
@[simp] theorem waits_next (t : Job α) : t.next.waits = t.waits - 1 := by
  cases t <;> rfl

/-- Polling does not change whether work fails. -/
theorem fails_next {t : Job α} : t.next.Fails ↔ t.Fails := by
  rw [Fails, Fails, result_next]

/-- A poll fails exactly if it finds work that does not wait and has failed. -/
theorem poll_eq_error {t : Job α} {failure : Failure} :
    t.poll = .error failure ↔ t.waits = 0 ∧ t.result = .error failure := by
  cases t with
  | done r => cases r <;> simp [poll, waits, result]
  | wait t => simp [poll, waits]

/-- A poll that does not fail leaves what is next, and work that will fail had to wait for it. -/
theorem poll_eq_ok {t u : Job α} (h : t.poll = .ok u) :
    (t.Fails → 0 < t.waits) ∧ t.next = u := by
  cases t with
  | done r =>
    cases r with
    | error failure => cases h
    | ok a =>
      cases h
      exact ⟨fun ⟨_, hfailure⟩ => (nomatch hfailure), rfl⟩
  | wait t =>
    cases h
    exact ⟨fun _ => Nat.succ_pos _, rfl⟩

theorem round_eq_ok {ts us : List (Job α)} (h : ts.mapM poll = .ok us) :
    (∀ t ∈ ts, t.Fails → 0 < t.waits) ∧ us = ts.map next := by
  obtain ⟨hwaits, hnext⟩ := (List.forall₂_and_left ts us).1
    ((mapM_eq_ok_iff.1 h).imp fun t u htu => poll_eq_ok htu)
  rw [← List.forall₂_map_left_iff (R := Eq), List.forall₂_eq_eq_eq] at hnext
  exact ⟨hwaits, hnext.symm⟩

/-! ## Results of all jobs -/

/-- No job fails if all have results. -/
theorem not_fails_of_results {ts : List (Job α)} {as : List α}
    (h : List.Forall₂ (fun t a => t.result = .ok a) ts as) : ∀ t ∈ ts, ¬ t.Fails := by
  rintro t ht ⟨failure, hfailure⟩
  obtain ⟨a, -, ha⟩ := exists_of_forall₂ h t ht
  cases ha.symm.trans hfailure

/-- Jobs that are awaited together give the results of all of them, in whatever rounds. -/
theorem joinIn_eq_ok : ∀ {n : Nat} {ts : List (Job α)} {as : List α},
    joinIn n ts = .ok as ↔ List.Forall₂ (fun t a => t.result = .ok a) ts as
  | 0, ts, as => mapM_eq_ok_iff
  | n + 1, ts, as => by
    have hnext : List.Forall₂ (fun t a => t.result = .ok a) (ts.map next) as ↔
        List.Forall₂ (fun t a => t.result = .ok a) ts as := by
      simp only [List.forall₂_map_left_iff, result_next]
    rw [joinIn, bind_eq_ok]
    constructor
    · rintro ⟨us, hus, has⟩
      rw [← hnext, ← (round_eq_ok hus).2]
      exact joinIn_eq_ok.1 has
    · intro h
      cases hround : ts.mapM poll with
      | ok us =>
        refine ⟨us, rfl, joinIn_eq_ok.2 ?_⟩
        rw [(round_eq_ok hround).2]
        exact hnext.2 h
      | error failure =>
        obtain ⟨before, t, after, rfl, ht, -⟩ := exists_of_mapM_eq_error hround
        exact absurd ⟨failure, (poll_eq_error.1 ht).2⟩
          (not_fails_of_results h t (List.mem_append_cons_self))

/-! ## The failure that is found -/

/-- The failure that is found if jobs come to their ends in turns: its job has an earlier turn
than those that fail before it, and no later turn than those that fail after it. -/
def IsFirstBy (turn : Job α → Nat) (ts : List (Job α)) (failure : Failure) : Prop :=
  ∃ before t after, ts = before ++ t :: after ∧ t.result = .error failure ∧
    (∀ u ∈ before, u.Fails → turn t < turn u) ∧ ∀ u ∈ after, u.Fails → turn t ≤ turn u

section

variable {turn turn' : Job α → Nat} {ts : List (Job α)} {failure failure' : Failure}

/-- One failure is found at most. -/
theorem IsFirstBy.unique (h : IsFirstBy turn ts failure) (h' : IsFirstBy turn ts failure') :
    failure = failure' := by
  obtain ⟨before, t, after, rfl, ht, hbefore, hafter⟩ := h
  obtain ⟨before', t', after', heq, ht', hbefore', hafter'⟩ := h'
  -- if one stood before the other, each would have to be found before the other
  rcases List.append_eq_append_iff.1 heq with ⟨mid, rfl, hmid⟩ | ⟨mid, rfl, hmid⟩
  · cases mid with
    | nil =>
      cases hmid
      exact Except.error.inj (ht.symm.trans ht')
    | cons u mid =>
      cases hmid
      have hlt := hbefore' t (by simp) ⟨_, ht⟩
      have hle := hafter t' (by simp) ⟨_, ht'⟩
      omega
  · cases mid with
    | nil =>
      cases hmid
      exact Except.error.inj (ht.symm.trans ht')
    | cons u mid =>
      cases hmid
      have hlt := hbefore t' (by simp) ⟨_, ht'⟩
      have hle := hafter' t (by simp) ⟨_, ht⟩
      omega

/-- Only the turns of the jobs themselves count. -/
theorem IsFirstBy.of_turns (hturn : ∀ t ∈ ts, turn' t = turn t) (h : IsFirstBy turn ts failure) :
    IsFirstBy turn' ts failure := by
  obtain ⟨before, t, after, rfl, ht, hbefore, hafter⟩ := h
  refine ⟨before, t, after, rfl, ht, fun u hu hfails => ?_, fun u hu hfails => ?_⟩
  · rw [hturn t (by simp), hturn u (by simp [hu])]
    exact hbefore u hu hfails
  · rw [hturn t (by simp), hturn u (by simp [hu])]
    exact hafter u hu hfails

/-- If all jobs have one turn, the failure is that of the first job that fails. -/
theorem isFirstBy_same (n : Nat) :
    IsFirstBy (fun _ => n) ts failure ↔ ts.findSome? (fun t => fault? t.result) = some failure := by
  rw [List.findSome?_eq_some_iff]
  constructor
  · rintro ⟨before, t, after, rfl, ht, hbefore, -⟩
    refine ⟨before, t, after, rfl, fault?_eq_some.2 ht, fun u hu => ?_⟩
    cases hu' : u.result with
    | ok a => rfl
    | error failure => exact absurd (hbefore u hu ⟨failure, hu'⟩) (Nat.lt_irrefl n)
  · rintro ⟨before, t, after, rfl, ht, hbefore⟩
    refine ⟨before, t, after, rfl, fault?_eq_some.1 ht, fun u hu ⟨failure, hu'⟩ => ?_,
      fun _ _ _ => Nat.le_refl n⟩
    cases (fault?_eq_some.2 hu').symm.trans (hbefore u hu)

end

/-- The round in which a job comes to its end, if there are so many rounds. -/
def turnIn (n : Nat) (t : Job α) : Nat := min n t.waits

/-- The failure that is found after a round is found with that round. -/
theorem IsFirstBy.succ {n : Nat} {ts : List (Job α)} {failure : Failure}
    (hwaits : ∀ t ∈ ts, t.Fails → 0 < t.waits) (h : IsFirstBy (turnIn n) (ts.map next) failure) :
    IsFirstBy (turnIn (n + 1)) ts failure := by
  obtain ⟨before', u, after', hsplit, hu, hbefore, hafter⟩ := h
  obtain ⟨before, rest, rfl, rfl, hrest⟩ := List.map_eq_append_iff.1 hsplit
  obtain ⟨t, after, rfl, rfl, rfl⟩ := List.map_eq_cons_iff.1 hrest
  rw [result_next] at hu
  have ht := hwaits t (by simp) ⟨_, hu⟩
  refine ⟨before, t, after, rfl, hu, fun v hv hfails => ?_, fun v hv hfails => ?_⟩
  · have hv' := hwaits v (by simp [hv]) hfails
    have hlt := hbefore _ (List.mem_map_of_mem hv) (fails_next.2 hfails)
    simp only [turnIn, waits_next] at hlt ⊢
    omega
  · have hv' := hwaits v (by simp [hv]) hfails
    have hle := hafter _ (List.mem_map_of_mem hv) (fails_next.2 hfails)
    simp only [turnIn, waits_next] at hle ⊢
    omega

/-- What awaits jobs in rounds fails with the failure that is found in these rounds. -/
theorem isFirstBy_of_joinIn : ∀ {n : Nat} {ts : List (Job α)} {failure : Failure},
    joinIn n ts = .error failure → IsFirstBy (turnIn n) ts failure
  | 0, ts, failure, h => by
    obtain ⟨before, t, after, rfl, ht, hbefore⟩ := exists_of_mapM_eq_error h
    refine ⟨before, t, after, rfl, ht, fun u hu ⟨_, hfailure⟩ => ?_, fun u _ _ => ?_⟩
    · obtain ⟨a, ha⟩ := hbefore u hu
      cases ha.symm.trans hfailure
    · simp only [turnIn]
      omega
  | n + 1, ts, failure, h => by
    rw [joinIn, bind_eq_error] at h
    rcases h with h | ⟨us, hus, h⟩
    · obtain ⟨before, t, after, rfl, ht, hbefore⟩ := exists_of_mapM_eq_error h
      obtain ⟨hwaits, ht⟩ := poll_eq_error.1 ht
      refine ⟨before, t, after, rfl, ht, fun u hu hfails => ?_, fun u _ _ => ?_⟩
      · obtain ⟨v, hv⟩ := hbefore u hu
        have := (poll_eq_ok hv).1 hfails
        simp only [turnIn]
        omega
      · simp only [turnIn]
        omega
    · obtain ⟨hwaits, rfl⟩ := round_eq_ok hus
      exact (isFirstBy_of_joinIn h).succ hwaits

/-- What awaits jobs in rounds fails exactly with the failure that is found in these rounds. -/
theorem joinIn_eq_error {n : Nat} {ts : List (Job α)} {failure : Failure} :
    joinIn n ts = .error failure ↔ IsFirstBy (turnIn n) ts failure := by
  refine ⟨isFirstBy_of_joinIn, fun h => ?_⟩
  cases hjoin : joinIn n ts with
  | error failure' => rw [(isFirstBy_of_joinIn hjoin).unique h]
  | ok as =>
    obtain ⟨before, t, after, rfl, ht, -⟩ := h
    exact absurd ⟨failure, ht⟩
      (not_fails_of_results (joinIn_eq_ok.1 hjoin) t List.mem_append_cons_self)

/-- Rounds in which no job waits change nothing. -/
theorem joinIn_of_waits_le {n m : Nat} {ts : List (Job α)} (hn : ∀ t ∈ ts, t.waits ≤ n)
    (hm : ∀ t ∈ ts, t.waits ≤ m) : joinIn n ts = joinIn m ts := by
  cases hjoin : joinIn m ts with
  | ok as => exact joinIn_eq_ok.2 (joinIn_eq_ok.1 hjoin)
  | error failure =>
    refine joinIn_eq_error.2 (.of_turns (fun t ht => ?_) (joinIn_eq_error.1 hjoin))
    rw [turnIn, turnIn, Nat.min_eq_right (hn t ht), Nat.min_eq_right (hm t ht)]

/-! ## All rounds that it takes -/

theorem waits_le_rounds {ts : List (Job α)} : ∀ t ∈ ts, t.waits ≤ rounds ts := by
  induction ts with
  | nil => exact fun t ht => nomatch ht
  | cons u ts ih =>
    rintro t (_ | ⟨_, ht⟩)
    · exact Nat.le_max_left ..
    · exact Nat.le_trans (ih t ht) (Nat.le_max_right ..)

/-- The turn in which a job among so many comes to its end: that of its last wait, or one and the
same for jobs that are too many for rounds. -/
def turnAmong (count : Nat) (t : Job α) : Nat := if count ≤ mostInRounds then t.waits else 0

theorem turnAmong_of_lt {count : Nat} (h : mostInRounds < count) (t : Job α) :
    turnAmong count t = 0 := if_neg (Nat.not_le.2 h)

theorem joinAll_eq_ok {ts : List (Job α)} {as : List α} :
    joinAll ts = .ok as ↔ List.Forall₂ (fun t a => t.result = .ok a) ts as := joinIn_eq_ok

/-- Jobs that are awaited together fail with the failure of the job that waits least, the first
of them in their order; without rounds, with the first failure in their order. -/
theorem joinAll_eq_error {ts : List (Job α)} {failure : Failure} :
    joinAll ts = .error failure ↔ IsFirstBy (turnAmong ts.length) ts failure := by
  rw [joinAll, joinIn_eq_error]
  split
  · next hcount =>
    have hturn : ∀ t ∈ ts, turnIn (rounds ts) t = turnAmong ts.length t := by
      intro t ht
      rw [turnIn, turnAmong, if_pos hcount, Nat.min_eq_right (waits_le_rounds t ht)]
    exact ⟨.of_turns fun t ht => (hturn t ht).symm, .of_turns hturn⟩
  · next hcount =>
    have hturn : (turnAmong ts.length : Job α → Nat) = turnIn 0 := by
      funext t
      rw [turnIn, turnAmong_of_lt (Nat.lt_of_not_le hcount), Nat.zero_min]
    rw [hturn]

/-- Of jobs that are too many for rounds, the first in their order that fails is found. -/
theorem joinAll_eq_error_of_lt {ts : List (Job α)} {failure : Failure}
    (h : mostInRounds < ts.length) :
    joinAll ts = .error failure ↔ ts.findSome? (fun t => fault? t.result) = some failure := by
  have hturn : (turnAmong ts.length : Job α → Nat) = fun _ => 0 :=
    funext (turnAmong_of_lt h)
  rw [joinAll_eq_error, hturn, isFirstBy_same]

end Job

end EntitySql
