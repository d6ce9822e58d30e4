import EntitySql.Condition.OfFilter
import EntitySql.Proofs.Jobs

/-!
# Raw filters that are awaited

Raw filters that are awaited together come to the texts that they would write
one after the other, if all of them come to a text. So what is said about the
text of a condition need not speak of waiting: its raw filters may be worked out
in the order of the tree.

- `RawPart.write`, `RawPart.template`: the text of a raw filter, and its
  template, without waiting.
- `Condition.resolve`: raw conditions that are worked out one after the other.
- `Condition.await_eq_ok`, `Filter.compile_eq_ok_iff`: that is what a condition
  and a filter come to.
- `Condition.await_eq_error`: where they fail, it is with the failure that is
  found first.
-/

namespace EntitySql

/-! ## The text of a raw filter -/

namespace RawPart

variable {names : EntityNames}

/-- Takes the steps from left to right. -/
def write (names : EntityNames) (parts : List RawPart) : Except Failure RawText :=
  parts.foldlM (fun r p => p.step names r) ⟨"", []⟩

/-- The template of a raw filter. -/
def template (names : EntityNames) (parts : List RawPart) : Except Failure Template := do
  piecesOf (← write names parts)

/-- The work of steps comes to what the steps come to. -/
theorem result_work (parts : List RawPart) (r : RawText) :
    (work names parts r).result = parts.foldlM (fun r p => p.step names r) r := by
  fun_induction work with
  | case1 r => rfl
  | case2 parts r ih => exact ih
  | case3 p parts r _ r' hstep ih =>
    rw [ih, List.foldlM_cons, hstep, ok_bind]
  | case4 p parts r _ failure hstep =>
    rw [List.foldlM_cons, hstep, error_bind]
    rfl

/-- The text that a raw filter comes to is cut into its template. -/
theorem result_work_pieces (parts : List RawPart) :
    ((work names parts ⟨"", []⟩).result >>= piecesOf) = template names parts := by
  rw [result_work]
  rfl

/-- A raw filter comes to its template. -/
theorem result_build (parts : List RawPart) :
    (build names parts).result = template names parts := by
  rw [build, Job.result_andThen, result_work_pieces]

/-- Steps that do not wait are done at once. -/
theorem waits_work {parts : List RawPart} {r : RawText} (h : .wait ∉ parts) :
    (work names parts r).waits = 0 := by
  fun_induction work with
  | case1 r => rfl
  | case2 parts r ih => exact absurd List.mem_cons_self h
  | case3 p parts r _ r' _ ih => exact ih fun hmem => h (List.mem_cons_of_mem p hmem)
  | case4 p parts r _ failure _ => rfl

end RawPart

/-! ## Raw conditions, one after the other -/

namespace Condition

section

variable {ρ σ ε : Type}

mutual

/-- Works out the raw conditions from left to right. -/
def resolve (f : ρ → Except ε σ) : Condition ρ → Except ε (Condition σ)
  | .always => .ok .always
  | .never => .ok .never
  | .predicate p => .ok (.predicate p)
  | .raw r => do .ok (.raw (← f r))
  | .and conditions => do .ok (.and (← resolveAll f conditions))
  | .or conditions => do .ok (.or (← resolveAll f conditions))
  | .not condition => do .ok (.not (← resolve f condition))

/-- Works out the raw conditions of a list from left to right. -/
def resolveAll (f : ρ → Except ε σ) : List (Condition ρ) → Except ε (List (Condition σ))
  | [] => .ok []
  | c :: rest => do
    let c ← resolve f c
    .ok (c :: (← resolveAll f rest))

end

variable {work : ρ → Except ε σ} {d : Condition σ}

/-- Raw text is worked out by itself. -/
theorem resolve_raw_eq_ok {r : ρ} (h : resolve work (.raw r) = .ok d) :
    ∃ s, work r = .ok s ∧ d = .raw s := by
  obtain ⟨s, hs, hd⟩ := bind_eq_ok.1 h
  cases hd
  exact ⟨s, hs, rfl⟩

theorem resolve_and_eq_ok {cs : List (Condition ρ)} (h : resolve work (.and cs) = .ok d) :
    ∃ ds, resolveAll work cs = .ok ds ∧ d = .and ds := by
  obtain ⟨ds, hds, hd⟩ := bind_eq_ok.1 h
  cases hd
  exact ⟨ds, hds, rfl⟩

theorem resolve_or_eq_ok {cs : List (Condition ρ)} (h : resolve work (.or cs) = .ok d) :
    ∃ ds, resolveAll work cs = .ok ds ∧ d = .or ds := by
  obtain ⟨ds, hds, hd⟩ := bind_eq_ok.1 h
  cases hd
  exact ⟨ds, hds, rfl⟩

theorem resolve_not_eq_ok {c : Condition ρ} (h : resolve work (.not c) = .ok d) :
    ∃ d', resolve work c = .ok d' ∧ d = .not d' := by
  obtain ⟨d', hd', hd⟩ := bind_eq_ok.1 h
  cases hd
  exact ⟨d', hd', rfl⟩

/-- The members of a list are worked out one by one. -/
theorem resolveAll_cons_eq_ok {c : Condition ρ} {cs : List (Condition ρ)}
    {ds : List (Condition σ)} (h : resolveAll work (c :: cs) = .ok ds) :
    ∃ d rest, resolve work c = .ok d ∧ resolveAll work cs = .ok rest ∧ ds = d :: rest := by
  obtain ⟨d, hd, h⟩ := bind_eq_ok.1 h
  obtain ⟨rest, hrest, hds⟩ := bind_eq_ok.1 h
  cases hds
  exact ⟨d, rest, hd, hrest, rfl⟩

mutual

/-- A condition that is worked out is filled with the texts of its raw conditions. -/
theorem exists_fill_of_resolve : ∀ {c : Condition ρ} {d : Condition σ}, c.resolve work = .ok d →
    ∃ ts, List.Forall₂ (fun r t => work r = .ok t) c.raws ts ∧
      ∀ rest, c.fill (ts ++ rest) = (d, rest)
  | .always, d, h => by
    rw [resolve] at h
    cases h
    exact ⟨[], by rw [raws]; exact .nil, fun rest => by rw [List.nil_append, fill]⟩
  | .never, d, h => by
    rw [resolve] at h
    cases h
    exact ⟨[], by rw [raws]; exact .nil, fun rest => by rw [List.nil_append, fill]⟩
  | .predicate p, d, h => by
    rw [resolve] at h
    cases h
    exact ⟨[], by rw [raws]; exact .nil, fun rest => by rw [List.nil_append, fill]⟩
  | .raw r, d, h => by
    obtain ⟨t, ht, rfl⟩ := resolve_raw_eq_ok h
    exact ⟨[t], by rw [raws]; exact .cons ht .nil, fun rest => by rw [List.singleton_append, fill]⟩
  | .and cs, d, h => by
    obtain ⟨ds, hds, rfl⟩ := resolve_and_eq_ok h
    obtain ⟨ts, hts, hfill⟩ := exists_fill_of_resolveAll hds
    exact ⟨ts, by rw [raws]; exact hts, fun rest => by rw [fill, hfill]⟩
  | .or cs, d, h => by
    obtain ⟨ds, hds, rfl⟩ := resolve_or_eq_ok h
    obtain ⟨ts, hts, hfill⟩ := exists_fill_of_resolveAll hds
    exact ⟨ts, by rw [raws]; exact hts, fun rest => by rw [fill, hfill]⟩
  | .not c, d, h => by
    obtain ⟨d', hd', rfl⟩ := resolve_not_eq_ok h
    obtain ⟨ts, hts, hfill⟩ := exists_fill_of_resolve hd'
    exact ⟨ts, by rw [raws]; exact hts, fun rest => by rw [fill, hfill]⟩

theorem exists_fill_of_resolveAll : ∀ {cs : List (Condition ρ)} {ds : List (Condition σ)},
    resolveAll work cs = .ok ds → ∃ ts, List.Forall₂ (fun r t => work r = .ok t) (rawsAll cs) ts ∧
      ∀ rest, fillAll cs (ts ++ rest) = (ds, rest)
  | [], ds, h => by
    rw [resolveAll] at h
    cases h
    exact ⟨[], by rw [rawsAll]; exact .nil, fun rest => by rw [List.nil_append, fillAll]⟩
  | c :: cs, ds, h => by
    obtain ⟨d, rest, hd, hrest, rfl⟩ := resolveAll_cons_eq_ok h
    obtain ⟨ts, hts, hfill⟩ := exists_fill_of_resolve hd
    obtain ⟨us, hus, hfillAll⟩ := exists_fill_of_resolveAll hrest
    refine ⟨ts ++ us, ?_, fun rest => ?_⟩
    · rw [rawsAll]
      exact List.rel_append hts hus
    · rw [fillAll, List.append_assoc, hfill, hfillAll]

end

mutual

/-- A condition is worked out if each of its raw conditions is. -/
theorem exists_resolve : ∀ {c : Condition ρ}, (∀ r ∈ c.raws, ∃ t, work r = .ok t) →
    ∃ d, c.resolve work = .ok d
  | .always, _ => ⟨.always, by rw [resolve]⟩
  | .never, _ => ⟨.never, by rw [resolve]⟩
  | .predicate p, _ => ⟨.predicate p, by rw [resolve]⟩
  | .raw r, h => by
    obtain ⟨t, ht⟩ := h r (by rw [raws]; exact List.mem_singleton_self r)
    exact ⟨.raw t, by rw [resolve, ht, ok_bind]⟩
  | .and cs, h => by
    obtain ⟨ds, hds⟩ := exists_resolveAll fun r hr => h r (by rwa [raws])
    exact ⟨.and ds, by rw [resolve, hds, ok_bind]⟩
  | .or cs, h => by
    obtain ⟨ds, hds⟩ := exists_resolveAll fun r hr => h r (by rwa [raws])
    exact ⟨.or ds, by rw [resolve, hds, ok_bind]⟩
  | .not c, h => by
    obtain ⟨d, hd⟩ := exists_resolve fun r hr => h r (by rwa [raws])
    exact ⟨.not d, by rw [resolve, hd, ok_bind]⟩

theorem exists_resolveAll : ∀ {cs : List (Condition ρ)},
    (∀ r ∈ rawsAll cs, ∃ t, work r = .ok t) → ∃ ds, resolveAll work cs = .ok ds
  | [], _ => ⟨[], by rw [resolveAll]⟩
  | c :: cs, h => by
    rw [rawsAll, List.forall_mem_append] at h
    obtain ⟨d, hd⟩ := exists_resolve h.1
    obtain ⟨ds, hds⟩ := exists_resolveAll h.2
    exact ⟨d :: ds, by rw [resolveAll, hd, ok_bind, hds, ok_bind]⟩

end

end

/-! ## All of them together -/

variable {names : EntityNames} {c : Condition (List RawPart)}

/-- The texts that raw filters come to. -/
theorem results_iff {rs : List (List RawPart)} {ts : List Template} :
    List.Forall₂ (fun t a => t.result = .ok a) (rs.map (RawPart.build names)) ts ↔
      List.Forall₂ (fun r t => RawPart.template names r = .ok t) rs ts := by
  simp only [List.forall₂_map_left_iff, RawPart.result_build]

/-- A condition comes to what its raw filters are worked out to, one after the other. -/
theorem await_eq_ok {d : Condition Template} :
    c.await names = .ok d ↔ c.resolve (RawPart.template names) = .ok d := by
  simp only [await, bind_eq_ok, Job.joinAll_eq_ok, results_iff, Except.ok.injEq]
  constructor
  · rintro ⟨ts, hts, rfl⟩
    obtain ⟨d, hd⟩ := exists_resolve fun r hr => by
      obtain ⟨t, -, ht⟩ := exists_of_forall₂ hts r hr
      exact ⟨t, ht⟩
    obtain ⟨us, hus, hfill⟩ := exists_fill_of_resolve hd
    have heq : ts = us := by
      refine List.right_unique_forall₂' (fun r t u ht hu => ?_) hts hus
      exact Except.ok.inj (ht.symm.trans hu)
    rw [hd, heq, ← List.append_nil us, hfill]
  · intro hd
    obtain ⟨ts, hts, hfill⟩ := exists_fill_of_resolve hd
    exact ⟨ts, hts, by rw [← List.append_nil ts, hfill]⟩

@[simp] theorem await_always : await names .always = .ok .always := rfl

@[simp] theorem await_never : await names .never = .ok .never := rfl

@[simp] theorem await_predicate (p : Predicate) :
    await names (.predicate p) = .ok (.predicate p) := rfl

/-- A condition fails with the failure of the raw filter that is found first. -/
theorem await_eq_error {failure : Failure} :
    c.await names = .error failure ↔
      Job.IsFirstBy (Job.turnAmong c.raws.length) (c.raws.map (RawPart.build names)) failure := by
  rw [await, bind_eq_error, Job.joinAll_eq_error, List.length_map]
  exact ⟨fun h => h.elim id fun ⟨_, _, h⟩ => (nomatch h), .inl⟩

end Condition

/-- A filter is compiled exactly if its condition is made and its raw filters are worked out. -/
theorem Filter.compile_eq_ok_iff {f : Filter} {e : Entity} {names : EntityNames}
    {text? : Option Template} :
    f.compile e names = .ok text? ↔ ∃ c, Condition.ofFilter e names f = .ok c ∧
      ∃ d, c.resolve (RawPart.template names) = .ok d ∧ d.simplify.template? = text? := by
  simp only [compile, bind_eq_ok, Condition.await_eq_ok, Except.ok.injEq]

end EntitySql
