import EntitySql.Proofs.Bindings
import EntitySql.Proofs.Complements

/-!
# The rows of two filters in common

Two filters are put together in one of several ways: a conjunction takes the
other filter in, before or after its own members, or both become the members
of a new one. What is compiled is a conjunction in each case, as conditions are
put together by their members, and what simplification leaves of a conjunction
is made of what it leaves of its members.

Raw text is a condition like any other here: it may be true, false or unknown
of a row.

- `Filter.simplified`: what is left of the condition of a filter.
- `Simplified.ofMembers`: conjunctions by the members that are left.
- `Filter.exists_members`: what is left of two filters together.
- `Simplified.IsConjunction`: rows, values and constants of a conjunction.
- `Filter.andAlso_is_conjunction`: filters that are put together.
-/

namespace EntitySql

theorem Truth.and_assoc (t u v : Truth) : (t.and u).and v = t.and (u.and v) := by
  cases t <;> cases u <;> cases v <;> rfl

theorem Truth.and_eq_yes_iff {t u : Truth} : t.and u = .yes ↔ t = .yes ∧ u = .yes := by
  cases t <;> cases u <;> decide

theorem Truth.all_append (ts us : List Truth) : all (ts ++ us) = (all ts).and (all us) := by
  induction ts with
  | nil => rfl
  | cons t ts ih => rw [List.cons_append, all, ih, all, and_assoc]

theorem Clause.truths_append (engine : Engine) (row : Row) (raw : Template → Truth)
    (ks ls : List Clause) :
    truths engine row raw (ks ++ ls) = truths engine row raw ks ++ truths engine row raw ls := by
  induction ks with
  | nil => rfl
  | cons k ks ih => rw [List.cons_append, truths, ih, truths, List.cons_append]

namespace Filter

theorem AllRawFree.append : ∀ {fs gs : List Filter}, AllRawFree fs → AllRawFree gs →
    AllRawFree (fs ++ gs)
  | [], _, _, hgs => hgs
  | _ :: _, _, hfs, hgs => ⟨hfs.1, AllRawFree.append hfs.2 hgs⟩

theorem truths_append (engine : Engine) (row : Row) (e : Entity) (names : EntityNames)
    (raw : List RawPart → Truth) (fs gs : List Filter) :
    truths engine row e names raw (fs ++ gs) =
      truths engine row e names raw fs ++ truths engine row e names raw gs := by
  induction fs with
  | nil => rfl
  | cons f fs ih => rw [List.cons_append, truths, ih, truths, List.cons_append]

end Filter

/-! ## Conditions with members of two lists -/

namespace Condition

/-- The conditions of two lists of filters. -/
theorem ofFilters_append {e : Entity} {names : EntityNames} (fs gs : List Filter) :
    ofFilters e names (fs ++ gs) = (do
      let cs ← ofFilters e names fs
      let ds ← ofFilters e names gs
      .ok (cs ++ ds)) := by
  induction fs with
  | nil =>
    rw [List.nil_append, ofFilters, ok_bind]
    cases ofFilters e names gs <;> rfl
  | cons f fs ih =>
    rw [List.cons_append, ofFilters, ofFilters, ih]
    cases ofFilter e names f with
    | error d => rfl
    | ok c =>
      cases ofFilters e names fs with
      | error d => rfl
      | ok cs => cases ofFilters e names gs <;> rfl

theorem resolveAll_append {ρ σ ε : Type} {work : ρ → Except ε σ} (cs ds : List (Condition ρ)) :
    resolveAll work (cs ++ ds) = (do
      let cs' ← resolveAll work cs
      let ds' ← resolveAll work ds
      .ok (cs' ++ ds')) := by
  induction cs with
  | nil =>
    rw [List.nil_append, resolveAll, ok_bind]
    cases resolveAll work ds <;> rfl
  | cons c cs ih =>
    rw [List.cons_append, resolveAll, resolveAll, ih]
    cases resolve work c with
    | error d => rfl
    | ok c' =>
      cases resolveAll work cs with
      | error d => rfl
      | ok cs' => cases resolveAll work ds <;> rfl

end Condition

/-! ## What is left of conjunctions -/

namespace Simplified

/-- The members that are left of two conjunctions together; none are left if one of them holds for
no row. -/
def joined (ks? ls? : Option (List Clause)) : Option (List Clause) := do
  let ks ← ks?
  let ls ← ls?
  some (ks ++ ls)

/-- A conjunction by the members that are left. -/
def ofMembers (ks? : Option (List Clause)) : Simplified := ks?.elim .nothing ofAll

theorem joined_some_nil (ks? : Option (List Clause)) : joined ks? (some []) = ks? := by
  cases ks? with
  | none => rfl
  | some ks =>
    show some (ks ++ []) = some ks
    rw [List.append_nil]

theorem some_nil_joined (ks? : Option (List Clause)) : joined (some []) ks? = ks? := by
  cases ks? <;> rfl

theorem conjoin_eq_joined (k : Simplified) (ks? : Option (List Clause)) :
    k.conjoin ks? = joined (k.conjoin (some [])) ks? := by
  cases k <;> cases ks? <;> rfl

theorem joined_assoc (ks? ls? ms? : Option (List Clause)) :
    joined (joined ks? ls?) ms? = joined ks? (joined ls? ms?) := by
  cases ks? with
  | none => rfl
  | some ks =>
    cases ls? with
    | none => rfl
    | some ls =>
      cases ms? with
      | none => rfl
      | some ms => exact congrArg some (List.append_assoc ks ls ms)

/-- A conjunction of one condition is what is left of the condition. -/
theorem ofMembers_conjoin_nil (k : Simplified) : ofMembers (k.conjoin (some [])) = k := by
  cases k <;> rfl

end Simplified

namespace Condition

theorem simplify_and (cs : List (Condition Template)) :
    (Condition.and cs).simplify = .ofMembers (conjuncts cs) := by
  rw [simplify]
  cases conjuncts cs <;> rfl

/-- The members that are left of the members of two lists. -/
theorem conjuncts_append (cs ds : List (Condition Template)) :
    conjuncts (cs ++ ds) = Simplified.joined (conjuncts cs) (conjuncts ds) := by
  induction cs with
  | nil =>
    rw [List.nil_append, conjuncts]
    cases conjuncts ds <;> rfl
  | cons c cs ih =>
    rw [List.cons_append, conjuncts, conjuncts, ih, Simplified.conjoin_eq_joined,
      ← Simplified.joined_assoc, ← Simplified.conjoin_eq_joined]

theorem conjuncts_singleton (c : Condition Template) :
    conjuncts [c] = c.simplify.conjoin (some []) := by
  rw [conjuncts, conjuncts]

end Condition

/-! ## What is left of filters -/

namespace Filter

variable {e : Entity} {names : EntityNames} {f g h : Filter}

/-- What is left of the condition of a filter. -/
def simplified (f : Filter) (e : Entity) (names : EntityNames) : Except Failure Simplified := do
  let condition ← Condition.ofFilter e names f
  let awaited ← condition.await names
  .ok awaited.simplify

/-- What is compiled is the text of what is left. -/
theorem compile_eq_simplified (f : Filter) (e : Entity) (names : EntityNames) :
    f.compile e names = (do .ok (← f.simplified e names).template?) := by
  rw [compile, simplified]
  cases Condition.ofFilter e names f with
  | error d => rfl
  | ok c =>
    rw [ok_bind, ok_bind]
    cases c.await names <;> rfl

/-- What is left of a filter, if its raw filters are worked out one after the other. -/
theorem simplified_eq_ok {k : Simplified} :
    f.simplified e names = .ok k ↔ ∃ c, Condition.ofFilter e names f = .ok c ∧
      ∃ d, c.resolve (RawPart.template names) = .ok d ∧ d.simplify = k := by
  simp only [simplified, bind_eq_ok, Condition.await_eq_ok, Except.ok.injEq]

/-- The members that are left of filters taken as a conjunction. -/
def membersOf (fs : List Filter) (e : Entity) (names : EntityNames) :
    Except Failure (Option (List Clause)) := do
  let conditions ← Condition.ofFilters e names fs
  let resolved ← Condition.resolveAll (RawPart.template names) conditions
  .ok (Condition.conjuncts resolved)

theorem simplified_and_eq_ok {fs : List Filter} {k : Simplified} :
    (Filter.and fs).simplified e names = .ok k ↔
      ∃ ks?, membersOf fs e names = .ok ks? ∧ k = .ofMembers ks? := by
  simp only [simplified_eq_ok, membersOf, bind_eq_ok, Except.ok.injEq]
  constructor
  · rintro ⟨c, hc, d, hd, rfl⟩
    obtain ⟨cs, hcs, rfl⟩ := Condition.ofFilter_and_eq_ok hc
    obtain ⟨ds, hds, rfl⟩ := Condition.resolve_and_eq_ok hd
    exact ⟨_, ⟨cs, hcs, ds, hds, rfl⟩, Condition.simplify_and ds⟩
  · rintro ⟨_, ⟨cs, hcs, ds, hds, rfl⟩, rfl⟩
    refine ⟨.and cs, ?_, .and ds, ?_, Condition.simplify_and ds⟩
    · rw [Condition.ofFilter, hcs, ok_bind]
    · rw [Condition.resolve, hds, ok_bind]

theorem membersOf_singleton {k : Simplified} (hk : f.simplified e names = .ok k) :
    membersOf [f] e names = .ok (k.conjoin (some [])) := by
  obtain ⟨c, hc, d, hd, rfl⟩ := simplified_eq_ok.1 hk
  simp only [membersOf, Condition.ofFilters, hc, ok_bind, Condition.resolveAll, hd,
    Condition.conjuncts_singleton]

/-- The members that are left of two lists, one after the other. -/
theorem membersOf_append_eq_ok {fs gs : List Filter} {ks? ls? : Option (List Clause)}
    (hf : membersOf fs e names = .ok ks?) (hg : membersOf gs e names = .ok ls?) :
    membersOf (fs ++ gs) e names = .ok (Simplified.joined ks? ls?) := by
  obtain ⟨cs, hcs, hf⟩ := bind_eq_ok.1 hf
  obtain ⟨cs', hcs', heq⟩ := bind_eq_ok.1 hf
  cases heq
  obtain ⟨ds, hds, hg⟩ := bind_eq_ok.1 hg
  obtain ⟨ds', hds', heq⟩ := bind_eq_ok.1 hg
  cases heq
  simp only [membersOf, Condition.ofFilters_append, Condition.resolveAll_append, hcs, hcs', hds,
    hds', ok_bind, Condition.conjuncts_append]

/-- Filters are the members of a filter: its own ones, or the filter itself. -/
def IsMadeOf (f : Filter) (fs : List Filter) : Prop := fs = [f] ∨ f = .and fs

/-- Two filters together are a conjunction of their members. -/
theorem exists_andAlso_eq (f g : Filter) :
    ∃ fs gs, f.IsMadeOf fs ∧ g.IsMadeOf gs ∧ f.andAlso g = .and (fs ++ gs) := by
  cases f with
  | and fs =>
    cases g with
    | and gs => exact ⟨fs, gs, .inr rfl, .inr rfl, rfl⟩
    | _ => exact ⟨fs, [_], .inr rfl, .inl rfl, rfl⟩
  | _ => exact ⟨[_], [g], .inl rfl, .inl rfl, rfl⟩

/-- What is left of a filter is what is left of its members. -/
theorem IsMadeOf.exists_membersOf {fs : List Filter} (hfs : f.IsMadeOf fs) {k : Simplified}
    (hk : f.simplified e names = .ok k) :
    ∃ ks?, membersOf fs e names = .ok ks? ∧ k = .ofMembers ks? := by
  rcases hfs with rfl | rfl
  · refine ⟨k.conjoin (some []), ?_, (Simplified.ofMembers_conjoin_nil k).symm⟩
    exact membersOf_singleton hk
  · exact simplified_and_eq_ok.1 hk

/-- What is left of two filters together is made of the members that are left of both. -/
theorem exists_members {k l : Simplified} (hk : f.simplified e names = .ok k)
    (hl : g.simplified e names = .ok l) :
    ∃ ks? ls?, k = .ofMembers ks? ∧ l = .ofMembers ls? ∧
      (f.andAlso g).simplified e names = .ok (.ofMembers (Simplified.joined ks? ls?)) := by
  obtain ⟨fs, gs, hfs, hgs, heq⟩ := exists_andAlso_eq f g
  obtain ⟨ks?, hks, hk⟩ := hfs.exists_membersOf hk
  obtain ⟨ls?, hls, hl⟩ := hgs.exists_membersOf hl
  refine ⟨ks?, ls?, hk, hl, ?_⟩
  rw [heq, simplified_and_eq_ok]
  exact ⟨_, membersOf_append_eq_ok hks hls, rfl⟩

end Filter

/-! ## Conjunctions -/

namespace Simplified

/-- The values in the text of what is left. -/
def values (k : Simplified) : List Value := k.template?.elim [] Template.values

/-- What is left of a conjunction, by what is left of its two sides: it has the truth of both, has
the values of the first and then of the second unless one of them holds for no row, and needs no
text if neither of them does. -/
structure IsConjunction (k l m : Simplified) : Prop where
  truth : ∀ g row raw, m.truth g row raw = (k.truth g row raw).and (l.truth g row raw)
  selects : ∀ g row raw, m.truth g row raw = .yes ↔
    k.truth g row raw = .yes ∧ l.truth g row raw = .yes
  nothing : m = .nothing ↔ k = .nothing ∨ l = .nothing
  everything : m = .everything ↔ k = .everything ∧ l = .everything
  values : k ≠ .nothing → l ≠ .nothing → m.values = k.values ++ l.values

/-- What is left of two conditions has the same truth on every row and the same values. -/
structure Agrees (k l : Simplified) : Prop where
  truth : ∀ g row raw, k.truth g row raw = l.truth g row raw
  values : k.values = l.values
  nothing : k = .nothing ↔ l = .nothing
  everything : k = .everything ↔ l = .everything

/-- The members of a clause have their values, in parentheses or not. -/
theorem flatMap_values_memberTemplates (ks : List Clause) :
    (Clause.memberTemplates ks).flatMap Template.values =
      ks.flatMap fun k => k.template.values := by
  induction ks with
  | nil => rfl
  | cons k ks ih =>
    rw [Clause.memberTemplates, List.flatMap_cons, ih, Clause.values_enclose, List.flatMap_cons]

/-- A conjunction of clauses has their values. -/
theorem values_ofAll (ks : List Clause) :
    (ofAll ks).values = ks.flatMap fun k => k.template.values := by
  match ks with
  | [] => rfl
  | [k] => simp [ofAll, values, template?]
  | k :: l :: ks =>
    show (Clause.and (k :: l :: ks)).template.values = _
    rw [Clause.template, Template.values_separated, flatMap_values_memberTemplates]

theorem truth_ofMembers (g : Engine) (row : Row) (raw : Template → Truth)
    (ks? : Option (List Clause)) : (ofMembers ks?).truth g row raw = allOf g row raw ks? := by
  cases ks? with
  | none => rfl
  | some ks => exact truth_ofAll ks

/-- The truth of the members of two conjunctions. -/
theorem allOf_joined (g : Engine) (row : Row) (raw : Template → Truth)
    (ks? ls? : Option (List Clause)) :
    allOf g row raw (joined ks? ls?) = (allOf g row raw ks?).and (allOf g row raw ls?) := by
  cases ks? with
  | none => rfl
  | some ks =>
    cases ls? with
    | none => exact (Truth.and_no _).symm
    | some ls =>
      show Truth.all (Clause.truths g row raw (ks ++ ls)) = _
      rw [Clause.truths_append, Truth.all_append]
      rfl

theorem ofMembers_eq_nothing_iff {ks? : Option (List Clause)} :
    ofMembers ks? = .nothing ↔ ks? = none := by
  match ks? with
  | none => exact iff_of_true rfl rfl
  | some [] | some [_] | some (_ :: _ :: _) => simp [ofMembers, ofAll]

theorem ofMembers_eq_everything_iff {ks? : Option (List Clause)} :
    ofMembers ks? = .everything ↔ ks? = some [] := by
  match ks? with
  | none | some [] | some [_] | some (_ :: _ :: _) => simp [ofMembers, ofAll]

theorem isConjunction_joined (ks? ls? : Option (List Clause)) :
    IsConjunction (ofMembers ks?) (ofMembers ls?) (ofMembers (joined ks? ls?)) := by
  have htruth : ∀ g row raw, (ofMembers (joined ks? ls?)).truth g row raw =
      ((ofMembers ks?).truth g row raw).and ((ofMembers ls?).truth g row raw) := by
    intro g row raw
    rw [truth_ofMembers, truth_ofMembers, truth_ofMembers, allOf_joined]
  constructor
  case truth => exact htruth
  case selects =>
    intro g row raw
    rw [htruth, Truth.and_eq_yes_iff]
  case nothing =>
    simp only [ofMembers_eq_nothing_iff]
    cases ks? <;> cases ls? <;> simp [joined]
  case everything =>
    simp only [ofMembers_eq_everything_iff]
    cases ks? <;> cases ls? <;> simp [joined]
  case values =>
    intro hk hl
    rw [Ne, ofMembers_eq_nothing_iff] at hk hl
    obtain ⟨ks, rfl⟩ := Option.ne_none_iff_exists'.1 hk
    obtain ⟨ls, rfl⟩ := Option.ne_none_iff_exists'.1 hl
    show (ofAll (ks ++ ls)).values = (ofAll ks).values ++ (ofAll ls).values
    rw [values_ofAll, values_ofAll, values_ofAll, List.flatMap_append]

/-- How three conditions are put together makes no difference. -/
theorem IsConjunction.assoc {a b c ab bc left right : Simplified} (hab : IsConjunction a b ab)
    (hleft : IsConjunction ab c left) (hbc : IsConjunction b c bc)
    (hright : IsConjunction a bc right) : Agrees left right := by
  constructor
  case truth =>
    intro g row raw
    rw [hleft.truth, hab.truth, hright.truth, hbc.truth, Truth.and_assoc]
  case nothing => rw [hleft.nothing, hab.nothing, hright.nothing, hbc.nothing, or_assoc]
  case everything =>
    rw [hleft.everything, hab.everything, hright.everything, hbc.everything, and_assoc]
  case values =>
    by_cases hnone : a = .nothing ∨ b = .nothing ∨ c = .nothing
    · -- nothing is left on either side
      have hnothing : left = .nothing := by
        rw [hleft.nothing, hab.nothing, or_assoc]
        exact hnone
      have hnothing' : right = .nothing := by
        rw [hright.nothing, hbc.nothing]
        exact hnone
      rw [hnothing, hnothing']
    · simp only [not_or] at hnone
      obtain ⟨ha, hb, hc⟩ := hnone
      have hab' : ab ≠ .nothing := by
        rw [Ne, hab.nothing, not_or]
        exact ⟨ha, hb⟩
      have hbc' : bc ≠ .nothing := by
        rw [Ne, hbc.nothing, not_or]
        exact ⟨hb, hc⟩
      rw [hleft.values hab' hc, hab.values ha hb, hright.values ha hbc', hbc.values hb hc,
        List.append_assoc]

end Simplified

namespace Filter

variable {e : Entity} {names : EntityNames} {f g h : Filter}

/-- What is left of two filters together is a conjunction of what is left of each. -/
theorem exists_isConjunction {k l : Simplified} (hk : f.simplified e names = .ok k)
    (hl : g.simplified e names = .ok l) :
    ∃ m, (f.andAlso g).simplified e names = .ok m ∧ k.IsConjunction l m := by
  obtain ⟨ks?, ls?, rfl, rfl, hm⟩ := exists_members hk hl
  exact ⟨_, hm, Simplified.isConjunction_joined ks? ls?⟩

/-! ## The filter that all rows pass -/

/-- Nothing is left of the filter that all rows pass. -/
theorem simplified_everything : everything.simplified e names = .ok .everything := by
  refine simplified_and_eq_ok.2 ⟨some [], ?_, rfl⟩
  rw [membersOf, Condition.ofFilters, ok_bind, Condition.resolveAll, ok_bind, Condition.conjuncts]

/-- The filter that all rows pass adds nothing after a filter. -/
theorem simplified_andAlso_everything {k : Simplified} (hk : f.simplified e names = .ok k) :
    (f.andAlso everything).simplified e names = .ok k := by
  obtain ⟨ks?, ls?, rfl, hls, hm⟩ := exists_members hk simplified_everything
  rw [Simplified.ofMembers_eq_everything_iff.1 hls.symm, Simplified.joined_some_nil] at hm
  exact hm

theorem simplified_everything_andAlso {k : Simplified} (hk : f.simplified e names = .ok k) :
    (everything.andAlso f).simplified e names = .ok k := by
  obtain ⟨ks?, ls?, hks, rfl, hm⟩ := exists_members simplified_everything hk
  rw [Simplified.ofMembers_eq_everything_iff.1 hks.symm, Simplified.some_nil_joined] at hm
  exact hm

/-! ## Sentences -/

theorem IsMadeOf.allRawFree {fs : List Filter} (hfs : f.IsMadeOf fs) (hf : f.IsRawFree) :
    AllRawFree fs := by
  rcases hfs with rfl | rfl
  · exact ⟨hf, trivial⟩
  · exact hf

theorem IsMadeOf.truth_eq {fs : List Filter} (hfs : f.IsMadeOf fs) (engine : Engine) (row : Row)
    (raw : List RawPart → Truth) :
    f.truth engine row e names raw = Truth.all (truths engine row e names raw fs) := by
  rcases hfs with rfl | rfl
  · rw [truths, truths, Truth.all, Truth.all, Truth.and_yes]
  · rw [truth]

/-- Two filters without SQL text have none together. -/
theorem IsRawFree.andAlso (hf : f.IsRawFree) (hg : g.IsRawFree) : (f.andAlso g).IsRawFree := by
  obtain ⟨fs, gs, hfs, hgs, heq⟩ := exists_andAlso_eq f g
  rw [heq]
  exact (hfs.allRawFree hf).append (hgs.allRawFree hg)

/-- Two filters together have the truth of both. -/
theorem truth_andAlso (engine : Engine) (row : Row) (raw : List RawPart → Truth) :
    (f.andAlso g).truth engine row e names raw =
      (f.truth engine row e names raw).and (g.truth engine row e names raw) := by
  obtain ⟨fs, gs, hfs, hgs, heq⟩ := exists_andAlso_eq f g
  rw [heq, truth, truths_append, Truth.all_append, hfs.truth_eq, hgs.truth_eq]

/-- A text selects the rows that two other texts select both. -/
def SelectsInCommon (names : EntityNames) (a b ab : Option Template) : Prop :=
  ∃ r? s? t?, Template.IsReadAs names a r? ∧ Template.IsReadAs names b s? ∧
    Template.IsReadAs names ab t? ∧ ∀ engine row, Sentence.Selects engine row t? ↔
      Sentence.Selects engine row r? ∧ Sentence.Selects engine row s?

theorem selectsInCommon_andAlso (hf : f.IsRawFree) (hg : g.IsRawFree)
    {a b ab : Option Template} (ha : f.compile e names = .ok a) (hb : g.compile e names = .ok b)
    (hab : (f.andAlso g).compile e names = .ok ab) : SelectsInCommon names a b ab := by
  obtain ⟨r?, hr, hselects⟩ := exists_sentence hf ha
  obtain ⟨s?, hs, hselects'⟩ := exists_sentence hg hb
  obtain ⟨t?, ht, hboth⟩ := exists_sentence (hf.andAlso hg) hab
  refine ⟨r?, s?, t?, hr, hs, ht, fun engine row => ?_⟩
  rw [hselects engine row fun _ => .yes, hselects' engine row fun _ => .yes,
    hboth engine row fun _ => .yes, truth_andAlso, Truth.and_eq_yes_iff]

/-! ## Filters that are put together -/

/-- What is compiled of a filter is the text of what is left of it. -/
structure Leaves (f : Filter) (e : Entity) (names : EntityNames) (k : Simplified) : Prop where
  simplified : f.simplified e names = .ok k
  compiled : f.compile e names = .ok k.template?

theorem leaves_of_simplified {k : Simplified} (hk : f.simplified e names = .ok k) :
    f.Leaves e names k :=
  ⟨hk, by rw [compile_eq_simplified, hk, ok_bind]⟩

theorem exists_leaves {text? : Option Template} (hf : f.compile e names = .ok text?) :
    ∃ k, f.Leaves e names k ∧ text? = k.template? := by
  rw [compile_eq_simplified] at hf
  obtain ⟨k, hk, heq⟩ := bind_eq_ok.1 hf
  cases heq
  exact ⟨k, leaves_of_simplified hk, rfl⟩

/-- Filters that compile are put together as a conjunction, whatever raw text is true of a row. It
has the values of the first filter and then of the second, unless one of them holds for no row.
Three filters may be put together in two ways, which have the same truth on every row and the same
values. The filter that all rows pass changes no text and no value, on either side. Without raw
text, the sentence that a database reads selects the rows that the sentences of both filters
select. -/
theorem andAlso_is_conjunction {a b c : Option Template} (hf : f.compile e names = .ok a)
    (hg : g.compile e names = .ok b) (hh : h.compile e names = .ok c) :
    (∃ k l m, f.Leaves e names k ∧ g.Leaves e names l ∧ (f.andAlso g).Leaves e names m ∧
      k.IsConjunction l m) ∧
    (∃ left right, ((f.andAlso g).andAlso h).Leaves e names left ∧
      (f.andAlso (g.andAlso h)).Leaves e names right ∧ left.Agrees right) ∧
    (f.andAlso everything).compile e names = .ok a ∧
    (everything.andAlso f).compile e names = .ok a ∧
    (f.IsRawFree → g.IsRawFree → ∃ ab, (f.andAlso g).compile e names = .ok ab ∧
      SelectsInCommon names a b ab) := by
  obtain ⟨k, hk, rfl⟩ := exists_leaves hf
  obtain ⟨l, hl, -⟩ := exists_leaves hg
  obtain ⟨m, hm, -⟩ := exists_leaves hh
  obtain ⟨kl, hkl, hconjunction⟩ := exists_isConjunction hk.simplified hl.simplified
  obtain ⟨lm, hlm, hconjunction'⟩ := exists_isConjunction hl.simplified hm.simplified
  obtain ⟨left, hleft, hleft'⟩ := exists_isConjunction hkl hm.simplified
  obtain ⟨right, hright, hright'⟩ := exists_isConjunction hk.simplified hlm
  refine ⟨⟨k, l, kl, hk, hl, leaves_of_simplified hkl, hconjunction⟩,
    ⟨left, right, leaves_of_simplified hleft, leaves_of_simplified hright,
      hconjunction.assoc hleft' hconjunction' hright'⟩, ?_, ?_, ?_⟩
  · exact (leaves_of_simplified (simplified_andAlso_everything hk.simplified)).compiled
  · exact (leaves_of_simplified (simplified_everything_andAlso hk.simplified)).compiled
  · intro hfree hfree'
    have hab := (leaves_of_simplified hkl).compiled
    exact ⟨_, hab, selectsInCommon_andAlso hfree hfree' hf hg hab⟩

/-- One of two persons. -/
def oneOfTwo : Filter := .or [.compare "id" .eq (.integer 1), .compare "id" .eq (.integer 2)]

/-- A condition on the name in SQL. -/
def rawName : Filter := .raw [.column "name", .text " = ", .param (.text "x"), .text " or 1 = 2"]

/-- Names other than one, and no other condition. -/
def otherName : Filter := .and [.compare "name" .gt (.text "a"), everything]

/-- A disjunction, raw text and a conjunction are put together in either way, as one text. -/
theorem andAlso_is_conjunction_person :
    ∃ t u v left right,
      oneOfTwo.compile person (.resolve person .bare) = .ok (some t) ∧
      rawName.compile person (.resolve person .bare) = .ok (some u) ∧
      otherName.compile person (.resolve person .bare) = .ok (some v) ∧
      ((oneOfTwo.andAlso rawName).andAlso otherName).compile person (.resolve person .bare) =
        .ok (some left) ∧
      (oneOfTwo.andAlso (rawName.andAlso otherName)).compile person (.resolve person .bare) =
        .ok (some right) ∧
      left.sql .dollar = "(id = $1 or id = $2) and (name = $3 or 1 = 2) and name > $4" ∧
      right.sql .dollar = "(id = $1 or id = $2) and ((name = $3 or 1 = 2) and name > $4)" ∧
      ∃ k l, ((oneOfTwo.andAlso rawName).andAlso otherName).Leaves person
          (.resolve person .bare) k ∧
        (oneOfTwo.andAlso (rawName.andAlso otherName)).Leaves person (.resolve person .bare) l ∧
        k.Agrees l := by
  refine ⟨_, _, _, _, _, rfl, rfl, rfl, rfl, rfl, rfl, rfl, ?_⟩
  exact (@andAlso_is_conjunction person (.resolve person .bare) oneOfTwo rawName otherName
    _ _ _ rfl rfl rfl).2.1

end Filter

end EntitySql
