import EntitySql.Proofs.RawText
import EntitySql.Proofs.Stored

/-!
# The values of a filter

A filter that is true of every row, or of none, needs no values, and neither
does a group that is decided by such a member. What is sent for a filter are
the values of what is left, from left to right: a filter that is decided takes
all its values with it, wherever it stands.

- `Filter.constant?`: what is known of a filter without looking at a row.
- `Filter.sends`: the values of what is left of a filter.
- `Filter.values_whereClause`: these are the values that are sent.
-/

namespace EntitySql

/-- A group that is decided by one member of the value `absorbing`, or because all members have
the other value. -/
def groupConstant? (absorbing : Bool) (members : List (Option Bool)) : Option Bool :=
  if members.contains (some absorbing) then some absorbing
  else if members.all (· == some (!absorbing)) then some (!absorbing)
  else none

mutual

/-- The truth of a filter, if it is the same on all rows by the form of the filter. -/
def Filter.constant? (names : EntityNames) : Filter → Option Bool
  | .compare _ _ _ | .matching _ _ _ => none
  | .among _ negated vs => if vs.isEmpty then some negated else none
  | .and fs => groupConstant? false (Filter.constants names fs)
  | .or fs => groupConstant? true (Filter.constants names fs)
  | .not f => (Filter.constant? names f).map Bool.not
  | .raw parts =>
    match RawPart.template names parts with
    | .ok t => if isBlankTemplate t then some true else none
    | .error _ => none

/-- The truth of each filter of a list, where it is the same on all rows. -/
def Filter.constants (names : EntityNames) : List Filter → List (Option Bool)
  | [] => []
  | f :: fs => Filter.constant? names f :: Filter.constants names fs

end

/-- The stored forms of values for a field, with NULL left out; NULL is written as a word. -/
def Entity.storedFor (e : Entity) (key : String) (vs : List Value) : List Value :=
  match e.field key with
  | .ok f => (vs.map f.converter.stored).filter fun w => !w.isNull
  | .error _ => []

mutual

/-- The values of what is left of a filter, from left to right. -/
def Filter.sends (e : Entity) (names : EntityNames) : Filter → List Value
  | .compare key _ v => e.storedFor key [v]
  | .among key _ vs => e.storedFor key vs
  | .matching _ mode text => [.text (mode.pattern text)]
  | .and fs =>
    if groupConstant? false (Filter.constants names fs) = none then Filter.allSend e names fs
    else []
  | .or fs =>
    if groupConstant? true (Filter.constants names fs) = none then Filter.allSend e names fs
    else []
  | .not f => Filter.sends e names f
  | .raw parts =>
    match RawPart.template names parts with
    | .ok t => t.values
    | .error _ => []

/-- The values of what is left of filters, from left to right. -/
def Filter.allSend (e : Entity) (names : EntityNames) : List Filter → List Value
  | [] => []
  | f :: fs => Filter.sends e names f ++ Filter.allSend e names fs

end

/-! ## Values of templates -/

namespace Template

/-- A separating text has no values. -/
theorem values_separated (s : String) (ts : List Template) :
    (separated s ts).values = ts.flatMap values := by
  induction ts with
  | nil => rfl
  | cons t ts ih =>
    cases ts with
    | nil => simp [separated]
    | cons u ts =>
      rw [separated, values_append, values, ih, List.flatMap_cons, List.flatMap_cons,
        List.flatMap_cons]

@[simp] theorem values_parameters (vs : List Value) : (parameters vs).values = vs := by
  rw [parameters, values_separated, List.flatMap_map]
  induction vs with
  | nil => rfl
  | cons v vs ih => rw [List.flatMap_cons, ih]; rfl

end Template

@[simp] theorem Clause.values_enclose (compound : Bool) (t : Template) :
    (Clause.enclose compound t).values = t.values := by
  cases compound <;> simp [enclose, Template.values]

/-- Raw text of blanks has no values. -/
theorem values_of_isBlankTemplate {t : Template} (h : isBlankTemplate t = true) :
    t.values = [] := by
  induction t with
  | nil => rfl
  | cons p t ih =>
    rw [isBlankTemplate, List.all_cons, Bool.and_eq_true] at h
    cases p with
    | text s => exact ih h.2
    | param v => exact absurd h.1 Bool.false_ne_true

/-! ## Predicates -/

namespace Predicate

variable {column : String} {allowNull : Bool}

/-- A comparison sends its value, unless it is NULL. -/
theorem values_ofCompare {key : String} {op : CompareOp} {w : Value} {p : Predicate}
    (h : ofCompare key column allowNull op w = .ok p) :
    p.template.values = [w].filter fun w => !w.isNull := by
  unfold ofCompare at h
  cases hnull : w.isNull with
  | true =>
    rw [if_pos hnull] at h
    -- a NULL is written as a word of the test
    cases op <;> cases h <;> simp [template, Test.template, Template.values, hnull]
  | false =>
    rw [if_neg (by simp [hnull])] at h
    split at h <;> cases h <;> simp [template, Test.template, Template.values, hnull]

theorem values_ofOneOf (hasNull : Bool) (ws : List Value) :
    (ofOneOf column hasNull ws).template.values = ws := by
  unfold ofOneOf
  cases hasNull with
  | false => simp [template, Test.template, Template.values]
  | true => cases ws <;> simp [template, Test.template, Template.values]

theorem values_ofNoneOf (hasNull : Bool) (ws : List Value) :
    (ofNoneOf column allowNull hasNull ws).template.values = ws := by
  unfold ofNoneOf
  cases hasNull with
  | false => cases allowNull <;> simp [template, Test.template, Template.values]
  | true => cases ws <;> simp [template, Test.template, Template.values]

theorem values_ofMatch (mode : MatchMode) (text : String) :
    (ofMatch column allowNull mode text).template.values = [.text (mode.pattern text)] := by
  cases mode <;> cases allowNull <;>
    simp [ofMatch, template, Test.template, Test.likeTemplate, Template.values]

end Predicate

/-! ## What is left -/

/-- What is left of a condition has the constant truth that is known of its filter, or the values
that are sent for it. -/
def Simplified.Sends (constant? : Option Bool) (vs : List Value) : Simplified → Prop
  | .everything => constant? = some true ∧ vs = []
  | .nothing => constant? = some false ∧ vs = []
  | .clause c => constant? = none ∧ c.template.values = vs

/-- What is left of the members of a group: no member is decisive, those that do not matter are
gone, and the others have the values that are sent for the group. -/
def GroupSends (absorbing : Bool) (constants : List (Option Bool)) (vs : List Value) :
    Option (List Clause) → Prop
  | none => some absorbing ∈ constants
  | some ks => some absorbing ∉ constants ∧ (ks = [] ↔ ∀ m ∈ constants, m = some (!absorbing)) ∧
      (Clause.memberTemplates ks).flatMap Template.values = vs

namespace GroupSends

variable {absorbing : Bool} {constants : List (Option Bool)} {vs ws : List Value}
  {ks? : Option (List Clause)}

theorem nil : GroupSends absorbing [] [] (some []) := by
  refine ⟨by simp, by simp, rfl⟩

/-- One more member that decides the group. -/
theorem decisive : GroupSends absorbing (some absorbing :: constants) vs none :=
  List.mem_cons_self

/-- One more member that does not matter. -/
theorem neutral (h : GroupSends absorbing constants vs ks?) :
    GroupSends absorbing (some (!absorbing) :: constants) vs ks? := by
  cases ks? with
  | none => exact List.mem_cons_of_mem _ h
  | some ks =>
    obtain ⟨hnot, hnil, hvalues⟩ := h
    -- the member adds neither a decisive value nor a clause
    refine ⟨?_, ?_, hvalues⟩
    · simpa using hnot
    · simpa using hnil

/-- One more member that has a text. -/
theorem clause {c : Clause} (hc : c.template.values = ws)
    (h : GroupSends absorbing constants vs ks?) :
    GroupSends absorbing (none :: constants) (ws ++ vs) (ks?.map (c :: ·)) := by
  cases ks? with
  | none => exact List.mem_cons_of_mem _ h
  | some ks =>
    obtain ⟨hnot, _, hvalues⟩ := h
    refine ⟨?_, ?_, ?_⟩
    · simpa using hnot
    · simp
    · rw [Clause.memberTemplates, List.flatMap_cons, Clause.values_enclose, hc, hvalues]

/-- The constant truth of a group is that of what is left of it. -/
theorem constant?_eq (h : GroupSends absorbing constants vs ks?) :
    groupConstant? absorbing constants =
      match ks? with
      | none => some absorbing
      | some [] => some (!absorbing)
      | some (_ :: _) => none := by
  -- the two tests of `groupConstant?`, as `GroupSends` states them
  have hcontains : constants.contains (some absorbing) ↔ some absorbing ∈ constants := by simp
  have hall : constants.all (· == some (!absorbing)) ↔ ∀ m ∈ constants, m = some (!absorbing) := by
    simp
  unfold groupConstant?
  match ks?, h with
  | none, h => rw [if_pos (hcontains.2 h)]
  | some [], ⟨hnot, hnil, _⟩ => rw [if_neg (mt hcontains.1 hnot), if_pos (hall.2 (hnil.1 rfl))]
  | some (k :: ks), ⟨hnot, hnil, _⟩ =>
    rw [if_neg (mt hcontains.1 hnot),
      if_neg fun h => List.cons_ne_nil k ks (hnil.2 (hall.1 h))]

end GroupSends

namespace Simplified

variable {constants : List (Option Bool)} {m : Option Bool} {vs ws : List Value}
  {ks? : Option (List Clause)}

/-- One more member of a conjunction. -/
theorem Sends.conjoin {k : Simplified} (hk : k.Sends m ws)
    (h : GroupSends false constants vs ks?) :
    GroupSends false (m :: constants) (ws ++ vs) (k.conjoin ks?) := by
  cases k with
  | everything =>
    obtain ⟨rfl, rfl⟩ := hk
    exact h.neutral
  | nothing =>
    obtain ⟨rfl, rfl⟩ := hk
    exact .decisive
  | clause c =>
    obtain ⟨rfl, hc⟩ := hk
    exact h.clause hc

theorem Sends.disjoin {k : Simplified} (hk : k.Sends m ws)
    (h : GroupSends true constants vs ks?) :
    GroupSends true (m :: constants) (ws ++ vs) (k.disjoin ks?) := by
  cases k with
  | everything =>
    obtain ⟨rfl, rfl⟩ := hk
    exact .decisive
  | nothing =>
    obtain ⟨rfl, rfl⟩ := hk
    exact h.neutral
  | clause c =>
    obtain ⟨rfl, hc⟩ := hk
    exact h.clause hc

/-- What is left of a conjunction. -/
theorem sends_ofAll (h : GroupSends false constants vs ks?) :
    (match ks? with
      | some ks => ofAll ks
      | none => .nothing).Sends (groupConstant? false constants)
        (if groupConstant? false constants = none then vs else []) := by
  rw [h.constant?_eq]
  match ks?, h with
  | none, _ => exact ⟨rfl, rfl⟩
  | some [], _ => exact ⟨rfl, rfl⟩
  -- one clause alone is not enclosed, so its values are read off without a separator
  | some [c], ⟨_, _, hvalues⟩ =>
    refine ⟨rfl, ?_⟩
    simpa [Clause.memberTemplates] using hvalues
  | some (c :: d :: ks), ⟨_, _, hvalues⟩ =>
    refine ⟨rfl, ?_⟩
    rw [Clause.template, Template.values_separated]
    exact hvalues

theorem sends_ofAny (h : GroupSends true constants vs ks?) :
    (match ks? with
      | some ks => ofAny ks
      | none => .everything).Sends (groupConstant? true constants)
        (if groupConstant? true constants = none then vs else []) := by
  rw [h.constant?_eq]
  match ks?, h with
  | none, _ => exact ⟨rfl, rfl⟩
  | some [], _ => exact ⟨rfl, rfl⟩
  | some [c], ⟨_, _, hvalues⟩ =>
    refine ⟨rfl, ?_⟩
    simpa [Clause.memberTemplates] using hvalues
  | some (c :: d :: ks), ⟨_, _, hvalues⟩ =>
    refine ⟨rfl, ?_⟩
    rw [Clause.template, Template.values_separated]
    exact hvalues

theorem Sends.negate {k : Simplified} (hk : k.Sends m vs) :
    k.negate.Sends (m.map Bool.not) vs := by
  cases k with
  | everything =>
    obtain ⟨rfl, rfl⟩ := hk
    exact ⟨rfl, rfl⟩
  | nothing =>
    obtain ⟨rfl, rfl⟩ := hk
    exact ⟨rfl, rfl⟩
  | clause c =>
    obtain ⟨rfl, hc⟩ := hk
    refine ⟨rfl, ?_⟩
    rw [Clause.template]
    simpa [Template.values] using hc

end Simplified

/-! ## Filters -/

section

variable {e : Entity} {names : EntityNames}

/-- The values of a list that are stored for a field that was looked up. -/
theorem Entity.storedFor_of_lookUp {key column : String} {f : Field}
    (h : Condition.lookUp e names key = .ok (f, column)) (vs : List Value) :
    e.storedFor key vs = (vs.map f.converter.stored).filter fun w => !w.isNull := by
  rw [Entity.storedFor, (Condition.lookUp_eq_ok.1 h).1]

mutual

/-- What is left of the condition of a filter has the values that are sent for the filter. -/
theorem Filter.sends_simplify :
    ∀ {f : Filter} {c : Condition (List RawPart)} {d : Condition Template},
      Condition.ofFilter e names f = .ok c → c.resolve (RawPart.template names) = .ok d →
      d.simplify.Sends (f.constant? names) (f.sends e names)
  | .compare key op v, c, d, h, hd => by
    obtain ⟨f, column, w, p, hlook, hw, hp, rfl⟩ := Condition.ofFilter_compare_eq_ok h
    cases hd
    rw [Condition.simplify, Filter.constant?, Filter.sends, Entity.storedFor_of_lookUp hlook,
      List.map_cons, Converter.stored_of_toStored hw]
    exact ⟨rfl, Predicate.values_ofCompare hp⟩
  | .among key negated vs, c, d, h, hd => by
    -- a list without values is decided before any value is stored
    obtain ⟨f, column, hlook, ⟨rfl, rfl⟩ | ⟨hne, hasNull, ws, hlist, rfl⟩⟩ :=
      Condition.ofFilter_among_eq_ok h
    · rw [Filter.constant?, Filter.sends, Entity.storedFor_of_lookUp hlook]
      cases negated <;> cases hd <;> exact ⟨rfl, rfl⟩
    · have hempty : vs.isEmpty = false := List.isEmpty_eq_false_iff.2 hne
      rw [Filter.constant?, Filter.sends, Entity.storedFor_of_lookUp hlook, hempty]
      obtain ⟨_, rfl⟩ := Condition.storedList_eq hlist
      cases negated <;> cases hd
      · exact ⟨rfl, Predicate.values_ofOneOf hasNull _⟩
      · exact ⟨rfl, Predicate.values_ofNoneOf hasNull _⟩
  | .matching key mode text, c, d, h, hd => by
    obtain ⟨f, column, hlook, rfl⟩ := Condition.ofFilter_matching_eq_ok h
    cases hd
    exact ⟨rfl, Predicate.values_ofMatch mode text⟩
  | .and fs, c, d, h, hd => by
    obtain ⟨cs, hcs, rfl⟩ := Condition.ofFilter_and_eq_ok h
    obtain ⟨ds, hds, rfl⟩ := Condition.resolve_and_eq_ok hd
    rw [Filter.constant?, Filter.sends, Condition.simplify]
    exact Simplified.sends_ofAll (Filter.sends_conjuncts hcs hds)
  | .or fs, c, d, h, hd => by
    obtain ⟨cs, hcs, rfl⟩ := Condition.ofFilter_or_eq_ok h
    obtain ⟨ds, hds, rfl⟩ := Condition.resolve_or_eq_ok hd
    rw [Filter.constant?, Filter.sends, Condition.simplify]
    exact Simplified.sends_ofAny (Filter.sends_disjuncts hcs hds)
  | .not f, c, d, h, hd => by
    obtain ⟨c', hc', rfl⟩ := Condition.ofFilter_not_eq_ok h
    obtain ⟨d', hd', rfl⟩ := Condition.resolve_not_eq_ok hd
    rw [Filter.constant?, Filter.sends, Condition.simplify]
    exact (Filter.sends_simplify hc' hd').negate
  | .raw parts, c, d, h, hd => by
    cases h
    obtain ⟨t, ht, rfl⟩ := Condition.resolve_raw_eq_ok hd
    rw [Filter.constant?, Filter.sends, Condition.simplify, ht]
    -- blank text is true of every row and has no values; any other text is kept as it is
    show (if isBlankTemplate t then Simplified.everything else .clause (.raw t)).Sends
      (if isBlankTemplate t then some true else none) t.values
    split
    · next hblank => exact ⟨rfl, values_of_isBlankTemplate hblank⟩
    · exact ⟨rfl, by rw [Clause.template]⟩

theorem Filter.sends_conjuncts :
    ∀ {fs : List Filter} {cs : List (Condition (List RawPart))} {ds : List (Condition Template)},
      Condition.ofFilters e names fs = .ok cs →
      Condition.resolveAll (RawPart.template names) cs = .ok ds →
      GroupSends false (Filter.constants names fs) (Filter.allSend e names fs)
        (Condition.conjuncts ds)
  | [], cs, ds, h, hd => by
    cases h
    cases hd
    rw [Filter.constants, Filter.allSend, Condition.conjuncts]
    exact .nil
  | f :: fs, cs, ds, h, hd => by
    obtain ⟨c, rest, hc, hrest, rfl⟩ := Condition.ofFilters_cons_eq_ok h
    obtain ⟨d, rest', hfirst, hrest', rfl⟩ := Condition.resolveAll_cons_eq_ok hd
    rw [Filter.constants, Filter.allSend, Condition.conjuncts]
    exact (Filter.sends_simplify hc hfirst).conjoin (Filter.sends_conjuncts hrest hrest')

theorem Filter.sends_disjuncts :
    ∀ {fs : List Filter} {cs : List (Condition (List RawPart))} {ds : List (Condition Template)},
      Condition.ofFilters e names fs = .ok cs →
      Condition.resolveAll (RawPart.template names) cs = .ok ds →
      GroupSends true (Filter.constants names fs) (Filter.allSend e names fs)
        (Condition.disjuncts ds)
  | [], cs, ds, h, hd => by
    cases h
    cases hd
    rw [Filter.constants, Filter.allSend, Condition.disjuncts]
    exact .nil
  | f :: fs, cs, ds, h, hd => by
    obtain ⟨c, rest, hc, hrest, rfl⟩ := Condition.ofFilters_cons_eq_ok h
    obtain ⟨d, rest', hfirst, hrest', rfl⟩ := Condition.resolveAll_cons_eq_ok hd
    rw [Filter.constants, Filter.allSend, Condition.disjuncts]
    exact (Filter.sends_simplify hc hfirst).disjoin (Filter.sends_disjuncts hrest hrest')

end

/-- The values of the `where` clause of a filter are the values of what is left of it. -/
theorem Filter.values_whereClause {f : Filter} {t : Template}
    (h : f.whereClause e names = .ok t) : t.values = f.sends e names := by
  simp only [Filter.whereClause, bind_eq_ok, Filter.compile_eq_ok_iff, Except.ok.injEq] at h
  obtain ⟨text?, ⟨c, hc, d, hd, rfl⟩, rfl⟩ := h
  have hsends := Filter.sends_simplify hc hd
  cases hk : d.simplify with
  | everything =>
    rw [hk] at hsends
    exact hsends.2.symm
  | nothing =>
    rw [hk] at hsends
    exact hsends.2.symm
  | clause k =>
    rw [hk] at hsends
    exact hsends.2

end

end EntitySql
