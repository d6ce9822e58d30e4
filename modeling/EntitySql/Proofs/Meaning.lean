import EntitySql.Proofs.ReadBack

/-!
# The text of a filter means the filter

Here the way from a filter to its text is put together: conditions have the
truth of their filters, simplification keeps it, and the text of a clause is
read back as a sentence with the truth of the clause. What is left to see is
that simplification leaves nothing behind that cannot be read: no group of
fewer than two members and no empty list.

- `Filter.IsRawFree`: filters without text of their own.
- `Condition.readable_ofFilter`, `Condition.readable_simplify`: what is left of
  such a filter is readable.
- `Clause.sql_ne_neverText`: no clause has the text for no row.
- `Filter.compile_keeps_meaning`: the whole way.
-/

namespace EntitySql

open Mark (ofText)

mutual

/-- A filter without SQL text of its own. -/
def Filter.IsRawFree : Filter → Prop
  | .compare _ _ _ | .among _ _ _ | .matching _ _ _ => True
  | .and fs | .or fs => Filter.AllRawFree fs
  | .not f => Filter.IsRawFree f
  | .raw _ => False

/-- No filter of a list has SQL text of its own. -/
def Filter.AllRawFree : List Filter → Prop
  | [] => True
  | f :: fs => Filter.IsRawFree f ∧ Filter.AllRawFree fs

end

section

variable (known : String → Prop)

mutual

/-- A condition of readable predicates, without raw conditions. -/
def Condition.IsReadable {ρ : Type} : Condition ρ → Prop
  | .always | .never => True
  | .predicate p => p.IsReadable known
  | .raw _ => False
  | .and cs | .or cs => Condition.AllReadable cs
  | .not c => Condition.IsReadable c

/-- Every condition of a list is readable. -/
def Condition.AllReadable {ρ : Type} : List (Condition ρ) → Prop
  | [] => True
  | c :: cs => Condition.IsReadable c ∧ Condition.AllReadable cs

end

/-- What is left of a condition is readable, if it has a text. -/
def Simplified.IsReadable : Simplified → Prop
  | .everything | .nothing => True
  | .clause c => c.IsReadable known

end

/-! ## From filters to conditions -/

section

variable {known : String → Prop} {key column : String} {allowNull : Bool}

/-- The predicate of a comparison is readable. -/
theorem Predicate.readable_ofCompare {op : CompareOp} {v : Value} {p : Predicate}
    (hcolumn : known column) (h : Predicate.ofCompare key column allowNull op v = .ok p) :
    p.IsReadable known := by
  unfold Predicate.ofCompare at h
  split at h
  · cases op <;> cases h <;> exact hcolumn
  · split at h <;> cases h
    · exact ⟨hcolumn, hcolumn⟩
    · exact hcolumn

/-- The predicate of a list is readable, as the list is not empty: its values are NULL or stay. -/
theorem Predicate.readable_ofOneOf {hasNull : Bool} {vs : List Value} (hcolumn : known column)
    (hvs : hasNull = true ∨ vs ≠ []) :
    (Predicate.ofOneOf column hasNull vs).IsReadable known := by
  unfold Predicate.ofOneOf
  cases hasNull with
  | false => exact ⟨hcolumn, hvs.resolve_left Bool.false_ne_true⟩
  | true =>
    cases vs with
    | nil => exact hcolumn
    | cons v vs => exact ⟨⟨hcolumn, List.cons_ne_nil v vs⟩, hcolumn⟩

theorem Predicate.readable_ofNoneOf {hasNull : Bool} {vs : List Value} (hcolumn : known column)
    (hvs : hasNull = true ∨ vs ≠ []) :
    (Predicate.ofNoneOf column allowNull hasNull vs).IsReadable known := by
  unfold Predicate.ofNoneOf
  cases hasNull with
  | false =>
    have hne : vs ≠ [] := hvs.resolve_left Bool.false_ne_true
    cases allowNull with
    | false => exact ⟨hcolumn, hne⟩
    | true => exact ⟨⟨hcolumn, hne⟩, hcolumn⟩
  | true =>
    cases vs with
    | nil => exact hcolumn
    | cons v vs => exact ⟨⟨hcolumn, List.cons_ne_nil v vs⟩, hcolumn⟩

theorem Predicate.readable_ofMatch (hcolumn : known column) (mode : MatchMode) (text : String) :
    (Predicate.ofMatch column allowNull mode text).IsReadable known := by
  cases mode with
  | notContains =>
    cases allowNull with
    | false => exact hcolumn
    | true => exact ⟨hcolumn, hcolumn⟩
  | contains => exact hcolumn
  | startsWith => exact hcolumn
  | endsWith => exact hcolumn

/-- The stored values of a list that is not empty: NULL is among them, or others are. -/
theorem Condition.storedList_ne_nil {c : Converter} {vs ws : List Value} {hasNull : Bool}
    (hne : vs ≠ []) (h : Condition.storedList c vs = .ok (hasNull, ws)) :
    hasNull = true ∨ ws ≠ [] := by
  obtain ⟨rfl, rfl⟩ := Condition.storedList_eq h
  obtain ⟨v, vs, rfl⟩ := List.exists_cons_of_ne_nil hne
  cases hnull : (c.stored v).isNull with
  | false =>
    right
    simp [hnull]
  | true =>
    left
    simp [hnull]

end

/-- The texts that stand for fields. -/
def EntityNames.Knows (names : EntityNames) (column : String) : Prop :=
  ∃ key, names.columnOf key = .ok column

/-- A field that is looked up has a text that stands for it. -/
theorem Condition.knows_of_lookUp {e : Entity} {names : EntityNames} {key column : String}
    {f : Field} (h : Condition.lookUp e names key = .ok (f, column)) : names.Knows column :=
  ⟨key, (Condition.lookUp_eq_ok.1 h).2⟩

mutual

/-- The condition of a filter without SQL text is readable. -/
theorem Condition.readable_ofFilter {e : Entity} {names : EntityNames} :
    ∀ {f : Filter} {c : Condition (List RawPart)}, f.IsRawFree →
      Condition.ofFilter e names f = .ok c → c.IsReadable names.Knows
  | .compare key op v, c, _, h => by
    obtain ⟨f, column, w, p, hlook, _, hp, rfl⟩ := Condition.ofFilter_compare_eq_ok h
    rw [Condition.IsReadable]
    exact Predicate.readable_ofCompare (Condition.knows_of_lookUp hlook) hp
  | .among key negated vs, c, _, h => by
    -- without values nothing is left to read
    obtain ⟨f, column, hlook, ⟨rfl, rfl⟩ | ⟨hne, hasNull, ws, hlist, rfl⟩⟩ :=
      Condition.ofFilter_among_eq_ok h
    · cases negated <;> simp [Condition.IsReadable]
    · have hcolumn := Condition.knows_of_lookUp hlook
      have hws := Condition.storedList_ne_nil hne hlist
      cases negated <;> rw [Condition.IsReadable]
      · exact Predicate.readable_ofOneOf hcolumn hws
      · exact Predicate.readable_ofNoneOf hcolumn hws
  | .matching key mode text, c, _, h => by
    obtain ⟨f, column, hlook, rfl⟩ := Condition.ofFilter_matching_eq_ok h
    rw [Condition.IsReadable]
    exact Predicate.readable_ofMatch (Condition.knows_of_lookUp hlook) mode text
  | .and fs, c, hraw, h => by
    rw [Filter.IsRawFree] at hraw
    obtain ⟨cs, hcs, rfl⟩ := Condition.ofFilter_and_eq_ok h
    rw [Condition.IsReadable]
    exact Condition.allReadable_ofFilters hraw hcs
  | .or fs, c, hraw, h => by
    rw [Filter.IsRawFree] at hraw
    obtain ⟨cs, hcs, rfl⟩ := Condition.ofFilter_or_eq_ok h
    rw [Condition.IsReadable]
    exact Condition.allReadable_ofFilters hraw hcs
  | .not f, c, hraw, h => by
    rw [Filter.IsRawFree] at hraw
    obtain ⟨c', hc', rfl⟩ := Condition.ofFilter_not_eq_ok h
    rw [Condition.IsReadable]
    exact Condition.readable_ofFilter hraw hc'
  | .raw parts, c, hraw, _ => by
    rw [Filter.IsRawFree] at hraw
    exact hraw.elim

theorem Condition.allReadable_ofFilters {e : Entity} {names : EntityNames} :
    ∀ {fs : List Filter} {cs : List (Condition (List RawPart))}, Filter.AllRawFree fs →
      Condition.ofFilters e names fs = .ok cs → Condition.AllReadable names.Knows cs
  | [], cs, _, h => by
    cases h
    rw [Condition.AllReadable]
    trivial
  | f :: fs, cs, hraw, h => by
    rw [Filter.AllRawFree] at hraw
    obtain ⟨c, rest, hc, hrest, rfl⟩ := Condition.ofFilters_cons_eq_ok h
    rw [Condition.AllReadable]
    exact ⟨Condition.readable_ofFilter hraw.1 hc, Condition.allReadable_ofFilters hraw.2 hrest⟩

end

/-! ## What is left of a condition -/

section

variable {known : String → Prop}

mutual

/-- There is nothing to work out in a readable condition. -/
theorem Condition.readable_resolve {ρ σ ε : Type} {f : ρ → Except ε σ} :
    ∀ {c : Condition ρ} {d : Condition σ}, c.IsReadable known → c.resolve f = .ok d →
      d.IsReadable known
  | .always, d, _, h => by
    cases h
    rw [Condition.IsReadable]
    trivial
  | .never, d, _, h => by
    cases h
    rw [Condition.IsReadable]
    trivial
  | .predicate p, d, hc, h => by
    cases h
    rwa [Condition.IsReadable] at hc ⊢
  | .raw r, d, hc, _ => by
    rw [Condition.IsReadable] at hc
    exact hc.elim
  | .and cs, d, hc, h => by
    obtain ⟨ds, hds, rfl⟩ := Condition.resolve_and_eq_ok h
    rw [Condition.IsReadable] at hc ⊢
    exact Condition.allReadable_resolveAll hc hds
  | .or cs, d, hc, h => by
    obtain ⟨ds, hds, rfl⟩ := Condition.resolve_or_eq_ok h
    rw [Condition.IsReadable] at hc ⊢
    exact Condition.allReadable_resolveAll hc hds
  | .not c, d, hc, h => by
    obtain ⟨d', hd', rfl⟩ := Condition.resolve_not_eq_ok h
    rw [Condition.IsReadable] at hc ⊢
    exact Condition.readable_resolve hc hd'

theorem Condition.allReadable_resolveAll {ρ σ ε : Type} {f : ρ → Except ε σ} :
    ∀ {cs : List (Condition ρ)} {ds : List (Condition σ)}, Condition.AllReadable known cs →
      Condition.resolveAll f cs = .ok ds → Condition.AllReadable known ds
  | [], ds, _, h => by
    cases h
    rw [Condition.AllReadable]
    trivial
  | c :: cs, ds, hcs, h => by
    rw [Condition.AllReadable] at hcs
    obtain ⟨d, rest, hd, hrest, rfl⟩ := Condition.resolveAll_cons_eq_ok h
    rw [Condition.AllReadable]
    exact ⟨Condition.readable_resolve hcs.1 hd, Condition.allReadable_resolveAll hcs.2 hrest⟩

end

namespace Simplified

/-- The negation of what can be read can be read. -/
theorem readable_negate {k : Simplified} (hk : k.IsReadable known) :
    k.negate.IsReadable known := by
  cases k with
  | everything => trivial
  | nothing => trivial
  | clause c =>
    show Clause.IsReadable known (.not c)
    rw [Clause.IsReadable]
    exact hk

/-- A group is made of two members or more. -/
theorem readable_ofAll {ks : List Clause} (hks : Clause.AllReadable known ks) :
    (ofAll ks).IsReadable known := by
  -- fewer than two members are no group: the text would have no word between them
  match ks, hks with
  | [], _ => trivial
  | [k], hks =>
    rw [Clause.AllReadable] at hks
    exact hks.1
  | k :: l :: ks, hks =>
    show Clause.IsReadable known (.and (k :: l :: ks))
    rw [Clause.IsReadable]
    exact ⟨by simp, hks⟩

theorem readable_ofAny {ks : List Clause} (hks : Clause.AllReadable known ks) :
    (ofAny ks).IsReadable known := by
  match ks, hks with
  | [], _ => trivial
  | [k], hks =>
    rw [Clause.AllReadable] at hks
    exact hks.1
  | k :: l :: ks, hks =>
    show Clause.IsReadable known (.or (k :: l :: ks))
    rw [Clause.IsReadable]
    exact ⟨by simp, hks⟩

theorem allReadable_cons {c : Clause} {ks? : Option (List Clause)} {ls : List Clause}
    (hc : c.IsReadable known) (hks : ∀ ks, ks? = some ks → Clause.AllReadable known ks)
    (h : ks?.map (c :: ·) = some ls) : Clause.AllReadable known ls := by
  obtain ⟨ks, hsome, rfl⟩ := Option.map_eq_some_iff.1 h
  rw [Clause.AllReadable]
  exact ⟨hc, hks ks hsome⟩

end Simplified

mutual

/-- What is left of a readable condition is readable. -/
theorem Condition.readable_simplify :
    ∀ {c : Condition Template}, c.IsReadable known → c.simplify.IsReadable known
  | .always, _ => by
    rw [Condition.simplify]
    trivial
  | .never, _ => by
    rw [Condition.simplify]
    trivial
  | .predicate p, hc => by
    rw [Condition.IsReadable] at hc
    rw [Condition.simplify]
    show Clause.IsReadable known (.predicate p)
    rwa [Clause.IsReadable]
  | .raw t, hc => by
    rw [Condition.IsReadable] at hc
    exact hc.elim
  | .and cs, hc => by
    rw [Condition.IsReadable] at hc
    rw [Condition.simplify]
    split
    · next ks hks => exact Simplified.readable_ofAll (Condition.allReadable_conjuncts hc ks hks)
    · trivial
  | .or cs, hc => by
    rw [Condition.IsReadable] at hc
    rw [Condition.simplify]
    split
    · next ks hks => exact Simplified.readable_ofAny (Condition.allReadable_disjuncts hc ks hks)
    · trivial
  | .not c, hc => by
    rw [Condition.IsReadable] at hc
    rw [Condition.simplify]
    exact Simplified.readable_negate (Condition.readable_simplify hc)

/-- The members left in a conjunction are readable. -/
theorem Condition.allReadable_conjuncts :
    ∀ {cs : List (Condition Template)}, Condition.AllReadable known cs →
      ∀ ks, Condition.conjuncts cs = some ks → Clause.AllReadable known ks
  | [], _, ks, h => by
    cases h
    rw [Clause.AllReadable]
    trivial
  | c :: cs, hcs, ks, h => by
    rw [Condition.AllReadable] at hcs
    have hc := Condition.readable_simplify hcs.1
    have hrest := Condition.allReadable_conjuncts hcs.2
    rw [Condition.conjuncts] at h
    -- a member is dropped, ends the group or stays
    cases hsimple : c.simplify with
    | everything =>
      rw [hsimple] at h
      exact hrest ks h
    | nothing =>
      rw [hsimple] at h
      cases h
    | clause k =>
      rw [hsimple] at h hc
      exact Simplified.allReadable_cons hc hrest h

theorem Condition.allReadable_disjuncts :
    ∀ {cs : List (Condition Template)}, Condition.AllReadable known cs →
      ∀ ks, Condition.disjuncts cs = some ks → Clause.AllReadable known ks
  | [], _, ks, h => by
    cases h
    rw [Clause.AllReadable]
    trivial
  | c :: cs, hcs, ks, h => by
    rw [Condition.AllReadable] at hcs
    have hc := Condition.readable_simplify hcs.1
    have hrest := Condition.allReadable_disjuncts hcs.2
    rw [Condition.disjuncts] at h
    -- the same three cases, with `everything` and `nothing` exchanged
    cases hsimple : c.simplify with
    | everything =>
      rw [hsimple] at h
      cases h
    | nothing =>
      rw [hsimple] at h
      exact hrest ks h
    | clause k =>
      rw [hsimple] at h hc
      exact Simplified.allReadable_cons hc hrest h

end

end

/-! ## The text for no row -/

/-- There is a parameter, or a character that the text for no row does not have. -/
def Template.SaysMore (t : Template) : Prop :=
  ∃ x ∈ t.flat, ∀ c, x = .inl c → c ∉ neverText.toList

namespace Template

/-- A part that says more is enough. -/
theorem SaysMore.of_subset {t u : Template} (h : t.SaysMore) (hsub : t.flat ⊆ u.flat) :
    u.SaysMore := by
  obtain ⟨x, hx, hmore⟩ := h
  exact ⟨x, hsub hx, hmore⟩

/-- A parameter says more. -/
theorem saysMore_of_param {t : Template} {v : Value} (h : .inr v ∈ t.flat) : t.SaysMore :=
  ⟨.inr v, h, by simp⟩

/-- A character that the text for no row does not have says more. -/
theorem saysMore_of_char {t : Template} {c : Char} (h : .inl c ∈ t.flat)
    (hc : c ∉ neverText.toList) : t.SaysMore := by
  refine ⟨.inl c, h, ?_⟩
  rintro _ ⟨⟩
  exact hc

/-- The first member of a list of templates is a part of it. -/
theorem subset_separated (s : String) (t : Template) (ts : List Template) :
    t.flat ⊆ (separated s (t :: ts)).flat := by
  cases ts with
  | nil => exact List.Subset.refl _
  | cons u ts =>
    rw [separated, flat_append]
    exact List.subset_append_left _ _

/-- A character stays in the text. -/
theorem mem_spell_of_char (write : Nat → Value → String) {c : Char} :
    ∀ {cs : List (Char ⊕ Value)} (position : Nat), .inl c ∈ cs → c ∈ spell write position cs
  | .inl d :: cs, position, h => by
    rw [spell]
    rcases List.mem_cons.1 h with heq | h
    · cases heq
      exact List.mem_cons_self
    · exact List.mem_cons_of_mem _ (mem_spell_of_char write position h)
  | .inr v :: cs, position, h => by
    rw [spell]
    have hcs := (List.mem_cons.1 h).resolve_left (by simp)
    exact List.mem_append_right _ (mem_spell_of_char write (position + 1) hcs)

/-- What is written for a parameter is in the text. -/
theorem subset_spell_of_param (write : Nat → Value → String) {v : Value} :
    ∀ {cs : List (Char ⊕ Value)} (position : Nat), .inr v ∈ cs →
      ∃ place, (write place v).toList ⊆ spell write position cs
  | .inl d :: cs, position, h => by
    have hcs := (List.mem_cons.1 h).resolve_left (by simp)
    obtain ⟨place, hsub⟩ := subset_spell_of_param write position hcs
    exact ⟨place, fun c hc => List.mem_cons_of_mem _ (hsub hc)⟩
  | .inr w :: cs, position, h => by
    rw [spell]
    rcases List.mem_cons.1 h with heq | h
    · cases heq
      exact ⟨position, List.subset_append_left _ _⟩
    · obtain ⟨place, hsub⟩ := subset_spell_of_param write (position + 1) h
      exact ⟨place, fun c hc => List.mem_append_right _ (hsub hc)⟩

end Template

/-- A text that says more is not the text for no row. -/
theorem Template.SaysMore.sql_ne {t : Template} (h : t.SaysMore) (style : TokenStyle) :
    t.sql style ≠ neverText := by
  obtain ⟨x, hx, hmore⟩ := h
  have hspell : (t.sql style).toList = spell (fun position _ => style.token position) 1 t.flat := by
    rw [sql, render_eq_spell, String.toList_ofList]
  intro heq
  rw [heq] at hspell
  -- a character is in the text as it is; a parameter brings the first character of its token
  cases x with
  | inl c =>
    refine hmore c rfl ?_
    rw [hspell]
    exact mem_spell_of_char _ 1 hx
  | inr v =>
    obtain ⟨place, hsub⟩ := subset_spell_of_param (fun position _ => style.token position) 1 hx
    obtain ⟨c, hc, hstart⟩ := style.exists_tokenStart place
    have hnot : c ∉ neverText.toList := by
      rcases mem_tokenStarts.1 hstart with rfl | rfl | rfl <;> decide
    refine hnot ?_
    rw [hspell]
    exact hsub hc

/-- A test says more. -/
theorem Test.saysMore (t : Test) : t.template.SaysMore := by
  have hn : 'n' ∉ neverText.toList := by decide
  -- a test without parameters has an `n`: in `null`, in `in` or in `not in`
  cases t with
  | isNull column =>
    exact Template.saysMore_of_char (c := 'n') (by simp [template, Template.flat]) hn
  | isNotNull column =>
    exact Template.saysMore_of_char (c := 'n') (by simp [template, Template.flat]) hn
  | compare column op v =>
    exact Template.saysMore_of_param (v := v) (by simp [template, Template.flat])
  | oneOf column vs =>
    exact Template.saysMore_of_char (c := 'n') (by simp [template, Template.flat]) hn
  | noneOf column vs =>
    exact Template.saysMore_of_char (c := 'n') (by simp [template, Template.flat]) hn
  | like column pattern =>
    exact Template.saysMore_of_param (v := .text pattern)
      (by simp [template, likeTemplate, Template.flat])
  | notLike column pattern =>
    exact Template.saysMore_of_param (v := .text pattern)
      (by simp [template, likeTemplate, Template.flat])

theorem Predicate.saysMore (p : Predicate) : p.template.SaysMore := by
  cases p with
  | one t => exact t.saysMore
  | either t u =>
    refine t.saysMore.of_subset ?_
    simp [template, Template.flat]
  | both t u =>
    refine t.saysMore.of_subset ?_
    simp [template, Template.flat]

theorem Clause.subset_enclose (compound : Bool) (t : Template) :
    t.flat ⊆ (Clause.enclose compound t).flat := by
  cases compound with
  | false => exact List.Subset.refl _
  | true => simp [enclose, Template.flat]

mutual

/-- A readable clause says more. -/
theorem Clause.saysMore {known : String → Prop} : ∀ {c : Clause}, c.IsReadable known →
    c.template.SaysMore
  | .predicate p, _ => by
    rw [Clause.template]
    exact p.saysMore
  | .raw t, hc => by
    rw [Clause.IsReadable] at hc
    exact hc.elim
  | .and cs, hc => by
    rw [Clause.IsReadable] at hc
    rw [Clause.template]
    exact Clause.saysMore_separated " and " hc.1 hc.2
  | .or cs, hc => by
    rw [Clause.IsReadable] at hc
    rw [Clause.template]
    exact Clause.saysMore_separated " or " hc.1 hc.2
  | .not c, hc => by
    rw [Clause.IsReadable] at hc
    rw [Clause.template]
    refine (Clause.saysMore hc).of_subset ?_
    intro x hx
    simp [Template.flat, hx]

/-- The members of a readable group say more, as there is a first one. -/
theorem Clause.saysMore_separated {known : String → Prop} (s : String) :
    ∀ {cs : List Clause}, 2 ≤ cs.length → Clause.AllReadable known cs →
      (Template.separated s (Clause.memberTemplates cs)).SaysMore
  | c :: cs, _, hcs => by
    rw [Clause.AllReadable] at hcs
    rw [Clause.memberTemplates]
    refine (Clause.saysMore hcs.1).of_subset ?_
    exact List.Subset.trans (Clause.subset_enclose _ _) (Template.subset_separated s _ _)

end

/-- No readable clause has the text for no row. -/
theorem Clause.sql_ne_neverText {known : String → Prop} {c : Clause} (hc : c.IsReadable known)
    (style : TokenStyle) : c.template.sql style ≠ neverText :=
  (Clause.saysMore hc).sql_ne style

/-! ## The whole way -/

/-- What a filter compiles to, as its reader sees it: the text is that of marks whose columns are
those of the entity, and these are read as a sentence which means the filter on every row of every
database. -/
def Template.Means (t : Template) (f : Filter) (e : Entity) (names : EntityNames) : Prop :=
  ∃ (ms : List Mark) (s : Sentence),
    (∀ style, t.sql style = (Mark.template ms).sql style) ∧
    t.values = (Mark.template ms).values ∧
    Mark.AllKnown names.Knows ms ∧
    Sentence.read? ms = some s ∧
    ∀ g row raw, s.truth g row = f.truth g row e names raw

/-- The text for no row is read as a falsehood. -/
theorem Sentence.read?_neverText : Sentence.read? (ofText neverText) = some .falsehood := by
  have hscan : scan (ofText neverText) = [.one, .op .eq, .zero] := rfl
  rw [Sentence.read?, hscan, parse.eq_3 _ _ _ (by simp) (by simp)]
  show (if 0 < 3 then parse .operator (Frame.empty.add .falsehood) [] [] else none) = _
  rw [if_pos (by decide), parse_end]
  rfl

mutual

/-- Raw filters do not matter to a filter without them. -/
theorem Filter.truth_eq_of_rawFree {g : Engine} {row : Row} {e : Entity} {names : EntityNames}
    (raw raw' : List RawPart → Truth) :
    ∀ {f : Filter}, f.IsRawFree → f.truth g row e names raw = f.truth g row e names raw'
  | .compare key op v, _ => by rw [Filter.truth, Filter.truth]
  | .among key negated vs, _ => by rw [Filter.truth, Filter.truth]
  | .matching key mode text, _ => by rw [Filter.truth, Filter.truth]
  | .and fs, hraw => by
    rw [Filter.IsRawFree] at hraw
    rw [Filter.truth, Filter.truth, Filter.truths_eq_of_rawFree raw raw' hraw]
  | .or fs, hraw => by
    rw [Filter.IsRawFree] at hraw
    rw [Filter.truth, Filter.truth, Filter.truths_eq_of_rawFree raw raw' hraw]
  | .not f, hraw => by
    rw [Filter.IsRawFree] at hraw
    rw [Filter.truth, Filter.truth, Filter.truth_eq_of_rawFree raw raw' hraw]
  | .raw parts, hraw => by
    rw [Filter.IsRawFree] at hraw
    exact hraw.elim

theorem Filter.truths_eq_of_rawFree {g : Engine} {row : Row} {e : Entity} {names : EntityNames}
    (raw raw' : List RawPart → Truth) :
    ∀ {fs : List Filter}, Filter.AllRawFree fs →
      Filter.truths g row e names raw fs = Filter.truths g row e names raw' fs
  | [], _ => by rw [Filter.truths, Filter.truths]
  | f :: fs, hraw => by
    rw [Filter.AllRawFree] at hraw
    rw [Filter.truths, Filter.truths, Filter.truth_eq_of_rawFree raw raw' hraw.1,
      Filter.truths_eq_of_rawFree raw raw' hraw.2]

end

/-- What is left of a filter without SQL text is readable and means the filter. -/
theorem Filter.compile_eq_ok {f : Filter} {e : Entity} {names : EntityNames} (hraw : f.IsRawFree)
    {text? : Option Template} (h : f.compile e names = .ok text?) :
    ∃ k : Simplified, text? = k.template? ∧ k.IsReadable names.Knows ∧
      ∀ g row raw, k.truth g row (fun _ => .yes) = f.truth g row e names raw := by
  obtain ⟨c, hc, d, hd, rfl⟩ := Filter.compile_eq_ok_iff.1 h
  refine ⟨d.simplify, rfl, ?_, ?_⟩
  · exact Condition.readable_simplify
      (Condition.readable_resolve (Condition.readable_ofFilter hraw hc) hd)
  · intro g row raw
    -- the truth is carried back through the three passes of the compiler
    calc d.simplify.truth g row (fun _ => .yes)
        = d.truth g row (fun _ => .yes) := Condition.truth_simplify (fun _ _ => rfl) d
      _ = c.truth g row (fun _ => .yes) := Condition.truth_resolve (fun _ _ _ => rfl) c hd
      _ = f.truth g row e names (fun _ => .yes) := Condition.truth_ofFilter _ f hc
      _ = f.truth g row e names raw := Filter.truth_eq_of_rawFree _ raw hraw

/-- A filter without SQL text of its own is compiled to a text that is read back as a condition
of the same truth, on every row. There is no text only if the filter is true of every row, and the
text for no row stands only for a filter that is false of every row. -/
theorem Filter.compile_keeps_meaning {f : Filter} {e : Entity} {names : EntityNames}
    (hraw : f.IsRawFree) {text? : Option Template} (h : f.compile e names = .ok text?) :
    (text? = none → ∀ g row raw, f.truth g row e names raw = .yes) ∧
      ∀ t, text? = some t → t.Means f e names ∧
        ∀ style, t.sql style = neverText → ∀ g row raw, f.truth g row e names raw = .no := by
  obtain ⟨k, rfl, hread, htruth⟩ := Filter.compile_eq_ok hraw h
  -- no text, the text for no row, or the text of a clause
  cases k with
  | everything =>
    refine ⟨fun _ g row raw => (htruth g row raw).symm, ?_⟩
    rintro t ⟨⟩
  | nothing =>
    have hno : ∀ g row raw, f.truth g row e names raw = .no :=
      fun g row raw => (htruth g row raw).symm
    refine ⟨by rintro ⟨⟩, ?_⟩
    rintro t ⟨⟩
    refine ⟨⟨ofText neverText, .falsehood, ?_, ?_, ?_, Sentence.read?_neverText, ?_⟩,
      fun _ _ => hno⟩
    · exact Template.sql_eq_of_flat_eq rfl
    · rfl
    · exact Mark.allKnown_ofText neverText
    · exact fun g row raw => (hno g row raw).symm
  | clause c =>
    refine ⟨by rintro ⟨⟩, ?_⟩
    rintro t ⟨⟩
    -- the text of a clause is the text of its marks, and the marks are what is read
    have hflat : c.template.flat = (Mark.template c.marks).flat := c.flat_marks.symm
    refine ⟨⟨c.marks, c.sentence, ?_, ?_, ?_, Clause.read_marks hread, ?_⟩, ?_⟩
    · exact Template.sql_eq_of_flat_eq hflat
    · exact Template.values_eq_of_flat_eq hflat
    · exact Clause.allKnown_marks hread
    · intro g row raw
      exact (Clause.truth_sentence g row _ hread).trans (htruth g row raw)
    · intro style hsql
      exact absurd hsql (Clause.sql_ne_neverText hread style)

/-- An entity with a field that may hold NULL. -/
def person : Entity :=
  { key := "person", table := "person"
    fields := [.ofType "id" .integer, { Field.ofType "name" .text with allowNull := true }]
    identity := ["id"] }

/-- A filter with groups in groups and NULL in a list. -/
def nestedFilter : Filter :=
  .and [
    .or [
      .compare "name" .ne (.text "a"),
      .not (.and [.among "id" false [.integer 1, .null], .matching "name" .contains "b"])],
    .and [.compare "id" .gt (.integer 0), .and []]]

/-- The members of a disjunction inside a conjunction stay together. -/
theorem Filter.compile_keeps_meaning_nested :
    ∃ t, nestedFilter.compile person (.resolve person .bare) = .ok (some t) ∧
      t.sql .dollar = "((name <> $1 or name is null) or not ((id in ($2) or id is null) and " ++
        "lower(name) like lower($3) escape '!')) and id > $4" ∧
      t.Means nestedFilter person (.resolve person .bare) := by
  have hraw : nestedFilter.IsRawFree := by
    simp [nestedFilter, Filter.IsRawFree, Filter.AllRawFree]
  refine ⟨_, rfl, rfl, ?_⟩
  exact ((Filter.compile_keeps_meaning hraw rfl).2 _ rfl).1

end EntitySql
