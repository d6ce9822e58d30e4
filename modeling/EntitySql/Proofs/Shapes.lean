import EntitySql.Proofs.Characters
import EntitySql.Proofs.Stored
import Mathlib.Data.List.Forall2

/-!
# Filters of one shape

Two filters have one shape if they differ in values only, and those convert
alike: both do, to NULL or to something else. A value may be any text, with
quotes, patterns, marks and all. What such filters compile to is the same up
to the values, so the text that is sent is the same: no value is a part of it.

- `Both`: two computations that succeed together, with related results.
- `Template.blank`: a statement without its values, which decides the text.
- `Entity.Alike`, `Filter.Alike`: values and filters of one shape.
- `Filter.compile_alike`: filters of one shape have the same text.
-/

namespace EntitySql

/-! ## Two computations -/

/-- Two computations succeed with related results, or both fail. -/
def Both {α β : Type} (R : α → β → Prop) : Except Failure α → Except Failure β → Prop
  | .ok a, .ok b => R a b
  | .error _, .error _ => True
  | _, _ => False

namespace Both

variable {α β γ δ : Type} {R : α → β → Prop} {S : γ → δ → Prop} {x : Except Failure α}
  {y : Except Failure β}

/-- Computations in sequence, if their steps succeed together. -/
theorem bind {f : α → Except Failure γ} {g : β → Except Failure δ} (h : Both R x y)
    (hf : ∀ a b, R a b → Both S (f a) (g b)) : Both S (x >>= f) (y >>= g) := by
  cases x with
  | error e =>
    cases y with
    | error e' => trivial
    | ok b => exact h.elim
  | ok a =>
    cases y with
    | error e' => exact h.elim
    | ok b => exact hf a b h

/-- A weaker relation of the results. -/
theorem imp {R' : α → β → Prop} (h : Both R x y) (himp : ∀ a b, R a b → R' a b) :
    Both R' x y := by
  cases x with
  | error e =>
    cases y with
    | error e' => trivial
    | ok b => exact h.elim
  | ok a =>
    cases y with
    | error e' => exact h.elim
    | ok b => exact himp a b h

/-- Every result of either computation is related to one of the other. -/
theorem iff_results : Both R x y ↔ (∀ a, x = .ok a → ∃ b, y = .ok b ∧ R a b) ∧
    ∀ b, y = .ok b → ∃ a, x = .ok a ∧ R a b := by
  cases x <;> cases y <;> simp [Both]

/-- Only the results of computations count, and not how they fail. -/
theorem of_results {x' : Except Failure α} {y' : Except Failure β} (h : Both R x y)
    (hx : ∀ a, x' = .ok a ↔ x = .ok a) (hy : ∀ b, y' = .ok b ↔ y = .ok b) : Both R x' y' := by
  rw [iff_results] at h ⊢
  simpa only [hx, hy] using h

/-- A computation succeeds together with itself. -/
theorem refl (z : Except Failure α) : Both Eq z z := by
  cases z with
  | error e => trivial
  | ok a => exact rfl

/-- The same computation with continuations that succeed together. -/
theorem bind_same {z : Except Failure α} {f : α → Except Failure γ} {g : α → Except Failure δ}
    (hf : ∀ a, z = .ok a → Both S (f a) (g a)) : Both S (z >>= f) (z >>= g) := by
  cases z with
  | error e => trivial
  | ok a => exact hf a rfl

end Both

/-! ## Statements without their values -/

namespace Template

/-- The piece without its value. -/
def blankPiece : Piece → Piece
  | .text s => .text s
  | .param _ => .param .null

/-- The statement without its values. -/
def blank (t : Template) : Template := t.map blankPiece

@[simp] theorem blank_append (t u : Template) : (t ++ u).blank = t.blank ++ u.blank :=
  List.map_append

@[simp] theorem blank_text (s : String) (t : Template) :
    blank (.text s :: t) = .text s :: t.blank := rfl

@[simp] theorem blank_param (v : Value) (t : Template) :
    blank (.param v :: t) = .param .null :: t.blank := rfl

/-- The text of a statement does not depend on its values. -/
theorem sql_blank (t : Template) (style : TokenStyle) : t.blank.sql style = t.sql style := by
  -- a value moves the positions after it, so the induction is over any start
  have hfrom : ∀ (t : Template) (position : Nat),
      t.blank.render (fun k _ => style.token k) position =
        t.render (fun k _ => style.token k) position := by
    intro t
    induction t with
    | nil => exact fun _ => rfl
    | cons p t ih =>
      intro position
      cases p with
      | text s => rw [blank_text, render, render, ih]
      | param v => rw [blank_param, render, render, ih]
  exact hfrom t 1

/-- Statements that differ in their values only have the same text. -/
theorem sql_eq_of_blank_eq {t u : Template} (h : t.blank = u.blank) (style : TokenStyle) :
    t.sql style = u.sql style := by
  rw [← sql_blank t, ← sql_blank u, h]

/-- Statements one after the other. -/
theorem blank_separated_eq (s : String) {ts us : List Template}
    (h : List.Forall₂ (fun t u => blank t = blank u) ts us) :
    (separated s ts).blank = (separated s us).blank := by
  induction h with
  | nil => rfl
  | cons hxy hrest ih =>
    cases hrest with
    | nil => exact hxy
    | cons hzw _ =>
      rw [separated, separated, blank_append, blank_append, hxy, blank_text, blank_text, ih]

theorem blank_parameters_eq {vs ws : List Value} (h : vs.length = ws.length) :
    (parameters vs).blank = (parameters ws).blank := by
  refine blank_separated_eq ", " ?_
  rw [List.forall₂_map_left_iff, List.forall₂_map_right_iff]
  exact List.forall₂_iff_get.2 ⟨h, fun _ _ _ => rfl⟩

/-- Raw text is blank with any values or with none. -/
theorem isBlankTemplate_eq_of_blank_eq {t u : Template} (h : t.blank = u.blank) :
    isBlankTemplate t = isBlankTemplate u := by
  have hblank : ∀ t : Template, isBlankTemplate t.blank = isBlankTemplate t := by
    intro t
    induction t with
    | nil => rfl
    | cons p t ih =>
      rw [isBlankTemplate, isBlankTemplate] at ih ⊢
      cases p with
      | text s => rw [blank_text, List.all_cons, List.all_cons, ih]
      | param v => rfl
  rw [← hblank t, ← hblank u, h]

end Template

/-! ## Values of one shape -/

/-- Two values in the place of a field: both convert, to NULL or to something else. A part of an
identity that no field converts is NULL in both places or in none. -/
structure Entity.Alike (e : Entity) (key : String) (v w : Value) : Prop where
  stored : ∀ f ∈ e.fields, f.key = key → ∃ a b, f.converter.toStored v = .ok a ∧
    f.converter.toStored w = .ok b ∧ a.isNull = b.isNull
  unconverted : key ∈ e.identity → (∀ f ∈ e.fields, f.key ≠ key) → v.isNull = w.isNull

/-- Parts of identities of one shape are NULL in both places or in none. -/
theorem Entity.Alike.isNull_eq {e : Entity} {key : String} {v w : Value}
    (h : e.Alike key v w) (hkey : key ∈ e.identity) : v.isNull = w.isNull := by
  -- an identity may name a key that no field has
  by_cases hfield : ∃ f ∈ e.fields, f.key = key
  · obtain ⟨f, hf, hf'⟩ := hfield
    obtain ⟨a, b, ha, hb, hnull⟩ := h.stored f hf hf'
    rw [← Converter.isNull_of_toStored ha, ← Converter.isNull_of_toStored hb, hnull]
  · refine h.unconverted hkey fun f hf hf' => ?_
    exact hfield ⟨f, hf, hf'⟩

/-- A step of a raw filter with another value in the place of its own. -/
inductive RawPart.Alike : RawPart → RawPart → Prop
  | param (v w : Value) : Alike (.param v) (.param w)
  | bind (v w : Value) : Alike (.bind v) (.bind w)
  | same (p : RawPart) : Alike p p

mutual

/-- Filters of one shape: they differ in values only, and these are of one shape. -/
inductive Filter.Alike (e : Entity) : Filter → Filter → Prop
  | compare {key : String} {op : CompareOp} {v w : Value} (h : e.Alike key v w) :
    Filter.Alike e (.compare key op v) (.compare key op w)
  | among {key : String} {negated : Bool} {vs ws : List Value}
    (h : List.Forall₂ (e.Alike key) vs ws) :
    Filter.Alike e (.among key negated vs) (.among key negated ws)
  | matching {key : String} {mode : MatchMode} {text text' : String} :
    Filter.Alike e (.matching key mode text) (.matching key mode text')
  | and {fs gs : List Filter} (h : Filter.AllAlike e fs gs) : Filter.Alike e (.and fs) (.and gs)
  | or {fs gs : List Filter} (h : Filter.AllAlike e fs gs) : Filter.Alike e (.or fs) (.or gs)
  | not {f g : Filter} (h : Filter.Alike e f g) : Filter.Alike e (.not f) (.not g)
  | raw {ps qs : List RawPart} (h : List.Forall₂ RawPart.Alike ps qs) :
    Filter.Alike e (.raw ps) (.raw qs)

/-- Lists of filters of one shape, each in its place. -/
inductive Filter.AllAlike (e : Entity) : List Filter → List Filter → Prop
  | nil : Filter.AllAlike e [] []
  | cons {f g : Filter} {fs gs : List Filter} (h : Filter.Alike e f g)
    (hs : Filter.AllAlike e fs gs) : Filter.AllAlike e (f :: fs) (g :: gs)

end

/-! ## Raw filters -/

namespace RawPart

variable {names : EntityNames}

/-- The same text, with as many values. -/
def SameText (r s : RawText) : Prop := r.text = s.text ∧ r.values.length = s.values.length

/-- Steps of one shape write the same text. -/
theorem step_alike {p q : RawPart} (h : p.Alike q) {r s : RawText} (hrs : SameText r s) :
    Both SameText (p.step names r) (q.step names s) := by
  obtain ⟨htext, hlength⟩ := hrs
  have hadd : ∀ more, SameText (r.add more) (s.add more) :=
    fun more => ⟨congrArg (· ++ more) htext, hlength⟩
  cases h with
  | param v w =>
    refine ⟨?_, ?_⟩
    · rw [htext, hlength]
    · rw [List.length_append, List.length_append, hlength]
      rfl
  | bind v w =>
    refine ⟨htext, ?_⟩
    rw [List.length_append, List.length_append, hlength]
    rfl
  | same =>
    cases p with
    | text more => exact hadd more
    | param v =>
      refine ⟨?_, ?_⟩
      · rw [htext, hlength]
      · rw [List.length_append, List.length_append, hlength]
    | bind v =>
      refine ⟨htext, ?_⟩
      rw [List.length_append, List.length_append, hlength]
    | reuse index => exact hadd (rawToken index)
    | column key => exact Both.bind_same fun column _ => hadd column
    | table => exact hadd names.table
    | wait => exact ⟨htext, hlength⟩
    | fail detail => trivial

/-- Raw filters of one shape write the same text. -/
theorem foldlM_alike {ps qs : List RawPart} (h : List.Forall₂ RawPart.Alike ps qs) :
    ∀ {r s : RawText}, SameText r s →
      Both SameText (ps.foldlM (fun r p => p.step names r) r)
        (qs.foldlM (fun r p => p.step names r) s) := by
  induction h with
  | nil => exact fun hrs => hrs
  | cons hpq _ ih =>
    intro r s hrs
    rw [List.foldlM_cons, List.foldlM_cons]
    exact (step_alike hpq hrs).bind fun _ _ => ih

/-- A token stands for a value in both places or in none. -/
theorem tokenValue_alike {vs ws : List Value} (h : vs.length = ws.length) (part : List Char) :
    Both (fun _ _ => True) (tokenValue vs part) (tokenValue ws part) := by
  unfold tokenValue
  cases readNat? part with
  | none => trivial
  | some index =>
    rw [Option.bind_some, Option.bind_some]
    -- as many values are bound, so the same numbers are in range
    by_cases hlt : index < vs.length
    · rw [List.getElem?_eq_getElem hlt, List.getElem?_eq_getElem (h ▸ hlt)]
      trivial
    · rw [List.getElem?_eq_none (Nat.le_of_not_lt hlt),
        List.getElem?_eq_none (h ▸ Nat.le_of_not_lt hlt)]
      trivial

/-- The parts of a text between marks make statements of one shape. -/
theorem piecesOfParts_alike {vs ws : List Value} (h : vs.length = ws.length) :
    ∀ parts : List (List Char),
      Both (fun t u => Template.blank t = Template.blank u) (piecesOfParts vs parts)
        (piecesOfParts ws parts)
  | [] => rfl
  | [part] => rfl
  | part :: token :: rest => by
    rw [piecesOfParts, piecesOfParts]
    refine (tokenValue_alike h token).bind fun v w _ => ?_
    refine (piecesOfParts_alike h rest).bind fun t u htu => ?_
    show Template.blank (textPiece part ++ .param v :: t) =
      Template.blank (textPiece part ++ .param w :: u)
    rw [Template.blank_append, Template.blank_append, Template.blank_param, Template.blank_param,
      htu]

/-- Raw filters of one shape have statements of one shape. -/
theorem template_alike {ps qs : List RawPart} (h : List.Forall₂ RawPart.Alike ps qs) :
    Both (fun t u => Template.blank t = Template.blank u) (template names ps)
      (template names qs) := by
  refine (foldlM_alike h ⟨rfl, rfl⟩).bind fun r s hrs => ?_
  rw [piecesOf, piecesOf, hrs.1]
  split
  · trivial
  · exact piecesOfParts_alike hrs.2 _

end RawPart

/-! ## Predicates -/

/-- Lists of one length are both empty or neither is. -/
theorem isEmpty_eq_of_length_eq {α β : Type} {xs : List α} {ys : List β}
    (h : xs.length = ys.length) : xs.isEmpty = ys.isEmpty := by
  cases xs with
  | nil => rw [List.length_eq_zero_iff.1 h.symm]; rfl
  | cons x xs =>
    cases ys with
    | nil => cases h
    | cons y ys => rfl

namespace Predicate

/-- Predicates of one shape. -/
def Alike (p q : Predicate) : Prop := p.template.blank = q.template.blank

variable {key column : String} {allowNull : Bool}

/-- Comparisons with values of one shape. -/
theorem ofCompare_alike {op : CompareOp} {a b : Value} (h : a.isNull = b.isNull) :
    Both Alike (ofCompare key column allowNull op a) (ofCompare key column allowNull op b) := by
  unfold ofCompare
  rw [h]
  split
  · cases op <;> trivial
  · split
    · exact rfl
    · exact rfl

theorem ofOneOf_alike (hasNull : Bool) {vs ws : List Value} (h : vs.length = ws.length) :
    Alike (ofOneOf column hasNull vs) (ofOneOf column hasNull ws) := by
  have hparameters := Template.blank_parameters_eq h
  unfold ofOneOf
  rw [isEmpty_eq_of_length_eq h]
  cases hasNull with
  | false => simp [Alike, template, Test.template, hparameters]
  | true => cases ws.isEmpty <;> simp [Alike, template, Test.template, hparameters]

theorem ofNoneOf_alike (hasNull : Bool) {vs ws : List Value} (h : vs.length = ws.length) :
    Alike (ofNoneOf column allowNull hasNull vs) (ofNoneOf column allowNull hasNull ws) := by
  have hparameters := Template.blank_parameters_eq h
  unfold ofNoneOf
  rw [isEmpty_eq_of_length_eq h]
  cases hasNull with
  | false => cases allowNull <;> simp [Alike, template, Test.template, hparameters]
  | true => cases ws.isEmpty <;> simp [Alike, template, Test.template, hparameters]

theorem ofMatch_alike (mode : MatchMode) (text text' : String) :
    Alike (ofMatch column allowNull mode text) (ofMatch column allowNull mode text') := by
  cases mode with
  | notContains => cases allowNull <;> exact rfl
  | contains => exact rfl
  | startsWith => exact rfl
  | endsWith => exact rfl

end Predicate

/-- The stored values of lists of one shape: NULL is among both or neither, and there are as many
others. -/
theorem Condition.storedList_alike {e : Entity} {f : Field} (hf : f ∈ e.fields)
    {vs ws : List Value} (h : List.Forall₂ (e.Alike f.key) vs ws) :
    Both (fun x y => x.1 = y.1 ∧ x.2.length = y.2.length) (Condition.storedList f.converter vs)
      (Condition.storedList f.converter ws) := by
  induction h with
  | nil => exact ⟨rfl, rfl⟩
  | cons h _ ih =>
    obtain ⟨a, b, ha, hb, hnull⟩ := h.stored f hf rfl
    rw [Condition.storedList, Condition.storedList, ha, hb, ok_bind, ok_bind]
    refine ih.bind ?_
    rintro ⟨hasNull, vs⟩ ⟨hasNull', ws⟩ ⟨hsame, hlength⟩
    show _ = _ ∧ _ = _
    rw [hnull]
    split
    · exact ⟨rfl, hlength⟩
    · exact ⟨hsame, congrArg (· + 1) hlength⟩

/-! ## What is left of conditions -/

/-- Clauses of one shape: the same text up to values, and parentheses around both or neither. -/
def Clause.Alike (c d : Clause) : Prop :=
  c.template.blank = d.template.blank ∧ c.isCompound = d.isCompound

/-- The members of groups of one shape. -/
theorem Clause.memberTemplates_alike {cs ds : List Clause} (h : List.Forall₂ Clause.Alike cs ds) :
    List.Forall₂ (fun t u => Template.blank t = Template.blank u) (Clause.memberTemplates cs)
      (Clause.memberTemplates ds) := by
  induction h with
  | nil => exact .nil
  | @cons c d _ _ hcd _ ih =>
    obtain ⟨htext, hcompound⟩ := hcd
    refine .cons ?_ ih
    rw [hcompound]
    cases d.isCompound <;> simp [Clause.enclose, htext]

namespace Simplified

/-- What is left is of one shape. -/
def Alike : Simplified → Simplified → Prop
  | .everything, .everything => True
  | .nothing, .nothing => True
  | .clause c, .clause d => c.Alike d
  | _, _ => False

/-- What is left of groups is of one shape, member by member, or groups are decided. -/
def GroupAlike (ks? ls? : Option (List Clause)) : Prop :=
  Option.Rel (List.Forall₂ Clause.Alike) ks? ls?

theorem negate_alike {k l : Simplified} (h : k.Alike l) : k.negate.Alike l.negate := by
  cases k <;> cases l <;> first | exact h.elim | trivial | skip
  next c d =>
    refine ⟨?_, rfl⟩
    rw [Clause.template, Clause.template]
    simp [h.1]

theorem map_cons_alike {c d : Clause} {ks? ls? : Option (List Clause)} (h : c.Alike d)
    (hrest : GroupAlike ks? ls?) : GroupAlike (ks?.map (c :: ·)) (ls?.map (d :: ·)) := by
  cases hrest with
  | none => exact .none
  | some hks => exact .some (.cons h hks)

/-- One more member of conjunctions of one shape. -/
theorem conjoin_alike {k l : Simplified} {ks? ls? : Option (List Clause)} (h : k.Alike l)
    (hrest : GroupAlike ks? ls?) : GroupAlike (k.conjoin ks?) (l.conjoin ls?) := by
  cases k <;> cases l <;> first | exact h.elim | exact hrest | exact .none | skip
  exact map_cons_alike h hrest

theorem disjoin_alike {k l : Simplified} {ks? ls? : Option (List Clause)} (h : k.Alike l)
    (hrest : GroupAlike ks? ls?) : GroupAlike (k.disjoin ks?) (l.disjoin ls?) := by
  cases k <;> cases l <;> first | exact h.elim | exact hrest | exact .none | skip
  exact map_cons_alike h hrest

/-- Conjunctions of one shape. -/
theorem ofAll_alike {ks ls : List Clause} (h : List.Forall₂ Clause.Alike ks ls) :
    (ofAll ks).Alike (ofAll ls) := by
  match ks, ls, h with
  | _, _, .nil => trivial
  | _, _, .cons h .nil => exact h
  | _, _, .cons h (.cons h' hs) =>
    refine ⟨?_, rfl⟩
    rw [Clause.template, Clause.template]
    exact Template.blank_separated_eq " and " (Clause.memberTemplates_alike (.cons h (.cons h' hs)))

theorem ofAny_alike {ks ls : List Clause} (h : List.Forall₂ Clause.Alike ks ls) :
    (ofAny ks).Alike (ofAny ls) := by
  match ks, ls, h with
  | _, _, .nil => trivial
  | _, _, .cons h .nil => exact h
  | _, _, .cons h (.cons h' hs) =>
    refine ⟨?_, rfl⟩
    rw [Clause.template, Clause.template]
    exact Template.blank_separated_eq " or " (Clause.memberTemplates_alike (.cons h (.cons h' hs)))

end Simplified

namespace Condition

/-- Conditions of which what is left is of one shape. -/
def Alike (c d : Condition Template) : Prop := c.simplify.Alike d.simplify

/-- What is left of conjunctions of one shape. -/
theorem conjuncts_alike {cs ds : List (Condition Template)} (h : List.Forall₂ Alike cs ds) :
    Simplified.GroupAlike (conjuncts cs) (conjuncts ds) := by
  induction h with
  | nil =>
    rw [conjuncts]
    exact .some .nil
  | cons h _ ih =>
    rw [conjuncts, conjuncts]
    exact Simplified.conjoin_alike h ih

theorem disjuncts_alike {cs ds : List (Condition Template)} (h : List.Forall₂ Alike cs ds) :
    Simplified.GroupAlike (disjuncts cs) (disjuncts ds) := by
  induction h with
  | nil =>
    rw [disjuncts]
    exact .some .nil
  | cons h _ ih =>
    rw [disjuncts, disjuncts]
    exact Simplified.disjoin_alike h ih

/-- Conjunctions of conditions of one shape. -/
theorem and_alike {cs ds : List (Condition Template)} (h : List.Forall₂ Alike cs ds) :
    Alike (.and cs) (.and ds) := by
  have hgroup := conjuncts_alike h
  rw [Alike, simplify, simplify]
  cases hcs : conjuncts cs <;> cases hds : conjuncts ds <;> rw [hcs, hds] at hgroup
  · trivial
  · cases hgroup
  · cases hgroup
  · cases hgroup with
    | some hks => exact Simplified.ofAll_alike hks

theorem or_alike {cs ds : List (Condition Template)} (h : List.Forall₂ Alike cs ds) :
    Alike (.or cs) (.or ds) := by
  have hgroup := disjuncts_alike h
  rw [Alike, simplify, simplify]
  cases hcs : disjuncts cs <;> cases hds : disjuncts ds <;> rw [hcs, hds] at hgroup
  · trivial
  · cases hgroup
  · cases hgroup
  · cases hgroup with
    | some hks => exact Simplified.ofAny_alike hks

theorem not_alike {c d : Condition Template} (h : Alike c d) : Alike (.not c) (.not d) := by
  rw [Alike, simplify, simplify]
  exact Simplified.negate_alike h

/-- Predicates of one shape as conditions. -/
theorem predicate_alike {p q : Predicate} (h : p.Alike q) :
    Alike (.predicate p) (.predicate q) := by
  rw [Alike, simplify, simplify]
  refine ⟨?_, rfl⟩
  rw [Clause.template, Clause.template]
  exact h

/-- Raw text of one shape. -/
theorem raw_alike {t u : Template} (h : t.blank = u.blank) : Alike (.raw t) (.raw u) := by
  rw [Alike, simplify, simplify, Template.isBlankTemplate_eq_of_blank_eq h]
  split
  · trivial
  · refine ⟨?_, rfl⟩
    rw [Clause.template, Clause.template]
    exact h

end Condition

/-! ## Filters -/

section

variable {e : Entity} {names : EntityNames}

/-- Conditions whose raw text can be worked out in both or in neither, with results of one
shape. -/
def Condition.ResolvesAlike (names : EntityNames) (c d : Condition (List RawPart)) : Prop :=
  Both Condition.Alike (c.resolve (RawPart.template names)) (d.resolve (RawPart.template names))

/-- The same of lists of conditions. -/
def Condition.ResolveAllAlike (names : EntityNames) (cs ds : List (Condition (List RawPart))) :
    Prop :=
  Both (List.Forall₂ Condition.Alike) (Condition.resolveAll (RawPart.template names) cs)
    (Condition.resolveAll (RawPart.template names) ds)

/-- Predicates of one shape have no raw text to work out. -/
theorem Condition.predicate_resolvesAlike (names : EntityNames) {p q : Predicate}
    (h : p.Alike q) :
    Condition.ResolvesAlike names (.predicate p) (.predicate q) :=
  Condition.predicate_alike h

mutual

/-- Filters of one shape have conditions of one shape. -/
theorem Filter.ofFilter_alike : ∀ {f g : Filter}, Filter.Alike e f g →
    Both (Condition.ResolvesAlike names) (Condition.ofFilter e names f)
      (Condition.ofFilter e names g)
  | _, _, @Filter.Alike.compare _ key op v w h => by
    rw [Condition.ofFilter, Condition.ofFilter]
    refine Both.bind_same ?_
    rintro ⟨f, column⟩ hlook
    obtain ⟨hf, hkey⟩ := Condition.mem_of_lookUp hlook
    obtain ⟨a, b, ha, hb, hnull⟩ := h.stored f hf hkey
    show Both _ (f.converter.toStored v >>= _) (f.converter.toStored w >>= _)
    rw [ha, hb, ok_bind, ok_bind]
    exact (Predicate.ofCompare_alike hnull).bind fun p q hpq =>
      Condition.predicate_resolvesAlike names hpq
  | _, _, @Filter.Alike.among _ key negated vs ws h => by
    rw [Condition.ofFilter, Condition.ofFilter]
    refine Both.bind_same ?_
    rintro ⟨f, column⟩ hlook
    obtain ⟨hf, rfl⟩ := Condition.mem_of_lookUp hlook
    simp only [isEmpty_eq_of_length_eq h.length_eq]
    -- lists of one length are both decided, or both have a test
    split
    · cases negated <;> exact trivial
    · refine (Condition.storedList_alike hf h).bind ?_
      rintro ⟨hasNull, us⟩ ⟨_, us'⟩ ⟨rfl, hlength⟩
      cases negated with
      | true =>
        exact Condition.predicate_resolvesAlike names (Predicate.ofNoneOf_alike hasNull hlength)
      | false =>
        exact Condition.predicate_resolvesAlike names (Predicate.ofOneOf_alike hasNull hlength)
  | _, _, @Filter.Alike.matching _ key mode text text' => by
    rw [Condition.ofFilter, Condition.ofFilter]
    refine Both.bind_same ?_
    rintro ⟨f, column⟩ _
    exact Condition.predicate_resolvesAlike names (Predicate.ofMatch_alike mode text text')
  | _, _, .and h => by
    rw [Condition.ofFilter, Condition.ofFilter]
    refine (Filter.ofFilters_alike h).bind fun cs ds hcs => ?_
    show Both _ (Condition.resolve _ _) (Condition.resolve _ _)
    rw [Condition.resolve, Condition.resolve]
    exact hcs.bind fun cs' ds' hcs' => Condition.and_alike hcs'
  | _, _, .or h => by
    rw [Condition.ofFilter, Condition.ofFilter]
    refine (Filter.ofFilters_alike h).bind fun cs ds hcs => ?_
    show Both _ (Condition.resolve _ _) (Condition.resolve _ _)
    rw [Condition.resolve, Condition.resolve]
    exact hcs.bind fun cs' ds' hcs' => Condition.or_alike hcs'
  | _, _, .not h => by
    rw [Condition.ofFilter, Condition.ofFilter]
    refine (Filter.ofFilter_alike h).bind fun c d hcd => ?_
    show Both _ (Condition.resolve _ _) (Condition.resolve _ _)
    rw [Condition.resolve, Condition.resolve]
    exact hcd.bind fun c' d' hcd' => Condition.not_alike hcd'
  | _, _, .raw h => by
    rw [Condition.ofFilter, Condition.ofFilter]
    show Both _ (Condition.resolve _ _) (Condition.resolve _ _)
    rw [Condition.resolve, Condition.resolve]
    exact (RawPart.template_alike h).bind fun t u htu => Condition.raw_alike htu

theorem Filter.ofFilters_alike : ∀ {fs gs : List Filter}, Filter.AllAlike e fs gs →
    Both (Condition.ResolveAllAlike names) (Condition.ofFilters e names fs)
      (Condition.ofFilters e names gs)
  | _, _, .nil => by
    rw [Condition.ofFilters]
    show Condition.ResolveAllAlike names [] []
    rw [Condition.ResolveAllAlike, Condition.resolveAll]
    exact .nil
  | _, _, .cons h hs => by
    rw [Condition.ofFilters, Condition.ofFilters]
    refine (Filter.ofFilter_alike h).bind fun c d hcd => ?_
    refine (Filter.ofFilters_alike hs).bind fun cs ds hcs => ?_
    show Both _ (Condition.resolveAll _ _) (Condition.resolveAll _ _)
    rw [Condition.resolveAll, Condition.resolveAll]
    exact hcd.bind fun c' d' hcd' => hcs.bind fun cs' ds' hcs' => .cons hcd' hcs'

end

/-- Filters of one shape have texts of one shape, or both have none. -/
theorem Filter.compile_alike {f g : Filter} (h : Filter.Alike e f g) :
    Both (Option.Rel fun t u => Template.blank t = Template.blank u) (f.compile e names)
      (g.compile e names) := by
  refine (Filter.ofFilter_alike h).bind fun c d hcd => ?_
  have hawait := hcd.of_results (fun _ => Condition.await_eq_ok) fun _ => Condition.await_eq_ok
  refine hawait.bind fun c' d' hcd' => ?_
  show Option.Rel _ c'.simplify.template? d'.simplify.template?
  rw [Condition.Alike] at hcd'
  generalize c'.simplify = k at hcd' ⊢
  generalize d'.simplify = l at hcd' ⊢
  -- only two clauses are left to compare
  cases k <;> cases l <;> first | exact hcd'.elim | exact .none | exact .some rfl | skip
  exact .some hcd'.1

theorem Filter.whereClause_alike {f g : Filter} (h : Filter.Alike e f g) :
    Both (fun t u => Template.blank t = Template.blank u) (f.whereClause e names)
      (g.whereClause e names) := by
  refine (Filter.compile_alike h).bind ?_
  rintro _ _ (⟨htu⟩ | _)
  · show Template.blank (_ :: _) = Template.blank (_ :: _)
    rw [Template.blank_text, Template.blank_text, htu]
  · exact rfl

end

end EntitySql
