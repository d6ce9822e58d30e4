import EntitySql.Proofs.Complements
import Mathlib.Data.List.Infix

/-!
# Texts in patterns

What a caller looks for is a text, but what a database matches is a pattern, in
which three characters are no text: `%`, `_` and the escape character. Here a
pattern is read as the database reads it, sign by sign, and matched by trying
every place where a `%` may end. The pattern of a text has no signs but the
characters of the text, and `%` at the ends that may be anything. This stays so
if both sides are put in small letters first, as long as that does not turn
other characters into signs.

- `Like.Sign`, `Like.signs?`, `Like.fits`: how a database matches.
- `MatchMode.finds`: what a caller means by a match.
- `Like.signs?_escape`, `Like.fits_text_append`, `Like.fits_anyText`: what an
  escaped text is read as, and what fits it.
- `MatchMode.holds_pattern`: the pattern of a text fits what the caller means.
- `Filter.matches_literally`: the same of compiled filters.
-/

namespace EntitySql

/-! ## How a database matches -/

namespace Like

/-- What stands in a pattern. -/
inductive Sign where
  /-- Any text, also none. -/
  | anyText
  /-- Any one character. -/
  | anyChar
  /-- A character that means itself. -/
  | char (c : Char)
deriving DecidableEq, Repr

/-- The sign that a character is if nothing takes its meaning away. -/
def signOf (c : Char) : Sign :=
  if c = '%' then .anyText else if c = '_' then .anyChar else .char c

/-- The signs of a pattern. There are none if its last character takes the meaning from a
character that is missing. -/
def signs? : List Char → Option (List Sign)
  | [] => some []
  | [c] => if c = escapeChar then none else some [signOf c]
  | c :: d :: rest =>
    if c = escapeChar then (signs? rest).map (.char d :: ·)
    else (signs? (d :: rest)).map (signOf c :: ·)

/-- The text fits the signs. Where any text may stand, every end of it is tried. -/
def fits : List Sign → List Char → Bool
  | [], text => text.isEmpty
  | .anyText :: signs, text => text.tails.any (fits signs)
  | .anyChar :: signs, text =>
    match text with
    | [] => false
    | _ :: rest => fits signs rest
  | .char c :: signs, text =>
    match text with
    | [] => false
    | d :: rest => c == d && fits signs rest

/-- The text is like the pattern; nothing is like a pattern without signs. -/
def holds (pattern text : List Char) : Bool :=
  match signs? pattern with
  | some signs => fits signs text
  | none => false

/-- Small letters leave the signs of patterns as they are, and make none of other characters. -/
structure KeepsSigns (lower : Char → Char) : Prop where
  fixes : ∀ c, isSpecial c = true → lower c = c
  reflects : ∀ c, isSpecial (lower c) = true → isSpecial c = true

end Like

/-- Texts in cells are matched in small letters on both sides. -/
def Engine.MatchesBy (g : Engine) (lower : Char → Char) : Prop :=
  ∀ text pattern, g.fits (.text text) pattern =
    Like.holds (pattern.toList.map lower) (text.toList.map lower)

/-- What a caller means by a match: the text that is looked for is a part of the other one, or its
beginning or end. -/
def MatchMode.finds (mode : MatchMode) (wanted text : List Char) : Prop :=
  match mode with
  | .contains => wanted <:+: text
  | .notContains => ¬ wanted <:+: text
  | .startsWith => wanted <+: text
  | .endsWith => wanted <:+ text

/-! ## Signs and texts -/

namespace Like

/-- A text fits the signs after `%` from some place on. -/
theorem fits_anyText {signs : List Sign} {text : List Char} :
    fits (.anyText :: signs) text = true ↔
      ∃ skipped rest, text = skipped ++ rest ∧ fits signs rest = true := by
  simp only [fits, List.any_eq_true, List.mem_tails]
  constructor
  · rintro ⟨rest, ⟨skipped, h⟩, hfits⟩
    exact ⟨skipped, rest, h.symm, hfits⟩
  · rintro ⟨skipped, rest, h, hfits⟩
    exact ⟨rest, ⟨skipped, h.symm⟩, hfits⟩

/-- A text fits characters that mean themselves, and more signs, if it begins with them. -/
theorem fits_text_append {signs : List Sign} : ∀ {wanted text : List Char},
    fits (wanted.map .char ++ signs) text = true ↔
      ∃ rest, text = wanted ++ rest ∧ fits signs rest = true
  | [], text => by simp
  | c :: wanted, [] => by simp [fits]
  | c :: wanted, d :: text => by
    have ih : fits (wanted.map .char ++ signs) text = true ↔
        ∃ rest, text = wanted ++ rest ∧ fits signs rest = true := fits_text_append
    simp only [List.map_cons, List.cons_append, fits, Bool.and_eq_true, beq_iff_eq, ih,
      List.cons.injEq]
    constructor
    · rintro ⟨rfl, rest, rfl, hrest⟩
      exact ⟨rest, ⟨rfl, rfl⟩, hrest⟩
    · rintro ⟨rest, ⟨rfl, rfl⟩, hrest⟩
      exact ⟨rfl, rest, rfl, hrest⟩

@[simp] theorem fits_nil {text : List Char} : fits [] text = true ↔ text = [] := by
  simp [fits]

@[simp] theorem fits_anyText_nil (text : List Char) : fits [.anyText] text = true := by
  rw [fits_anyText]
  exact ⟨text, [], by simp, rfl⟩

theorem signs?_cons {c : Char} (h : c ≠ escapeChar) (rest : List Char) :
    signs? (c :: rest) = (signs? rest).map (signOf c :: ·) := by
  cases rest with
  | nil =>
    show (if c = escapeChar then none else some [signOf c]) = some [signOf c]
    rw [if_neg h]
  | cons d rest => rw [signs?, if_neg h]

theorem signs?_escaped (c : Char) (rest : List Char) :
    signs? (escaped c ++ rest) = (signs? rest).map (.char c :: ·) := by
  rw [escaped]
  cases h : isSpecial c with
  | true =>
    show signs? (escapeChar :: c :: rest) = _
    rw [signs?, if_pos rfl]
  | false =>
    simp only [isSpecial, Bool.or_eq_false_iff, beq_eq_false_iff_ne] at h
    show signs? (c :: rest) = _
    rw [signs?_cons h.1.1, signOf, if_neg h.1.2, if_neg h.2]

/-- An escaped text means itself. -/
theorem signs?_escape (text rest : List Char) :
    signs? (escape text ++ rest) = (signs? rest).map (text.map .char ++ ·) := by
  induction text with
  | nil => simp [escape]
  | cons c text ih =>
    have hcons : escape (c :: text) = escaped c ++ escape text := rfl
    rw [hcons, List.append_assoc, signs?_escaped, ih, Option.map_map]
    rfl

/-! ## Small letters -/

section

variable {lower : Char → Char} (h : KeepsSigns lower)

include h

/-- The same characters are escaped in small letters. -/
theorem map_escaped (c : Char) : (escaped c).map lower = escaped (lower c) := by
  rw [escaped, escaped]
  cases hc : isSpecial c with
  | true =>
    have hlower : lower c = c := h.fixes c hc
    have hescape : lower escapeChar = escapeChar := h.fixes escapeChar (by decide)
    simp [hlower, hescape, hc]
  | false =>
    have hlower : isSpecial (lower c) = false := by
      rw [Bool.eq_false_iff]
      intro hspecial
      rw [h.reflects c hspecial] at hc
      cases hc
    simp [hlower]

theorem map_escape (text : List Char) : (escape text).map lower = escape (text.map lower) := by
  induction text with
  | nil => rfl
  | cons c text ih =>
    have hcons : ∀ d rest, escape (d :: rest) = escaped d ++ escape rest := fun _ _ => rfl
    rw [hcons, List.map_append, map_escaped h, ih, List.map_cons, hcons]

/-- The pattern of a text in small letters is the pattern of the text in small letters. -/
theorem map_patternChars (mode : MatchMode) (text : List Char) :
    (mode.patternChars text).map lower = mode.patternChars (text.map lower) := by
  have hpercent : lower '%' = '%' := h.fixes '%' (by decide)
  cases mode <;> simp [MatchMode.patternChars, map_escape h, hpercent]

end

/-- The signs of patterns are no small letters. -/
theorem not_small_of_isSpecial {c : Char} (h : isSpecial c = true) :
    ¬ (97 ≤ c.toNat ∧ c.toNat ≤ 122) := by
  simp only [isSpecial, Bool.or_eq_true, beq_iff_eq] at h
  rcases h with (rfl | rfl) | rfl <;> decide

/-- The small letters of core keep the signs: only letters are changed, and into letters. -/
theorem keepsSigns_toLower : KeepsSigns Char.toLower := by
  constructor
  · intro c hc
    simp only [isSpecial, Bool.or_eq_true, beq_iff_eq] at hc
    rcases hc with (rfl | rfl) | rfl <;> decide
  · intro c hc
    by_cases hcapital : c.val ≥ 'A'.val ∧ c.val ≤ 'Z'.val
    · -- a capital letter becomes a small one
      have hsmall : 97 ≤ c.toLower.toNat ∧ c.toLower.toNat ≤ 122 := by
        have hlow : 65 ≤ c.val.toNat := UInt32.le_iff_toNat_le.1 hcapital.1
        have hhigh : c.val.toNat ≤ 90 := UInt32.le_iff_toNat_le.1 hcapital.2
        have hlower : c.toLower.val = c.val + 32 := congrArg Char.val (dif_pos hcapital)
        show 97 ≤ c.toLower.val.toNat ∧ c.toLower.val.toNat ≤ 122
        rw [hlower, UInt32.toNat_add]
        show 97 ≤ (c.val.toNat + 32) % 2 ^ 32 ∧ (c.val.toNat + 32) % 2 ^ 32 ≤ 122
        omega
      exact absurd hsmall (not_small_of_isSpecial hc)
    · have hsame : c.toLower = c := dif_neg hcapital
      rwa [hsame] at hc

end Like

/-! ## The pattern of a text -/

namespace MatchMode

/-- The signs of the pattern of a text. -/
def signs (mode : MatchMode) (text : List Char) : List Like.Sign :=
  match mode with
  | .contains | .notContains => .anyText :: (text.map .char ++ [.anyText])
  | .startsWith => text.map .char ++ [.anyText]
  | .endsWith => .anyText :: (text.map .char ++ [])

/-- The pattern of a text has these signs; its last character is missing nothing. -/
theorem signs?_patternChars (mode : MatchMode) (text : List Char) :
    Like.signs? (mode.patternChars text) = some (mode.signs text) := by
  have hpercent : ∀ rest,
      Like.signs? ('%' :: rest) = (Like.signs? rest).map (.anyText :: ·) :=
    fun rest => Like.signs?_cons (by decide) rest
  have hlast : Like.signs? ['%'] = some [.anyText] := rfl
  have hnothing : Like.signs? (Like.escape text) = some (text.map .char ++ []) := by
    have happend := Like.signs?_escape text []
    rwa [List.append_nil] at happend
  cases mode with
  | contains => rw [patternChars, List.cons_append, hpercent, Like.signs?_escape, hlast]; rfl
  | notContains => rw [patternChars, List.cons_append, hpercent, Like.signs?_escape, hlast]; rfl
  | startsWith => rw [patternChars, Like.signs?_escape, hlast]; rfl
  | endsWith => rw [patternChars, hpercent, hnothing]; rfl

/-- What is like the pattern of a text contains the text, begins with it or ends with it. -/
theorem holds_patternChars (mode : MatchMode) (wanted text : List Char) :
    Like.holds (mode.patternChars wanted) text = true ↔
      match mode with
      | .contains | .notContains => wanted <:+: text
      | .startsWith => wanted <+: text
      | .endsWith => wanted <:+ text := by
  have hinfix : Like.fits (.anyText :: (wanted.map .char ++ [.anyText])) text = true ↔
      wanted <:+: text := by
    simp only [Like.fits_anyText, Like.fits_text_append, Like.fits_nil]
    constructor
    · rintro ⟨before, _, rfl, after, rfl, -⟩
      exact ⟨before, after, List.append_assoc ..⟩
    · rintro ⟨before, after, rfl⟩
      exact ⟨before, _, List.append_assoc .., after, rfl, after, [], by simp, rfl⟩
  rw [Like.holds, signs?_patternChars]
  cases mode with
  | contains => exact hinfix
  | notContains => exact hinfix
  | startsWith =>
    simp only [signs, Like.fits_text_append, Like.fits_anyText_nil, and_true]
    exact ⟨fun ⟨rest, h⟩ => ⟨rest, h.symm⟩, fun ⟨rest, h⟩ => ⟨rest, h.symm⟩⟩
  | endsWith =>
    simp only [signs, Like.fits_anyText, Like.fits_text_append, Like.fits_nil]
    constructor
    · rintro ⟨before, _, rfl, _, rfl, rfl⟩
      exact ⟨before, by simp⟩
    · rintro ⟨before, rfl⟩
      exact ⟨before, wanted, rfl, [], by simp, rfl⟩

end MatchMode

/-! ## The match of a filter -/

/-- A cell with a text matches as the caller means it. -/
theorem Engine.matching_eq_yes_iff {g : Engine} {lower : Char → Char} (hg : g.MatchesBy lower)
    (hlower : Like.KeepsSigns lower) (allowNull : Bool) (mode : MatchMode)
    (cell wanted : String) :
    g.matching allowNull mode (.text cell) wanted = .yes ↔
      mode.finds (wanted.toList.map lower) (cell.toList.map lower) := by
  have hlike : g.like (.text cell) (mode.pattern wanted) = .ofBool
      (Like.holds (mode.patternChars (wanted.toList.map lower)) (cell.toList.map lower)) := by
    show Truth.ofBool (g.fits (.text cell) (mode.pattern wanted)) = _
    rw [hg, MatchMode.pattern, String.toList_ofList, Like.map_patternChars hlower]
  have hholds := MatchMode.holds_patternChars mode (wanted.toList.map lower)
    (cell.toList.map lower)
  have hyes : ∀ b : Bool, Truth.ofBool b = .yes ↔ b = true := by decide
  have hno : ∀ b : Bool, (Truth.ofBool b).not = .yes ↔ ¬ b = true := by decide
  cases mode with
  | notContains =>
    -- a text is not NULL, so that only the match is left
    have hcell : (allowNull && (Value.text cell).isNull) = false := Bool.and_false _
    show (if allowNull && (Value.text cell).isNull then .yes
      else (g.like (.text cell) (MatchMode.pattern .notContains wanted)).not) = _ ↔ _
    rw [hcell, if_neg Bool.false_ne_true, hlike, hno, hholds]
    rfl
  | contains => exact (hlike ▸ hyes _).trans hholds
  | startsWith => exact (hlike ▸ hyes _).trans hholds
  | endsWith => exact (hlike ▸ hyes _).trans hholds

/-- A match is compiled to a text with the pattern as its only value. -/
theorem Filter.compile_matching {e : Entity} {names : EntityNames} {key column : String}
    {f : Field} (h : Condition.lookUp e names key = .ok (f, column)) (mode : MatchMode)
    (wanted : String) :
    ∃ t, (matching key mode wanted).compile e names = .ok (some t) ∧
      t.values = [.text (mode.pattern wanted)] := by
  refine ⟨(Predicate.ofMatch column f.allowNull mode wanted).template, ?_, ?_⟩
  · rw [compile, Condition.ofFilter, h]
    rfl
  · cases mode with
    | notContains => cases hallow : f.allowNull <;> rfl
    | _ => rfl

/-- A match on a field is compiled whatever text is looked for. The pattern that is bound is whole,
and a row with a text in the column of the field is selected exactly if the text that is looked for
is found in it, both in small letters: no character of it stands for anything else. -/
theorem Filter.matches_literally {e : Entity} {names : EntityNames} {key column : String}
    {f : Field} (h : Condition.lookUp e names key = .ok (f, column)) (mode : MatchMode)
    (wanted : String) :
    ∃ t s, (matching key mode wanted).compile e names = .ok (some t) ∧
      Template.IsReadAs names (some t) (some s) ∧
      (∃ pattern, t.values = [.text pattern] ∧ (Like.signs? pattern.toList).isSome = true) ∧
      ∀ g lower row cell, g.MatchesBy lower → Like.KeepsSigns lower →
        row column = .text cell →
        (Sentence.Selects g row (some s) ↔
          mode.finds (wanted.toList.map lower) (cell.toList.map lower)) := by
  obtain ⟨t, ht, hvalues⟩ := compile_matching h mode wanted
  obtain ⟨s?, hs, hselects⟩ := Filter.exists_sentence (by simp [IsRawFree]) ht
  cases s? with
  | none => exact hs.elim
  | some s =>
    refine ⟨t, s, ht, hs, ⟨_, hvalues, ?_⟩, ?_⟩
    · rw [MatchMode.pattern, String.toList_ofList, MatchMode.signs?_patternChars]
      rfl
    · intro g lower row cell hg hlower hcell
      rw [hselects g row fun _ => .yes, truth, Entity.fieldTruth_of_lookUp h, hcell]
      exact Engine.matching_eq_yes_iff hg hlower f.allowNull mode cell wanted

/-- A database that matches texts in the small letters of core. -/
def Engine.ofLike : Engine where
  holds op cell v := if op = .ne then !cell.same v else cell.same v
  fits
    | .text text, pattern =>
      Like.holds (pattern.toList.map Char.toLower) (text.toList.map Char.toLower)
    | _, _ => false

/-- The row of a person with signs of patterns in the name. -/
def percentRow : Row := fun column => if column = "id" then .integer 1 else .text "5!_%X"

/-- Signs of patterns in a text that is looked for are found as they are: `!_%x` in `5!_%X`. -/
theorem Filter.matches_literally_signs :
    ∃ t s, (matching "name" .contains "!_%x").compile person (.resolve person .bare) =
        .ok (some t) ∧
      t.values = [.text "%!!!_!%x%"] ∧
      Template.IsReadAs (.resolve person .bare) (some t) (some s) ∧
      Engine.ofLike.MatchesBy Char.toLower ∧ Like.KeepsSigns Char.toLower ∧
      Sentence.Selects .ofLike percentRow (some s) := by
  have hlook : Condition.lookUp person (.resolve person .bare) "name" =
      .ok ({ Field.ofType "name" .text with allowNull := true }, "name") := rfl
  have hg : Engine.ofLike.MatchesBy Char.toLower := fun _ _ => rfl
  obtain ⟨t, s, ht, hs, -, hselects⟩ := Filter.matches_literally hlook .contains "!_%x"
  refine ⟨t, s, ht, ?_, hs, hg, Like.keepsSigns_toLower, ?_⟩
  · cases ht
    rfl
  · rw [hselects _ _ percentRow "5!_%X" hg Like.keepsSigns_toLower rfl]
    exact ⟨['5'], [], by decide⟩

end EntitySql
