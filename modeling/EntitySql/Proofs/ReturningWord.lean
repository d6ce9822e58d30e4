import EntitySql.Proofs.Kinds

/-!
# The word `returning` in a text

Whether a text has the word `returning` is told part by part, where its parts
meet at a blank, or at a character that belongs to no such word.

- `Text.asksForRows`: the word `returning` is among the words of a text.
- `Text.asksForRows_append_blank`, `Text.asksForRows_append_solid`: where a text
  is cut.
- `Text.IsEnclosed`: texts that may stand in a longer word.
- `Text.asksForRows_intercalate`: a list has the word if an item does.
-/

namespace EntitySql

/-! ## The word `returning` -/

namespace Text

/-- The word `returning` is among the words of a text. -/
def asksForRows (cs : List Char) : Bool := (words cs).any fun w => capitals w == "RETURNING".toList

/-- A character that ends in no word `returning`: it is neither a blank nor one of its letters. -/
def IsSolid (c : Char) : Prop := isBlank c = false ∧ c.toUpper ∉ "RETURNING".toList

instance (c : Char) : Decidable (IsSolid c) := inferInstanceAs (Decidable (_ ∧ _))

variable {xs ys : List Char} {c : Char}

theorem words_ne_nil (h : endsWord xs = false) : words xs ≠ [] := by
  cases xs with
  | nil => cases h
  | cons c xs =>
    rw [words_cons, if_neg (by rw [show isBlank c = false from h]; exact Bool.false_ne_true)]
    split
    · exact List.cons_ne_nil _ _
    · cases words xs <;> exact List.cons_ne_nil _ _

/-- The words on both sides of a blank. -/
theorem words_append_blank (hc : isBlank c = true) (xs ys : List Char) :
    words (xs ++ c :: ys) = words xs ++ words ys := by
  induction xs with
  | nil => rw [List.nil_append, words_cons, if_pos hc, words, List.nil_append]
  | cons x xs ih =>
    have hend : endsWord (xs ++ c :: ys) = endsWord xs := by
      cases xs with
      | nil => exact hc
      | cons _ _ => rfl
    rw [List.cons_append, words_cons, words_cons, ih, hend]
    split
    · rfl
    · cases hxs : endsWord xs with
      | true => rfl
      | false =>
        obtain ⟨w, ws, hwords⟩ := List.exists_cons_of_ne_nil (words_ne_nil hxs)
        rw [hwords]
        rfl

/-- The first word of a text that starts with no blank. -/
theorem exists_words_cons (hc : isBlank c = false) (xs : List Char) :
    ∃ w ws, words (c :: xs) = (c :: w) :: ws := by
  rw [words_cons, if_neg (by rw [hc]; exact Bool.false_ne_true)]
  split
  · exact ⟨_, _, rfl⟩
  · cases words xs <;> exact ⟨_, _, rfl⟩

/-- The words on both sides of a character that is no blank: the last one of the text before it and
the first one of the text after it are one word. -/
theorem exists_words_append (hc : isBlank c = false) (xs ys : List Char) :
    ∃ ws w v vs, words (xs ++ [c]) = ws ++ [w ++ [c]] ∧ words (c :: ys) = (c :: v) :: vs ∧
      words (xs ++ c :: ys) = ws ++ (w ++ c :: v) :: vs := by
  obtain ⟨v, vs, hys⟩ := exists_words_cons hc ys
  have hall : ∃ ws w, words (xs ++ [c]) = ws ++ [w ++ [c]] ∧
      words (xs ++ c :: ys) = ws ++ (w ++ c :: v) :: vs := by
    induction xs with
    | nil =>
      refine ⟨[], [], ?_, hys⟩
      rw [List.nil_append, words, if_neg (by rw [hc]; exact Bool.false_ne_true)]
      rfl
    | cons x xs ih =>
      obtain ⟨ws, w, hlast, hboth⟩ := ih
      have hend : endsWord (xs ++ c :: ys) = endsWord (xs ++ [c]) := by cases xs <;> rfl
      rw [List.cons_append, List.cons_append, words_cons, words_cons, hlast, hboth, hend]
      split
      · exact ⟨ws, w, rfl, rfl⟩
      · split
        · exact ⟨[x] :: ws, w, rfl, rfl⟩
        · -- the character joins the first word, which may be the last one too
          cases ws with
          | nil => exact ⟨[], x :: w, rfl, rfl⟩
          | cons u us => exact ⟨(x :: u) :: us, w, rfl, rfl⟩
  obtain ⟨ws, w, hlast, hboth⟩ := hall
  exact ⟨ws, w, v, vs, hlast, hys, hboth⟩

/-- The characters of words are those of the text. -/
theorem mem_of_mem_words : ∀ {xs : List Char}, ∀ w ∈ words xs, ∀ x ∈ w, x ∈ xs := by
  intro xs
  induction xs with
  | nil => exact fun w hw => nomatch hw
  | cons c xs ih =>
    have hrest : ∀ w ∈ words xs, ∀ x ∈ w, x ∈ c :: xs :=
      fun w hw x hx => List.mem_cons_of_mem c (ih w hw x hx)
    rw [words_cons]
    split
    · exact hrest
    · split
      · exact List.forall_mem_cons.2 ⟨List.forall_mem_singleton.2 List.mem_cons_self, hrest⟩
      · cases hwords : words xs with
        | nil => exact List.forall_mem_singleton.2 (List.forall_mem_singleton.2 List.mem_cons_self)
        | cons u us =>
          rw [hwords, List.forall_mem_cons] at hrest
          exact List.forall_mem_cons.2
            ⟨List.forall_mem_cons.2 ⟨List.mem_cons_self, hrest.1⟩, hrest.2⟩

/-- A blank parts the words of two texts. -/
theorem asksForRows_append_blank (hc : isBlank c = true) (xs ys : List Char) :
    asksForRows (xs ++ c :: ys) = (asksForRows xs || asksForRows ys) := by
  rw [asksForRows, words_append_blank hc, List.any_append]
  rfl

/-- A word with a solid character is not `returning`. -/
theorem capitals_ne_of_isSolid (hc : IsSolid c) {w : List Char} (hw : c ∈ w) :
    (capitals w == "RETURNING".toList) = false :=
  beq_eq_false_iff_ne.2 fun heq => hc.2 (heq ▸ List.mem_map_of_mem hw)

theorem asksForRows_append_solid (hc : IsSolid c) (xs ys : List Char) :
    asksForRows (xs ++ c :: ys) = (asksForRows (xs ++ [c]) || asksForRows (c :: ys)) := by
  obtain ⟨ws, w, v, vs, hlast, hfirst, hboth⟩ := exists_words_append hc.1 xs ys
  have hword : ∀ u v : List Char, (capitals (u ++ c :: v) == "RETURNING".toList) = false :=
    fun u v => capitals_ne_of_isSolid hc (List.mem_append_right u List.mem_cons_self)
  have hstart : (capitals (c :: v) == "RETURNING".toList) = false :=
    capitals_ne_of_isSolid hc List.mem_cons_self
  rw [asksForRows, asksForRows, asksForRows, hlast, hfirst, hboth]
  simp only [List.any_append, List.any_cons, List.any_nil, hword, hstart, Bool.or_false,
    Bool.false_or]

/-- One word that is not `returning`. -/
theorem asksForRows_word (hxs : ∀ x ∈ xs, isBlank x = false) (hc : IsSolid c) (hmem : c ∈ xs) :
    asksForRows xs = false := by
  have hwords : words xs = [xs] := by
    have h := words_append (List.ne_nil_of_mem hmem) hxs []
    rw [List.append_nil] at h
    rw [h]
    rfl
  rw [asksForRows, hwords, List.any_cons, capitals_ne_of_isSolid hc hmem]
  rfl

/-- A text without the letter is not `returning`. -/
theorem asksForRows_of_forall (h : ∀ x ∈ xs, x.toUpper ≠ 'G') : asksForRows xs = false := by
  refine List.any_eq_false.2 fun w hw hword => ?_
  have hletter : 'G' ∈ capitals w := by
    rw [eq_of_beq hword]
    decide
  obtain ⟨x, hx, hupper⟩ := List.mem_map.1 hletter
  exact h x (mem_of_mem_words w hw x hx) hupper

/-! ### Texts with solid characters at their ends -/

/-- The last character of a text is solid. -/
def EndsSolid (xs : List Char) : Prop := ∃ init c, IsSolid c ∧ xs = init ++ [c]

/-- The first character of a text is solid. -/
def StartsSolid (xs : List Char) : Prop := ∃ c rest, IsSolid c ∧ xs = c :: rest

/-- What comes after a text in the same word changes nothing if the text ends in a solid
character. -/
theorem EndsSolid.asksForRows_append (h : EndsSolid xs) (hys : ∀ y ∈ ys, isBlank y = false) :
    asksForRows (xs ++ ys) = asksForRows xs := by
  obtain ⟨init, c, hc, rfl⟩ := h
  have hword : asksForRows (c :: ys) = false :=
    asksForRows_word (List.forall_mem_cons.2 ⟨hc.1, hys⟩) hc List.mem_cons_self
  rw [List.append_assoc, List.singleton_append, asksForRows_append_solid hc, hword, Bool.or_false]

theorem StartsSolid.asksForRows_append (h : StartsSolid ys) (hxs : ∀ x ∈ xs, isBlank x = false) :
    asksForRows (xs ++ ys) = asksForRows ys := by
  obtain ⟨c, rest, hc, rfl⟩ := h
  have hword : asksForRows (xs ++ [c]) = false :=
    asksForRows_word (List.forall_mem_append.2 ⟨hxs, List.forall_mem_singleton.2 hc.1⟩) hc
      (List.mem_append_right xs List.mem_cons_self)
  rw [asksForRows_append_solid hc, hword, Bool.false_or]

/-- A text that parts words: blanks at both ends, and no word `returning`. -/
theorem asksForRows_between {m : List Char} (hm : asksForRows m = false) (xs ys : List Char) :
    asksForRows (xs ++ (' ' :: m ++ [' ']) ++ ys) = (asksForRows xs || asksForRows ys) := by
  rw [List.append_assoc, List.cons_append, List.cons_append, List.append_assoc,
    List.singleton_append, asksForRows_append_blank rfl, asksForRows_append_blank rfl, hm,
    Bool.false_or]

/-- A comma and a blank part the words of a text that ends in a solid character and another one. -/
theorem EndsSolid.asksForRows_comma (h : EndsSolid xs) (ys : List Char) :
    asksForRows (xs ++ ", ".toList ++ ys) = (asksForRows xs || asksForRows ys) := by
  have hcomma : xs ++ ", ".toList ++ ys = (xs ++ [',']) ++ ' ' :: ys := by
    rw [List.append_assoc, List.append_assoc]
    rfl
  rw [hcomma, asksForRows_append_blank rfl,
    h.asksForRows_append (List.forall_mem_singleton.2 rfl)]

/-- A list asks for rows if one of its items does, where the separating text parts words. -/
theorem asksForRows_intercalate {sep : List Char} : ∀ {items : List (List Char)},
    (∀ xs ∈ items, ∀ ys, asksForRows (xs ++ sep ++ ys) = (asksForRows xs || asksForRows ys)) →
      asksForRows (sep.intercalate items) = items.any asksForRows
  | [], _ => rfl
  | [xs], _ => by rw [List.intercalate_singleton, List.any_cons, List.any_nil, Bool.or_false]
  | xs :: xs' :: items, h => by
    rw [List.intercalate_cons_cons, h xs List.mem_cons_self,
      asksForRows_intercalate fun zs hzs => h zs (List.mem_cons_of_mem xs hzs)]
    rfl

/-- A text with solid characters at both ends. -/
structure IsEnclosed (xs : List Char) : Prop where
  starts : StartsSolid xs
  ends : EndsSolid xs

namespace IsEnclosed

/-- Two such texts with anything between. -/
theorem append (h : IsEnclosed xs) (sep : List Char) (h' : IsEnclosed ys) :
    IsEnclosed (xs ++ sep ++ ys) := by
  obtain ⟨c, rest, hc, rfl⟩ := h.starts
  obtain ⟨init, d, hd, rfl⟩ := h'.ends
  exact ⟨⟨c, rest ++ sep ++ (init ++ [d]), hc, rfl⟩,
    ⟨(c :: rest) ++ sep ++ init, d, hd, (List.append_assoc _ init [d]).symm⟩⟩

theorem intercalate (sep : List Char) : ∀ {items : List (List Char)}, items ≠ [] →
    (∀ xs ∈ items, IsEnclosed xs) → IsEnclosed (sep.intercalate items)
  | [], hne, _ => absurd rfl hne
  | [xs], _, h => by
    rw [List.intercalate_singleton]
    exact h xs List.mem_cons_self
  | xs :: xs' :: items, _, h => by
    rw [List.intercalate_cons_cons]
    exact (h xs List.mem_cons_self).append sep (intercalate sep (List.cons_ne_nil xs' items)
      fun zs hzs => h zs (List.mem_cons_of_mem xs hzs))

/-- The word that it stands in changes nothing. -/
theorem asksForRows_append (h : IsEnclosed xs) {before after : List Char}
    (hbefore : ∀ c ∈ before, isBlank c = false) (hafter : ∀ c ∈ after, isBlank c = false) :
    asksForRows (before ++ xs ++ after) = asksForRows xs := by
  have hstarts : StartsSolid (xs ++ after) := by
    obtain ⟨c, rest, hc, rfl⟩ := h.starts
    exact ⟨c, rest ++ after, hc, rfl⟩
  rw [List.append_assoc, hstarts.asksForRows_append hbefore, h.ends.asksForRows_append hafter]

end IsEnclosed

end Text

end EntitySql
