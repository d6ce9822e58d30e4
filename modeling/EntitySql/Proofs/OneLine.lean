import EntitySql.Proofs.DocumentTexts
import EntitySql.Proofs.ReturningWord
import EntitySql.Log

/-!
# Statements on one line

A statement that is reported on one line has its text between the time it took
and its arguments. White space is cut off and collapsed for that, and the words
are told apart as before; documents escape what would end the line.

- `Text.IsOneLine`: a text without line breaks.
- `Text.collapse_trim`: a text with its white space collapsed is its words with
  a space between.
- `Json.isOneLine_compact`: the text of a document is one line.
- `argumentsJson_eq`: the arguments as an object or a list.
- `oneLine_keeps_words`: what stands on the line.
-/

namespace EntitySql

namespace Text

/-- The text has no line break in it. -/
def IsOneLine (cs : List Char) : Prop := '\n' ∉ cs ∧ '\r' ∉ cs

instance (cs : List Char) : Decidable (IsOneLine cs) := inferInstanceAs (Decidable (_ ∧ _))

theorem IsOneLine.append {xs ys : List Char} (hx : IsOneLine xs) (hy : IsOneLine ys) :
    IsOneLine (xs ++ ys) :=
  ⟨fun h => (List.mem_append.1 h).elim hx.1 hy.1, fun h => (List.mem_append.1 h).elim hx.2 hy.2⟩

/-- Line breaks are control characters. -/
theorem isOneLine_of_printed {cs : List Char} (h : ∀ c ∈ cs, 0x20 ≤ c.toNat) : IsOneLine cs :=
  ⟨fun hc => absurd (h _ hc) (by decide), fun hc => absurd (h _ hc) (by decide)⟩

/-! ## White space around a text and inside -/

variable {xs bs : List Char}

theorem words_of_isBlankText : ∀ {bs : List Char}, (∀ b ∈ bs, isBlank b = true) → words bs = []
  | [], _ => rfl
  | b :: bs, h => by
    rw [words_cons, if_pos (h b List.mem_cons_self)]
    exact words_of_isBlankText fun b hb => h b (List.mem_cons_of_mem _ hb)

/-- Blanks after a text do not change its words. -/
theorem words_append_blanks (xs : List Char) (h : ∀ b ∈ bs, isBlank b = true) :
    words (xs ++ bs) = words xs := by
  cases bs with
  | nil => rw [List.append_nil]
  | cons b bs =>
    have hrest := words_of_isBlankText fun b hb => h b (List.mem_cons_of_mem _ hb)
    rw [words_append_blank (h b List.mem_cons_self), hrest, List.append_nil]

theorem words_trimStart (cs : List Char) : words (trimStart cs) = words cs := by
  induction cs with
  | nil => rfl
  | cons c cs ih =>
    rw [trimStart, List.dropWhile_cons]
    split
    · next hc => rw [words_cons, if_pos hc, ← ih, trimStart]
    · rfl

/-- A text is what is left of it, with blanks after that. -/
theorem exists_trimEnd_append (cs : List Char) :
    ∃ bs, (∀ b ∈ bs, isBlank b = true) ∧ cs = trimEnd cs ++ bs := by
  refine ⟨(cs.reverse.takeWhile isBlank).reverse, fun b hb => ?_, ?_⟩
  · exact List.all_eq_true.1 List.all_takeWhile b (List.mem_reverse.1 hb)
  · rw [trimEnd, ← List.reverse_append, List.takeWhile_append_dropWhile, List.reverse_reverse]

/-- The words of a text are those that are left without the blanks around it. -/
theorem words_trim (cs : List Char) : words (trim cs) = words cs := by
  obtain ⟨bs, hbs, htrim⟩ := exists_trimEnd_append (trimStart cs)
  rw [trim, ← words_append_blanks (trimEnd (trimStart cs)) hbs, ← htrim, words_trimStart]

/-- No blank is at the end of what is left. -/
theorem isBlank_getLast_trim {cs : List Char} {c : Char} (h : (trim cs).getLast? = some c) :
    isBlank c = false := by
  rw [trim, trimEnd, List.getLast?_reverse] at h
  have hlast := List.head?_dropWhile_not isBlank (trimStart cs).reverse
  rw [h] at hlast
  exact hlast

theorem isBlank_head_trim {cs : List Char} {c : Char} (h : (trim cs).head? = some c) :
    isBlank c = false := by
  obtain ⟨bs, -, htrim⟩ := exists_trimEnd_append (trimStart cs)
  have hstart : (trimStart cs).head? = some c := by
    rw [htrim, List.head?_append]
    exact congrArg (·.or bs.head?) h
  have hhead := List.head?_dropWhile_not isBlank cs
  rw [trimStart] at hstart
  rw [hstart] at hhead
  exact hhead

/-- A text with a character that is no blank has words. -/
theorem words_ne_nil_of_mem {cs : List Char} {c : Char} (hmem : c ∈ cs) (hc : isBlank c = false) :
    words cs ≠ [] := by
  obtain ⟨xs, ys, rfl⟩ := List.append_of_mem hmem
  obtain ⟨ws, w, v, vs, -, -, hwords⟩ := exists_words_append hc xs ys
  rw [hwords]
  exact List.append_ne_nil_of_right_ne_nil _ (List.cons_ne_nil _ _)

/-- A text that ends with a word, with its white space collapsed: blanks before the first word
become a space too. -/
theorem collapse_eq : ∀ {cs : List Char}, (∀ c, cs.getLast? = some c → isBlank c = false) →
    collapse cs = (if cs.head?.any isBlank then [' '] else []) ++ [' '].intercalate (words cs)
  | [], _ => rfl
  | [c], h => by
    have hc : isBlank c = false := h c rfl
    simp [collapse, words, hc]
  | c :: d :: cs, h => by
    have ih := collapse_eq fun e (he : (d :: cs).getLast? = some e) =>
      h e (by rwa [List.getLast?_cons_cons])
    have hhead : ∀ (e : Char) (es : List Char), (e :: es).head?.any isBlank = isBlank e :=
      fun _ _ => rfl
    rw [hhead] at ih
    rw [collapse, words, hhead]
    by_cases hc : isBlank c = true
    · -- only the last blank of a run becomes a space
      rw [if_pos hc, if_pos hc, if_pos hc, ih]
      split <;> rfl
    · rw [if_neg hc, if_neg hc, if_neg hc, ih, List.nil_append]
      by_cases hd : isBlank d = true
      · -- the words after the blank come after a space
        have hlast : (d :: cs).getLast (List.cons_ne_nil d cs) ∈ d :: cs := List.getLast_mem _
        have hlast? : (c :: d :: cs).getLast? =
            some ((d :: cs).getLast (List.cons_ne_nil d cs)) := by
          rw [List.getLast?_cons_cons, List.getLast?_eq_some_getLast]
        obtain ⟨w, ws, hwords⟩ :=
          List.exists_cons_of_ne_nil (words_ne_nil_of_mem hlast (h _ hlast?))
        rw [if_pos hd, if_pos hd, hwords, List.intercalate_cons_cons]
        rfl
      · obtain ⟨w, ws, hwords⟩ := exists_words_cons (eq_false_of_ne_true hd) cs
        rw [if_neg hd, if_neg hd, hwords]
        cases ws with
        | nil => rfl
        | cons v vs => rw [consWord, List.intercalate_cons_cons, List.intercalate_cons_cons]; rfl

/-- A text with its white space cut off and collapsed is its words with a space between. -/
theorem collapse_trim (cs : List Char) :
    collapse (trim cs) = [' '].intercalate (words cs) := by
  have hhead : (trim cs).head?.any isBlank = false := by
    cases h : (trim cs).head? with
    | none => rfl
    | some c => exact isBlank_head_trim h
  rw [collapse_eq fun _ h => isBlank_getLast_trim h, hhead, words_trim]
  rfl

theorem endsWord_collapse : ∀ cs : List Char, endsWord (collapse cs) = endsWord cs
  | [] => rfl
  | [c] => by
    rw [collapse]
    split
    · next hc => exact hc.symm
    · rfl
  | c :: d :: cs => by
    have ih := endsWord_collapse (d :: cs)
    rw [collapse]
    split
    · next hc =>
      have hends : endsWord (c :: d :: cs) = true := hc
      rw [hends]
      split
      · next hd => rw [ih]; exact hd
      · rfl
    · rfl

/-- Collapsed white space tells the same words apart. -/
theorem words_collapse : ∀ cs : List Char, words (collapse cs) = words cs
  | [] => rfl
  | [c] => by
    rw [collapse]
    split
    · next hc =>
      rw [words, words, if_pos hc]
      rfl
    · rfl
  | c :: d :: cs => by
    have ih := words_collapse (d :: cs)
    rw [collapse, words_cons c]
    split
    · split
      · exact ih
      · rw [words_cons, if_pos (by decide), ih]
    · next hc => rw [words_cons, if_neg hc, endsWord_collapse, ih]

/-- A space is the only blank in a text with its white space collapsed. -/
theorem eq_space_of_mem_collapse : ∀ {cs : List Char} {x : Char}, x ∈ collapse cs →
    x = ' ' ∨ isBlank x = false
  | [], _, h => nomatch h
  | [c], x, h => by
    rw [collapse] at h
    split at h
    · exact .inl (List.mem_singleton.1 h)
    · next hc => exact .inr (List.mem_singleton.1 h ▸ eq_false_of_ne_true hc)
  | c :: d :: cs, x, h => by
    rw [collapse] at h
    split at h
    · split at h
      · exact eq_space_of_mem_collapse h
      · exact (List.mem_cons.1 h).elim .inl eq_space_of_mem_collapse
    · next hc =>
      rcases List.mem_cons.1 h with rfl | h
      · exact .inr (eq_false_of_ne_true hc)
      · exact eq_space_of_mem_collapse h

/-- Line breaks are white space. -/
theorem isOneLine_collapse (cs : List Char) : IsOneLine (collapse cs) := by
  have hbreak : ∀ {c : Char}, isBlank c = true → c ≠ ' ' → c ∉ collapse cs := by
    intro c hblank hspace hc
    rcases eq_space_of_mem_collapse hc with hc | hc
    · exact hspace hc
    · exact Bool.false_ne_true (hc.symm.trans hblank)
  exact ⟨hbreak (by decide) (by decide), hbreak (by decide) (by decide)⟩

end Text

/-! ## Texts of documents -/

namespace Json

theorem printed_hexDigit : ∀ n < 16, 0x20 ≤ (hexDigit n).toNat := by decide

/-- Control characters are not written as they are. -/
theorem printed_of_mem_escaped {c d : Char} (h : d ∈ escaped c) : 0x20 ≤ d.toNat := by
  have hall : ∀ {ds : List Char}, ds.all (fun e => 0x20 ≤ e.toNat) = true → d ∈ ds →
      0x20 ≤ d.toNat := fun hds hd => of_decide_eq_true (List.all_eq_true.1 hds d hd)
  unfold escaped at h
  iterate 7
    split at h
    · exact hall (by decide) h
  split at h
  · next hc =>
    have hhigh := printed_hexDigit (c.toNat / 16) (by omega)
    have hlow := printed_hexDigit (c.toNat % 16) (by omega)
    refine hall ?_ h
    simp only [List.all_cons, List.all_nil, decide_eq_true hhigh, decide_eq_true hlow]
    decide
  · next hc =>
    rw [List.mem_singleton.1 h]
    omega

theorem printed_of_mem_quoted {cs : List Char} {c : Char} (h : c ∈ quoted cs) :
    0x20 ≤ c.toNat := by
  rw [quoted, List.cons_append, List.mem_cons, List.mem_append, List.mem_singleton] at h
  rcases h with rfl | h | rfl
  · decide
  · obtain ⟨d, -, hc⟩ := List.mem_flatMap.1 h
    exact printed_of_mem_escaped hc
  · decide

theorem IsNumeral.printed {c : Char} (h : IsNumeral c) : 0x20 ≤ c.toNat := by
  rcases h with hdigit | hsign
  · simp only [Char.isDigit, Bool.and_eq_true, decide_eq_true_eq] at hdigit
    have hlow : 48 ≤ c.toNat := hdigit.1
    omega
  · simp only [List.mem_cons, List.not_mem_nil, or_false] at hsign
    rcases hsign with rfl | rfl | rfl | rfl <;> decide

mutual

/-- The text of a document has no control characters. -/
theorem printed_of_mem_chars : ∀ {j : Json} {c : Char}, c ∈ j.chars → 0x20 ≤ c.toNat
  | .null, c, h => by
    have hall : "null".toList.all (fun d => 0x20 ≤ d.toNat) = true := by decide
    exact of_decide_eq_true (List.all_eq_true.1 hall c h)
  | .bool b, c, h => by
    have hall : (if b then "true" else "false").toList.all (fun d => 0x20 ≤ d.toNat) = true := by
      cases b <;> decide
    exact of_decide_eq_true (List.all_eq_true.1 hall c h)
  | .number n, c, h => (isNumeral_of_mem_numberText h).printed
  | .text s, c, h => printed_of_mem_quoted h
  | .array items, c, h => by
    rw [chars, List.mem_cons] at h
    rcases h with rfl | h
    · decide
    · exact printed_of_mem_itemChars h
  | .object members, c, h => by
    rw [chars, List.mem_cons] at h
    rcases h with rfl | h
    · decide
    · exact printed_of_mem_memberChars h

theorem printed_of_mem_itemChars : ∀ {items : List Json} {c : Char}, c ∈ itemChars items →
    0x20 ≤ c.toNat
  | [], c, h => by
    rw [List.mem_singleton.1 h]
    decide
  | a :: as, c, h => by
    rw [itemChars, List.mem_append] at h
    exact h.elim printed_of_mem_chars printed_of_mem_moreItemChars

theorem printed_of_mem_moreItemChars : ∀ {items : List Json} {c : Char}, c ∈ moreItemChars items →
    0x20 ≤ c.toNat
  | [], c, h => by
    rw [List.mem_singleton.1 h]
    decide
  | a :: as, c, h => by
    rw [moreItemChars, List.cons_append, List.mem_cons, List.mem_append] at h
    rcases h with rfl | h | h
    · decide
    · exact printed_of_mem_chars h
    · exact printed_of_mem_moreItemChars h

theorem printed_of_mem_memberChars : ∀ {members : List (String × Json)} {c : Char},
    c ∈ memberChars members → 0x20 ≤ c.toNat
  | [], c, h => by
    rw [List.mem_singleton.1 h]
    decide
  | (key, a) :: as, c, h => by
    rw [memberChars, List.append_assoc, List.cons_append, List.mem_append, List.mem_cons,
      List.mem_append] at h
    rcases h with h | rfl | h | h
    · exact printed_of_mem_quoted h
    · decide
    · exact printed_of_mem_chars h
    · exact printed_of_mem_moreMemberChars h

theorem printed_of_mem_moreMemberChars : ∀ {members : List (String × Json)} {c : Char},
    c ∈ moreMemberChars members → 0x20 ≤ c.toNat
  | [], c, h => by
    rw [List.mem_singleton.1 h]
    decide
  | (key, a) :: as, c, h => by
    rw [moreMemberChars, List.cons_append, List.cons_append, List.append_assoc, List.cons_append,
      List.mem_cons, List.mem_append, List.mem_cons, List.mem_append] at h
    rcases h with rfl | h | rfl | h | h
    · decide
    · exact printed_of_mem_quoted h
    · decide
    · exact printed_of_mem_chars h
    · exact printed_of_mem_moreMemberChars h

end

/-- The text of a document is one line, whatever line breaks the document has. -/
theorem isOneLine_compact (j : Json) : Text.IsOneLine j.compact.toList := by
  rw [compact, String.toList_ofList]
  exact Text.isOneLine_of_printed fun _ hc => printed_of_mem_chars hc

end Json

/-! ## Arguments -/

theorem allDistinct_iff : ∀ {keys : List String}, allDistinct keys = true ↔ keys.Nodup
  | [] => by simp [allDistinct]
  | key :: keys => by
    have hrest : allDistinct keys = true ↔ keys.Nodup := allDistinct_iff
    simp [allDistinct, hrest]

/-- All arguments are listed in their order: as members of an object if their tokens tell them
apart, and as items of an array if not. -/
theorem argumentsJson_eq (arguments : List (String × Value)) :
    argumentsJson arguments =
      if (arguments.map Prod.fst).Nodup then .object (arguments.map fun a => (a.1, a.2.toJson))
      else .array (arguments.map fun a => a.2.toJson) := by
  have hkeys : (arguments.map fun a => (a.1, a.2.toJson)).map Prod.fst = arguments.map Prod.fst :=
    List.map_map
  rw [argumentsJson]
  by_cases hdistinct : (arguments.map Prod.fst).Nodup
  · rw [if_pos hdistinct, if_pos (allDistinct_iff.2 hdistinct),
      Json.ofMembers_of_nodup (hkeys ▸ hdistinct)]
  · rw [if_neg hdistinct, if_neg fun h => hdistinct (allDistinct_iff.1 h)]

/-! ## The line -/

/-- A span of time is written on one line. -/
theorem Elapsed.isOneLine_text (t : Elapsed) : Text.IsOneLine t.text.toList := by
  have hdigits : ∀ {n : Nat} {c : Char}, c ∈ digitsOf n → 0x20 ≤ c.toNat :=
    fun hc => (Json.isNumeral_of_mem_digitsOf hc).printed
  rw [text, fixedPlaces]
  split
  · refine Text.isOneLine_of_printed fun c hc => ?_
    simp only [String.toList_ofList, List.cons_append, List.append_assoc, List.mem_append,
      List.mem_cons, List.mem_replicate] at hc
    rcases hc with hc | rfl | ⟨-, rfl⟩ | hc
    · exact hdigits hc
    · decide
    · decide
    · exact hdigits hc
  · next hfinite =>
    generalize Binary.ofFloat _ = b at hfinite ⊢
    cases b with
    | nan => decide
    | infinite negative => cases negative <;> decide
    | finite negative mantissa exponent => exact (hfinite _ _ _ rfl).elim

/-- Signs have no line breaks. -/
theorem isOneLine_statementIcon (sql : String) : Text.IsOneLine (statementIcon sql).toList := by
  have hall : ∀ icon ∈ statementIcons, Text.IsOneLine icon.2.toList := by decide
  rw [statementIcon]
  split
  · next hicon => exact hall _ (List.mem_of_find?_eq_some hicon)
  · decide

/-- The collapsed text of a statement is its words with a space between. -/
theorem collapsed_eq (sql : String) :
    collapsed sql = String.ofList ([' '].intercalate (Text.words sql.toList)) := by
  rw [collapsed, Text.collapse_trim]

/-- The collapsed text has the words of the statement. -/
theorem words_collapsed (sql : String) :
    Text.words (collapsed sql).toList = Text.words sql.toList := by
  rw [collapsed, String.toList_ofList, Text.words_collapse, Text.words_trim]

/-- The first word of a statement is found in the collapsed text too. -/
theorem leadingKeyword_collapsed (sql : String) :
    leadingKeyword (collapsed sql) = leadingKeyword sql := by
  rw [leadingKeyword, leadingKeyword, words_collapsed]

/-- A statement is reported on one line, which has its sign, the time it took, its words with a
space between, and its arguments. The sign is told by the same first word as that of the statement,
and each argument is there once and in its place. -/
theorem oneLine_keeps_words (elapsed : Elapsed) (sql : String)
    (arguments : List (String × Value)) :
    Text.IsOneLine (oneLine elapsed.text sql arguments).toList ∧
      oneLine elapsed.text sql arguments =
        statementIcon sql ++ " (" ++ elapsed.text ++ ") " ++
          String.ofList ([' '].intercalate (Text.words sql.toList)) ++ " " ++
          (argumentsJson arguments).compact ∧
      Text.words (collapsed sql).toList = Text.words sql.toList ∧
      leadingKeyword (collapsed sql) = leadingKeyword sql ∧
      ((arguments.map Prod.fst).Nodup →
        argumentsJson arguments = .object (arguments.map fun a => (a.1, a.2.toJson))) ∧
      (¬ (arguments.map Prod.fst).Nodup →
        argumentsJson arguments = .array (arguments.map fun a => a.2.toJson)) := by
  have hicon : statementIcon (collapsed sql) = statementIcon sql := by
    rw [statementIcon, statementIcon, leadingKeyword_collapsed]
  have hline : oneLine elapsed.text sql arguments =
      statementIcon sql ++ " (" ++ elapsed.text ++ ") " ++
        String.ofList ([' '].intercalate (Text.words sql.toList)) ++ " " ++
        (argumentsJson arguments).compact := by
    rw [← hicon, ← collapsed_eq, oneLine]
  refine ⟨?_, hline, words_collapsed sql, leadingKeyword_collapsed sql,
    fun h => by rw [argumentsJson_eq, if_pos h], fun h => by rw [argumentsJson_eq, if_neg h]⟩
  have hicon := isOneLine_statementIcon (collapsed sql)
  have hsql : Text.IsOneLine (collapsed sql).toList := by
    rw [collapsed, String.toList_ofList]
    exact Text.isOneLine_collapse _
  have harguments := Json.isOneLine_compact (argumentsJson arguments)
  simp only [oneLine, String.toList_append]
  exact (((((hicon.append (by decide)).append elapsed.isOneLine_text).append
    (by decide)).append hsql).append (by decide)).append harguments

end EntitySql
