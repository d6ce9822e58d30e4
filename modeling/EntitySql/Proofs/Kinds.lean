import EntitySql.Proofs.Characters
import EntitySql.Statement.Kind
import Mathlib.Data.List.Forall2

/-!
# Tokens do not change the kind of a statement

A database that has no answer waiting tells from the words of a statement
whether it gives rows. Tokens are parts of these words, but no keyword has a
character that tokens begin with, so that no style of tokens makes a statement
one of another kind.

- `words_cons`, `words_append`: the words of a text, from its first character
  or its first word on.
- `words_chars`: the words of one template under two styles.
- `returnsRows_sql`: the kind of a statement is that of its template.
-/

namespace EntitySql

namespace Text

/-- A word ends before this text. -/
def endsWord : List Char → Bool
  | [] => true
  | c :: _ => isBlank c

/-- The words of a text, from its first character on. -/
theorem words_cons (c : Char) (cs : List Char) :
    words (c :: cs) =
      if isBlank c then words cs
      else if endsWord cs then [c] :: words cs else consWord c (words cs) := by
  cases cs with
  | nil => simp [words, endsWord]
  | cons d cs => rw [words, endsWord]

/-- The words of a text with more in front of the first one. -/
def consWords (w : List Char) : List (List Char) → List (List Char)
  | [] => [w]
  | v :: vs => (w ++ v) :: vs

/-- The words of a text that begins with characters of one word. -/
theorem words_append {w : List Char} (hne : w ≠ []) (hw : ∀ c ∈ w, isBlank c = false)
    (cs : List Char) :
    words (w ++ cs) = if endsWord cs then w :: words cs else consWords w (words cs) := by
  induction w with
  | nil => exact absurd rfl hne
  | cons c w ih =>
    have hc : isBlank c = false := hw c List.mem_cons_self
    rw [List.cons_append, words_cons, if_neg (by simp [hc])]
    cases w with
    | nil =>
      rw [List.nil_append]
      cases words cs <;> rfl
    | cons d w =>
      have hd : isBlank d = false := hw d (by simp)
      have hend : endsWord (d :: w ++ cs) = false := hd
      rw [hend, ih (List.cons_ne_nil d w) fun e he => hw e (List.mem_cons_of_mem _ he)]
      cases endsWord cs with
      | true => rfl
      | false => cases words cs <;> rfl

end Text

/-- The first word of a text is the one before its first blank. -/
theorem leadingKeyword_of_word {sql : String} (word : List Char) {rest : List Char}
    (hne : word ≠ []) (hword : word.any Text.isBlank = false)
    (h : sql.toList = word ++ ' ' :: rest) :
    leadingKeyword sql = String.ofList (capitals (word.dropWhile (· == '('))) := by
  have hnone : ∀ c ∈ word, Text.isBlank c = false := fun c hc => by
    simpa using List.any_eq_false.1 hword c hc
  rw [leadingKeyword, h, Text.words_append hne hnone]
  rfl

/-! ## Tokens as characters -/

theorem isBlank_of_mem_toDigits {n : Nat} {c : Char} (h : c ∈ Nat.toDigits 10 n) :
    Text.isBlank c = false :=
  Text.isBlank_of_isDigit (Nat.isDigit_of_mem_toDigits (by decide) (by decide) h)

/-- A token is a part of one word. -/
theorem TokenStyle.isBlank_of_mem_token (style : TokenStyle) (position : Nat) :
    ∀ c ∈ (style.token position).toList, Text.isBlank c = false := by
  have hword : ∀ start : String, start.toList.any Text.isBlank = false →
      ∀ c ∈ start.toList, Text.isBlank c = false := by
    intro start hstart c hc
    have hnot := List.any_eq_false.1 hstart c hc
    rwa [Bool.not_eq_true] at hnot
  have hnumber : ∀ start : String, start.toList.any Text.isBlank = false →
      ∀ c ∈ (start ++ toString position).toList, Text.isBlank c = false := by
    intro start hstart c hc
    rw [String.toList_append, List.mem_append] at hc
    rcases hc with hc | hc
    · exact hword start hstart c hc
    · exact isBlank_of_mem_toDigits (by simpa using hc)
  cases style with
  | question => exact hword "?" (by decide)
  | dollar => exact hnumber "$" (by decide)
  | numbered => exact hnumber "?" (by decide)
  | named => exact hnumber ":p" (by decide)

/-- Two words are the same, or tokens are parts of both. -/
def AlikeWords (w w' : List Char) : Prop :=
  w = w' ∨ (∃ c ∈ w, c ∈ tokenStarts) ∧ ∃ c ∈ w', c ∈ tokenStarts

/-- Words stay alike with the same character in front of them. -/
theorem AlikeWords.cons {w w' : List Char} (h : AlikeWords w w') (c : Char) :
    AlikeWords (c :: w) (c :: w') := by
  rcases h with rfl | ⟨⟨d, hd, hstart⟩, d', hd', hstart'⟩
  · exact .inl rfl
  · exact .inr ⟨⟨d, List.mem_cons_of_mem _ hd, hstart⟩, d', List.mem_cons_of_mem _ hd', hstart'⟩

/-- Lists of words stay alike with the same character in front of the first word. -/
theorem forall₂_consWord {ws ws' : List (List Char)} (h : List.Forall₂ AlikeWords ws ws')
    (c : Char) : List.Forall₂ AlikeWords (Text.consWord c ws) (Text.consWord c ws') := by
  cases h with
  | nil => exact .cons (.inl rfl) .nil
  | cons hw hws => exact .cons (hw.cons c) hws

theorem forall₂_consWords {ws ws' : List (List Char)} (h : List.Forall₂ AlikeWords ws ws')
    {token token' : List Char} (ht : ∃ c ∈ token, c ∈ tokenStarts)
    (ht' : ∃ c ∈ token', c ∈ tokenStarts) :
    List.Forall₂ AlikeWords (Text.consWords token ws) (Text.consWords token' ws') := by
  obtain ⟨c, hc, hstart⟩ := ht
  obtain ⟨c', hc', hstart'⟩ := ht'
  cases h with
  | nil => exact .cons (.inr ⟨⟨c, hc, hstart⟩, c', hc', hstart'⟩) .nil
  | cons hw hws =>
    exact .cons (.inr ⟨⟨c, List.mem_append_left _ hc, hstart⟩,
      c', List.mem_append_left _ hc', hstart'⟩) hws

/-- The text of a template under a style of tokens, from a position on. -/
def Template.chars (style : TokenStyle) (position : Nat) (cs : List (Char ⊕ Value)) : List Char :=
  Template.spell (fun position _ => style.token position) position cs

/-- The words of a template are alike under all styles, and so is how its text begins. -/
theorem words_chars (style style' : TokenStyle) : ∀ (cs : List (Char ⊕ Value)) (position : Nat),
    Text.endsWord (Template.chars style position cs) =
        Text.endsWord (Template.chars style' position cs) ∧
      List.Forall₂ AlikeWords (Text.words (Template.chars style position cs))
        (Text.words (Template.chars style' position cs))
  | [], _ => ⟨rfl, .nil⟩
  | .inl c :: cs, position => by
    obtain ⟨hend, hwords⟩ := words_chars style style' cs position
    refine ⟨rfl, ?_⟩
    -- a character is a blank, ends its word or is a part of the next one, in both texts alike
    show List.Forall₂ AlikeWords (Text.words (c :: Template.chars style position cs))
      (Text.words (c :: Template.chars style' position cs))
    rw [Text.words_cons, Text.words_cons, hend]
    split
    · exact hwords
    · split
      · exact .cons (.inl rfl) hwords
      · exact forall₂_consWord hwords c
  | .inr v :: cs, position => by
    obtain ⟨hend, hwords⟩ := words_chars style style' cs (position + 1)
    have hchars : ∀ s : TokenStyle, Template.chars s position (.inr v :: cs) =
        (s.token position).toList ++ Template.chars s (position + 1) cs := fun _ => rfl
    have hne : ∀ s : TokenStyle, (s.token position).toList ≠ [] := by
      intro s
      obtain ⟨c, hc, _⟩ := s.exists_tokenStart position
      exact List.ne_nil_of_mem hc
    -- tokens differ in length, but each of them is a part of one word
    have hstart : ∀ s : TokenStyle, Text.endsWord (Template.chars s position (.inr v :: cs)) =
        false := by
      intro s
      rw [hchars]
      cases htoken : (s.token position).toList with
      | nil => exact absurd htoken (hne s)
      | cons c rest =>
        exact s.isBlank_of_mem_token position c (htoken ▸ List.mem_cons_self)
    refine ⟨by rw [hstart, hstart], ?_⟩
    rw [hchars, hchars, Text.words_append (hne style) (style.isBlank_of_mem_token position),
      Text.words_append (hne style') (style'.isBlank_of_mem_token position), hend]
    split
    · exact .cons (.inr ⟨style.exists_tokenStart position, style'.exists_tokenStart position⟩)
        hwords
    · exact forall₂_consWords hwords (style.exists_tokenStart position)
        (style'.exists_tokenStart position)

/-! ## Keywords -/

/-- A token start stays one in capitals. -/
theorem mem_capitals {c : Char} {w : List Char} (hc : c ∈ w) (hstart : c ∈ tokenStarts) :
    c ∈ capitals w := by
  have hupper : c.toUpper = c := by
    rcases mem_tokenStarts.1 hstart with rfl | rfl | rfl <;> rfl
  rw [capitals, List.mem_map]
  exact ⟨c, hc, hupper⟩

/-- A word with a token is no keyword of statements that give rows. -/
theorem not_rowKeyword {w : List Char} (h : ∃ c ∈ w, c ∈ tokenStarts) :
    rowKeywords.contains (String.ofList (capitals (w.dropWhile (· == '(')))) = false := by
  obtain ⟨c, hc, hstart⟩ := h
  have hparen : (c == '(') = false := by
    rcases mem_tokenStarts.1 hstart with rfl | rfl | rfl <;> rfl
  -- what is dropped are parentheses, so the token is still there
  have hdrop : c ∈ w.dropWhile (· == '(') := by
    rw [← List.takeWhile_append_dropWhile (p := (· == '(')) (l := w), List.mem_append] at hc
    rcases hc with hc | hc
    · have hopen : (c == '(') = true := List.all_eq_true.1 List.all_takeWhile c hc
      rw [hparen] at hopen
      exact absurd hopen Bool.false_ne_true
    · exact hc
  have hkeywords : rowKeywords.any (fun k => k.toList.contains c) = false := by
    rcases mem_tokenStarts.1 hstart with rfl | rfl | rfl <;> decide
  rw [List.contains_eq_mem, decide_eq_false_iff_not]
  intro hmem
  refine List.any_eq_false.1 hkeywords _ hmem ?_
  rw [String.toList_ofList, List.contains_eq_mem, decide_eq_true_eq]
  exact mem_capitals hdrop hstart

/-- A word with a token is not `returning`. -/
theorem not_returning {w : List Char} (h : ∃ c ∈ w, c ∈ tokenStarts) :
    (capitals w == "RETURNING".toList) = false := by
  obtain ⟨c, hc, hstart⟩ := h
  have hnot : c ∉ "RETURNING".toList := by
    rcases mem_tokenStarts.1 hstart with rfl | rfl | rfl <;> decide
  rw [beq_eq_false_iff_ne]
  intro heq
  exact hnot (heq ▸ mem_capitals hc hstart)

theorem any_returning {ws ws' : List (List Char)} (h : List.Forall₂ AlikeWords ws ws') :
    (ws.any fun w => capitals w == "RETURNING".toList) =
      ws'.any fun w => capitals w == "RETURNING".toList := by
  induction h with
  | nil => rfl
  | cons hw _ ih =>
    rw [List.any_cons, List.any_cons, ih]
    rcases hw with rfl | ⟨htoken, htoken'⟩
    · rfl
    · rw [not_returning htoken, not_returning htoken']

/-- A statement is of the same kind under all styles of tokens. -/
theorem returnsRows_sql (t : Template) (style style' : TokenStyle) :
    returnsRows (t.sql style) = returnsRows (t.sql style') := by
  have hchars : ∀ s : TokenStyle, (t.sql s).toList = Template.chars s 1 t.flat := by
    intro s
    rw [Template.sql, Template.render_eq_spell, String.toList_ofList, Template.chars]
  have hwords := (words_chars style style' t.flat 1).2
  rw [returnsRows, returnsRows, leadingKeyword, leadingKeyword, hchars, hchars,
    any_returning hwords]
  -- what is left to compare is the first word
  congr 1
  generalize Text.words (Template.chars style 1 t.flat) = ws at hwords ⊢
  generalize Text.words (Template.chars style' 1 t.flat) = ws' at hwords ⊢
  cases hwords with
  | nil => rfl
  | cons hw _ =>
    rcases hw with rfl | ⟨htoken, htoken'⟩
    · rfl
    · exact (not_rowKeyword htoken).trans (not_rowKeyword htoken').symm

end EntitySql
