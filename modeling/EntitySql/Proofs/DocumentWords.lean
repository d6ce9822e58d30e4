import EntitySql.Json.Lexer
import EntitySql.Json.Printer
import EntitySql.Proofs.Outcomes

/-!
# The words of a document, written and read

Each word of a document is read up to where it ends, whatever follows. A string
ends with its quote. A number has no end of its own: it is read in the same way
before every text that does not go on with it.

- `Json.readString_quoted`: a string is read as it was written, whatever its
  characters are.
- `Json.readNumber_append`: a number is read the same before any text that does
  not go on with a number.
- `Json.readNumber_suffix`: what is left after a number is the end of the text.
- `Json.Spells`, `Json.spells_intText`: the characters that are a number, and that
  all whole numbers of a word are written as such.
- `Json.isNumeral_of_mem_numberText`: the characters that numbers are written with.
-/

namespace EntitySql.Json

/-! ## Strings -/

/-- A hexadecimal digit is read as it was written. -/
theorem hexValue?_hexDigit : ∀ n < 16, hexValue? (hexDigit n) = some n := by decide

/-- The four digits of an escape can be started. -/
theorem startHex_cons (lead : Option Nat) (a b c d : Char) (cs : List Char) :
    startHex lead (a :: b :: c :: d :: cs) = .ok (.hex lead 3 0) := by
  have hsize : ¬ (String.ofList [a, b, c, d]).utf8ByteSize < 4 := by
    have ha := a.utf8Size_pos
    have hb := b.utf8Size_pos
    have hc := c.utf8Size_pos
    have hd := d.utf8Size_pos
    simp only [String.ofList_cons, String.utf8ByteSize_append, String.utf8ByteSize_singleton]
    omega
  exact if_neg hsize

/-- The escape of a control character denotes it. -/
theorem readStringFrom_control {c : Char} (hc : c.toNat < 0x20) {cs body rest : List Char}
    (h : readStringFrom .between cs = .ok (body, rest)) :
    readStringFrom .between
        ('\\' :: 'u' :: '0' :: '0' :: hexDigit (c.toNat / 16) :: hexDigit (c.toNat % 16) :: cs) =
      .ok (c :: body, rest) := by
  have hhigh : hexValue? (hexDigit (c.toNat / 16)) = some (c.toNat / 16) :=
    hexValue?_hexDigit _ (by omega)
  have hlow : hexValue? (hexDigit (c.toNat % 16)) = some (c.toNat % 16) :=
    hexValue?_hexDigit _ (by omega)
  have hzero : hexValue? '0' = some 0 := by decide
  have hvalue : 16 * (c.toNat / 16) + c.toNat % 16 = c.toNat := Nat.div_add_mod _ _
  have hfinish : finishHex none c.toNat = .ok (some c, .between) := by
    have htrail : isTrailSurrogate c.toNat = false := by simp [isTrailSurrogate]; omega
    have hlead : isLeadSurrogate c.toNat = false := by simp [isLeadSurrogate]; omega
    simp [finishHex, htrail, hlead]
  simp [readStringFrom, startHex_cons, hhigh, hlow, hzero, hvalue, hfinish, h]

/-- An escape of one letter denotes its character. -/
theorem readStringFrom_letter {letter d : Char} (hu : letter ≠ 'u')
    (hd : escapeOf? letter = some d) {cs body rest : List Char}
    (h : readStringFrom .between cs = .ok (body, rest)) :
    readStringFrom .between ('\\' :: letter :: cs) = .ok (d :: body, rest) := by
  simp [readStringFrom, hu, hd, h]

/-- A character is read as it was written. -/
theorem readStringFrom_escaped {cs body rest : List Char} (c : Char)
    (h : readStringFrom .between cs = .ok (body, rest)) :
    readStringFrom .between (escaped c ++ cs) = .ok (c :: body, rest) := by
  unfold escaped
  iterate 7
    split
    · next hc =>
      subst hc
      exact readStringFrom_letter (by decide) rfl h
  split
  · next hc => exact readStringFrom_control hc h
  · next hquote hslash _ _ _ _ _ hcontrol => simp [readStringFrom, hquote, hslash, hcontrol, h]

/-- The characters of a string are read up to its closing quote. -/
theorem readStringFrom_flatMap_escaped (rest : List Char) : ∀ cs : List Char,
    readStringFrom .between (cs.flatMap escaped ++ '"' :: rest) = .ok (cs, rest)
  | [] => by simp [readStringFrom]
  | c :: cs => by
    rw [List.flatMap_cons, List.append_assoc]
    exact readStringFrom_escaped c (readStringFrom_flatMap_escaped rest cs)

/-- A string is read as it was written. -/
theorem readString_quoted (s : String) (rest : List Char) :
    readString (s.toList.flatMap escaped ++ '"' :: rest) = .ok (s, rest) := by
  rw [readString, readStringFrom_flatMap_escaped]
  simp

/-! ## Numbers -/

/-- The text does not go on with a number. -/
def EndsNumber (tail : List Char) : Prop :=
  ∀ c ∈ tail.head?, c.isDigit = false ∧ c ≠ '.' ∧ c ≠ 'e' ∧ c ≠ 'E'

variable {tail : List Char}

/-- The digits in front are the same ones before a text that does not go on with a number. -/
theorem takeWhile_isDigit_append (htail : EndsNumber tail) : ∀ cs : List Char,
    (cs ++ tail).takeWhile Char.isDigit = cs.takeWhile Char.isDigit
  | [] => by
    cases tail with
    | nil => rfl
    | cons c cs => simp [(htail c rfl).1]
  | c :: cs => by
    simp only [List.cons_append, List.takeWhile_cons, takeWhile_isDigit_append htail cs]

/-- What follows the digits in front goes on with the text. -/
theorem dropWhile_isDigit_append (htail : EndsNumber tail) : ∀ cs : List Char,
    (cs ++ tail).dropWhile Char.isDigit = cs.dropWhile Char.isDigit ++ tail
  | [] => by
    cases tail with
    | nil => rfl
    | cons c cs => simp [(htail c rfl).1]
  | c :: cs => by
    simp only [List.cons_append, List.dropWhile_cons, dropWhile_isDigit_append htail cs]
    split <;> rfl

/-- Digits before a text that does not go on with a number are taken as if it were not there. -/
theorem takeDigits_append (htail : EndsNumber tail) : ∀ (cs : List Char) (significand : Nat),
    takeDigits significand (cs ++ tail) =
      { takeDigits significand cs with rest := (takeDigits significand cs).rest ++ tail }
  | [], significand => by
    cases tail with
    | nil => rfl
    | cons c cs => simp [takeDigits, (htail c rfl).1]
  | c :: cs, significand => by
    rw [List.cons_append, takeDigits, takeDigits]
    by_cases hdigit : c.isDigit = true
    · rw [if_pos hdigit, if_pos hdigit]
      dsimp only
      by_cases hroom : FitsUnsigned (pushDigit significand c)
      · rw [if_pos hroom, if_pos hroom, takeDigits_append htail cs]
      · rw [if_neg hroom, if_neg hroom, ← List.cons_append, takeWhile_isDigit_append htail,
          dropWhile_isDigit_append htail]
    · rw [if_neg hdigit, if_neg hdigit]
      rfl

variable {negative : Bool} {significand : Nat} {exponent : Int} {n : JsonNumber}
  {cs rest : List Char}

/-- The sign of a power of ten is the first of its characters. -/
theorem powerSign_cons_append (c : Char) (cs tail : List Char) :
    powerSign (c :: cs ++ tail) =
      ((powerSign (c :: cs)).1, (powerSign (c :: cs)).2 ++ tail) := by
  rw [List.cons_append]
  unfold powerSign
  split <;> simp_all

/-- A power of ten is read the same before a text that does not go on with a number. -/
theorem readPower_append (htail : EndsNumber tail)
    (h : readPower negative significand exponent cs = .ok (n, rest)) :
    readPower negative significand exponent (cs ++ tail) = .ok (n, rest ++ tail) := by
  cases cs with
  | nil => cases h
  | cons c cs =>
    unfold readPower at h ⊢
    rw [powerSign_cons_append]
    generalize powerSign (c :: cs) = signed at h ⊢
    obtain ⟨down, ds⟩ := signed
    cases ds with
    | nil => cases h
    | cons d ds =>
      simp only [List.cons_append] at h ⊢
      split at h
      · next hdigit =>
        rw [if_pos hdigit, ← List.cons_append, takeWhile_isDigit_append htail,
          dropWhile_isDigit_append htail]
        simp only [bind_eq_ok] at h ⊢
        obtain ⟨x, hx, m, hm, heq⟩ := h
        cases heq
        exact ⟨x, hx, _, hm, rfl⟩
      · cases h

/-- What goes on with a number begins in front of a text that does not. -/
theorem exists_of_append_eq_cons (htail : EndsNumber tail) {c : Char} {more : List Char}
    (hc : c = '.' ∨ c = 'e' ∨ c = 'E') (h : cs ++ tail = c :: more) : ∃ more, cs = c :: more := by
  cases cs with
  | nil =>
    obtain ⟨-, hpoint, hlow, hup⟩ := htail c (by rw [List.nil_append] at h; rw [h]; rfl)
    rcases hc with hc | hc | hc <;> contradiction
  | cons d ds => exact ⟨ds, by rw [(List.cons.inj h).1]⟩

/-- A float is read the same before a text that does not go on with a number. -/
theorem readScaled_append (htail : EndsNumber tail)
    (h : readScaled negative significand exponent cs = .ok (n, rest)) :
    readScaled negative significand exponent (cs ++ tail) = .ok (n, rest ++ tail) := by
  unfold readScaled at h
  split at h
  · exact readPower_append htail h
  · exact readPower_append htail h
  · next hlow hup =>
    simp only [bind_eq_ok] at h
    obtain ⟨x, hx, m, hm, heq⟩ := h
    cases heq
    unfold readScaled
    split
    · next heq =>
      obtain ⟨more, hmore⟩ := exists_of_append_eq_cons htail (by decide) heq
      exact absurd hmore (hlow more)
    · next heq =>
      obtain ⟨more, hmore⟩ := exists_of_append_eq_cons htail (by decide) heq
      exact absurd hmore (hup more)
    · rw [hx, ok_bind, hm, ok_bind]

theorem readFraction_append (htail : EndsNumber tail)
    (h : readFraction negative significand exponent cs = .ok (n, rest)) :
    readFraction negative significand exponent (cs ++ tail) = .ok (n, rest ++ tail) := by
  unfold readFraction at h ⊢
  rw [takeDigits_append htail]
  dsimp only at h ⊢
  split at h
  · cases h
  · next hdigits =>
    rw [if_neg hdigits]
    exact readScaled_append htail h

theorem readAfterWhole_append (htail : EndsNumber tail) {digits : Digits}
    (h : readAfterWhole negative digits = .ok (n, rest)) :
    readAfterWhole negative { digits with rest := digits.rest ++ tail } =
      .ok (n, rest ++ tail) := by
  unfold readAfterWhole at h
  split at h
  · next hrest =>
    simp only [readAfterWhole, hrest, List.cons_append]
    exact readFraction_append htail h
  · next hrest =>
    simp only [readAfterWhole, hrest, List.cons_append]
    exact readPower_append htail h
  · next hrest =>
    simp only [readAfterWhole, hrest, List.cons_append]
    exact readPower_append htail h
  · next hpoint hlow hup =>
    rw [bind_eq_ok] at h
    obtain ⟨m, hm, heq⟩ := h
    cases heq
    unfold readAfterWhole
    split
    · next heq =>
      obtain ⟨more, hmore⟩ := exists_of_append_eq_cons htail (by decide) heq
      exact absurd hmore (hpoint more)
    · next heq =>
      obtain ⟨more, hmore⟩ := exists_of_append_eq_cons htail (by decide) heq
      exact absurd hmore (hlow more)
    · next heq =>
      obtain ⟨more, hmore⟩ := exists_of_append_eq_cons htail (by decide) heq
      exact absurd hmore (hup more)
    · exact bind_eq_ok.2 ⟨n, hm, rfl⟩

/-- A number is read the same before a text that does not go on with a number. -/
theorem readNumber_append (htail : EndsNumber tail)
    (h : readNumber negative cs = .ok (n, rest)) :
    readNumber negative (cs ++ tail) = .ok (n, rest ++ tail) := by
  cases cs with
  | nil => cases h
  | cons c cs =>
    rw [readNumber] at h
    rw [List.cons_append, readNumber]
    split at h
    · next hzero =>
      rw [if_pos hzero]
      split at h
      · cases h
      · next hsingle =>
        have hsingle' : ¬ ((cs ++ tail).head?.map Char.isDigit).getD false = true := by
          cases cs with
          | nil =>
            cases tail with
            | nil => simp
            | cons d tail => simp [(htail d rfl).1]
          | cons d cs => exact hsingle
        rw [if_neg hsingle']
        have hwhole := readAfterWhole_append htail h
        exact hwhole
    · next hzero =>
      rw [if_neg hzero]
      split at h
      · next hdigit =>
        rw [if_pos hdigit, ← List.cons_append, takeDigits_append htail]
        exact readAfterWhole_append htail h
      · cases h

/-! What is left after a number is the end of the text. -/

/-- Digits are taken from the front. -/
theorem rest_takeDigits_suffix : ∀ (cs : List Char) (significand : Nat),
    (takeDigits significand cs).rest <:+ cs
  | [], _ => List.suffix_refl _
  | c :: cs, significand => by
    rw [takeDigits]
    split
    · dsimp only
      split
      · exact (rest_takeDigits_suffix cs _).trans (List.suffix_cons c cs)
      · exact List.dropWhile_suffix _
    · exact List.suffix_refl _

theorem readPower_suffix (h : readPower negative significand exponent cs = .ok (n, rest)) :
    rest <:+ cs := by
  have hsign : (powerSign cs).2 <:+ cs := by
    unfold powerSign
    split
    · exact List.suffix_cons _ _
    · exact List.suffix_cons _ _
    · exact List.suffix_refl _
  unfold readPower at h
  generalize powerSign cs = signed at h hsign
  obtain ⟨down, ds⟩ := signed
  dsimp only at h hsign
  split at h
  · cases h
  · split at h
    · simp only [bind_eq_ok] at h
      obtain ⟨x, -, m, -, heq⟩ := h
      cases heq
      exact (List.dropWhile_suffix _).trans hsign
    · cases h

theorem readScaled_suffix (h : readScaled negative significand exponent cs = .ok (n, rest)) :
    rest <:+ cs := by
  unfold readScaled at h
  split at h
  · exact (readPower_suffix h).trans (List.suffix_cons _ _)
  · exact (readPower_suffix h).trans (List.suffix_cons _ _)
  · simp only [bind_eq_ok] at h
    obtain ⟨x, -, m, -, heq⟩ := h
    cases heq
    exact List.suffix_refl _

theorem readAfterWhole_suffix {digits : Digits}
    (h : readAfterWhole negative digits = .ok (n, rest)) : rest <:+ digits.rest := by
  unfold readAfterWhole at h
  split at h
  · next hrest =>
    rw [hrest]
    unfold readFraction at h
    dsimp only at h
    split at h
    · cases h
    · exact ((readScaled_suffix h).trans (rest_takeDigits_suffix _ _)).trans
        (List.suffix_cons _ _)
  · next hrest =>
    rw [hrest]
    exact (readPower_suffix h).trans (List.suffix_cons _ _)
  · next hrest =>
    rw [hrest]
    exact (readPower_suffix h).trans (List.suffix_cons _ _)
  · rw [bind_eq_ok] at h
    obtain ⟨m, -, heq⟩ := h
    cases heq
    exact List.suffix_refl _

theorem readNumber_suffix (h : readNumber negative cs = .ok (n, rest)) : rest <:+ cs := by
  cases cs with
  | nil => cases h
  | cons c cs =>
    rw [readNumber] at h
    split at h
    · split at h
      · cases h
      · exact (readAfterWhole_suffix h).trans (List.suffix_cons _ _)
    · split at h
      · exact (readAfterWhole_suffix h).trans (rest_takeDigits_suffix _ _)
      · cases h

/-! ## Whole numbers -/

/-- Numbers are written with digits. -/
theorem isDigit_of_mem_digitsOf {m : Nat} {c : Char} (h : c ∈ digitsOf m) : c.isDigit = true :=
  Nat.isDigit_of_mem_toDigits (by decide) (by decide) h

/-- Further digits make no number smaller. -/
theorem le_foldl_pushDigit : ∀ (ds : List Char) (significand : Nat),
    significand ≤ ds.foldl pushDigit significand
  | [], _ => Nat.le_refl _
  | d :: ds, significand => by
    have hstep : significand ≤ pushDigit significand d := by
      unfold pushDigit
      omega
    exact Nat.le_trans hstep (le_foldl_pushDigit ds _)

/-- All digits of a number for which a word has room are taken. -/
theorem takeDigits_of_fits : ∀ {ds : List Char} {significand : Nat},
    (∀ c ∈ ds, c.isDigit = true) → FitsUnsigned (ds.foldl pushDigit significand) →
      takeDigits significand ds = ⟨ds.foldl pushDigit significand, ds.length, 0, []⟩
  | [], _, _, _ => rfl
  | d :: ds, significand, hdigits, hfits => by
    obtain ⟨hd, hds⟩ := List.forall_mem_cons.1 hdigits
    have hroom : FitsUnsigned (pushDigit significand d) :=
      Nat.lt_of_le_of_lt (le_foldl_pushDigit ds _) hfits
    rw [takeDigits, if_pos hd]
    dsimp only
    rw [if_pos hroom, takeDigits_of_fits hds hfits]
    rfl

/-- No number but zero is written with a zero in front. -/
theorem ne_zero_of_digitsOf_eq_cons (m : Nat) {c : Char} {cs : List Char} (hm : 0 < m)
    (h : digitsOf m = c :: cs) : c ≠ '0' := by
  induction m using Nat.strongRecOn generalizing cs with
  | ind m ih =>
    rw [digitsOf, Nat.toDigits_eq_if (by decide)] at h
    split at h
    · next hsmall =>
      have hdigit : ∀ d < 10, 0 < d → d.digitChar ≠ '0' := by decide
      cases h
      exact hdigit m hsmall hm
    · next hlarge =>
      cases hfront : Nat.toDigits 10 (m / 10) with
      | nil => exact absurd hfront Nat.toDigits_ne_nil
      | cons d ds =>
        rw [hfront, List.cons_append] at h
        cases h
        exact ih (m / 10) (by omega) (by omega) hfront

/-- The digits of a number are read as the number. -/
theorem readNumber_digitsOf {m : Nat} (hm : FitsUnsigned m) (negative : Bool) :
    readNumber negative (digitsOf m) = (wholeNumber negative m).map fun n => (n, []) := by
  have hdigits : ∀ c ∈ digitsOf m, c.isDigit = true := fun c hc => isDigit_of_mem_digitsOf hc
  have hvalue : (digitsOf m).foldl pushDigit 0 = m := Nat.ofDigitChars_ten_toDigits
  cases Nat.eq_zero_or_pos m with
  | inl hzero =>
    subst hzero
    rfl
  | inr hpos =>
    have htake := takeDigits_of_fits hdigits (hvalue ▸ hm)
    cases hcs : digitsOf m with
    | nil => exact absurd hcs Nat.toDigits_ne_nil
    | cons c cs =>
      have hc : c.isDigit = true := hdigits c (hcs ▸ List.mem_cons_self)
      rw [readNumber, if_neg (ne_zero_of_digitsOf_eq_cons m hpos hcs), if_pos hc, ← hcs, htake,
        hvalue]
      rfl

/-- A whole number of a word is read as it is, but the negative zero. -/
theorem wholeNumber_of_fits {negative : Bool} {m : Nat} {k : Int} (fits : FitsWord k)
    (hk : (if negative then -(m : Int) else m) = k) (hzero : ¬ (negative = true ∧ m = 0)) :
    wholeNumber negative m = .ok (.int k fits) := by
  subst hk
  exact dif_pos ⟨fits, hzero⟩

/-- The characters are a number, with or without a sign. -/
inductive Spells (n : JsonNumber) : List Char → Prop
  | signed {cs : List Char} (h : readNumber true cs = .ok (n, [])) : Spells n ('-' :: cs)
  | unsigned {c : Char} {cs : List Char} (hdigit : c.isDigit = true)
      (h : readNumber false (c :: cs) = .ok (n, [])) : Spells n (c :: cs)

/-- A whole number is spelled by its digits, with a sign if it is negative. -/
theorem spells_intText {k : Int} (fits : FitsWord k) : Spells (.int k fits) (intText k) := by
  cases k with
  | ofNat m =>
    have hm : FitsUnsigned m := Int.ofNat_lt.1 fits.2
    have hread := readNumber_digitsOf hm false
    rw [wholeNumber_of_fits fits rfl (by simp)] at hread
    show Spells _ (digitsOf m)
    cases hcs : digitsOf m with
    | nil => exact absurd hcs Nat.toDigits_ne_nil
    | cons c cs =>
      have hmem : c ∈ digitsOf m := hcs ▸ List.mem_cons_self
      exact .unsigned (isDigit_of_mem_digitsOf hmem) (hcs ▸ hread)
  | negSucc m =>
    have hm : FitsUnsigned (m + 1) := by omega
    have hread := readNumber_digitsOf hm true
    rw [wholeNumber_of_fits fits rfl (by simp)] at hread
    exact .signed hread

/-! ## The characters of numbers -/

/-- A character that numbers are written with. -/
def IsNumeral (c : Char) : Prop := c.isDigit = true ∨ c ∈ ['-', '+', '.', 'e']

theorem isNumeral_of_mem_digitsOf {m : Nat} {c : Char} (h : c ∈ digitsOf m) : IsNumeral c :=
  .inl (isDigit_of_mem_digitsOf h)

/-- No numeral is a blank. -/
theorem IsNumeral.isSeparator {c : Char} (h : IsNumeral c) : isSeparator c = false := by
  rcases h with hdigit | hsign
  · rw [Bool.eq_false_iff]
    intro hblank
    simp only [Json.isSeparator, Bool.or_eq_true, beq_iff_eq] at hblank
    rcases hblank with ((rfl | rfl) | rfl) | rfl <;> exact absurd hdigit (by decide)
  · simp only [List.mem_cons, List.not_mem_nil, or_false] at hsign
    rcases hsign with rfl | rfl | rfl | rfl <;> decide

theorem isNumeral_of_mem_positional {d : Decimal} {c : Char} (h : c ∈ d.positional ".0") :
    IsNumeral c := by
  have hpoint : IsNumeral '.' := .inr (by decide)
  have hzero : IsNumeral '0' := .inl (by decide)
  have hzeros : ∀ k, c ∈ List.replicate k '0' → IsNumeral c :=
    fun k hc => (List.mem_replicate.1 hc).2 ▸ hzero
  unfold Decimal.positional at h
  dsimp only at h
  split at h
  · rw [List.mem_append, List.mem_append] at h
    rcases h with (h | h) | h
    · exact isNumeral_of_mem_digitsOf h
    · exact hzeros _ h
    · have hsuffix : c = '.' ∨ c = '0' := by simpa using h
      rcases hsuffix with rfl | rfl
      · exact hpoint
      · exact hzero
  · split at h
    · rw [List.mem_append, List.mem_cons] at h
      rcases h with h | rfl | h
      · exact isNumeral_of_mem_digitsOf (List.mem_of_mem_take h)
      · exact hpoint
      · exact isNumeral_of_mem_digitsOf (List.mem_of_mem_drop h)
    · rw [List.cons_append, List.cons_append, List.mem_cons, List.mem_cons, List.mem_append] at h
      rcases h with rfl | rfl | h | h
      · exact hzero
      · exact hpoint
      · exact hzeros _ h
      · exact isNumeral_of_mem_digitsOf h

theorem isNumeral_of_mem_scientific {d : Decimal} {c : Char} (h : c ∈ d.scientific) :
    IsNumeral c := by
  have hpoint : IsNumeral '.' := .inr (by decide)
  have hletter : IsNumeral 'e' := .inr (by decide)
  have hplus : IsNumeral '+' := .inr (by decide)
  have hminus : IsNumeral '-' := .inr (by decide)
  have hdigits : ∀ c ∈ digitsOf d.digits, IsNumeral c := fun c hc => isNumeral_of_mem_digitsOf hc
  unfold Decimal.scientific at h
  dsimp only at h
  rw [List.mem_append, List.mem_cons, List.mem_cons] at h
  rcases h with h | rfl | rfl | h
  · generalize digitsOf d.digits = ds at h hdigits
    match ds, h with
    | [e], h => exact hdigits c h
    | e :: f :: ds, h =>
      rw [List.mem_cons, List.mem_cons] at h
      rcases h with rfl | rfl | h
      · exact hdigits c List.mem_cons_self
      · exact hpoint
      · exact hdigits c (List.mem_cons_of_mem _ h)
  · exact hletter
  · split
    · exact hplus
    · exact hminus
  · exact isNumeral_of_mem_digitsOf h

/-- Numbers are written with numerals only. -/
theorem isNumeral_of_mem_numberText {n : JsonNumber} {c : Char} (h : c ∈ numberText n) :
    IsNumeral c := by
  have hminus : IsNumeral '-' := .inr (by decide)
  cases n with
  | int k fits =>
    cases k with
    | ofNat m => exact isNumeral_of_mem_digitsOf h
    | negSucc m =>
      rcases List.mem_cons.1 h with rfl | h
      · exact hminus
      · exact isNumeral_of_mem_digitsOf h
  | float x finite =>
    have hdecimal : ∀ d : Decimal, c ∈ d.write floatLayout → IsNumeral c := by
      intro d hd
      simp only [Decimal.write, floatLayout] at hd
      split at hd
      · exact isNumeral_of_mem_positional hd
      · exact isNumeral_of_mem_scientific hd
    rw [numberText] at h
    cases hx : Binary.ofFloat x with
    | nan =>
      rw [finiteFloat, hx] at finite
      cases finite
    | infinite negative =>
      rw [finiteFloat, hx] at finite
      cases finite
    | finite negative mantissa exponent =>
      rw [hx] at h
      cases negative with
      | false => exact hdecimal _ h
      | true =>
        rcases List.mem_cons.1 h with rfl | h
        · exact hminus
        · exact hdecimal _ h

end EntitySql.Json
