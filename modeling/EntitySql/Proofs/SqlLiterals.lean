import EntitySql.Proofs.DocumentWords
import EntitySql.Value.Basic

/-!
# Literals of SQL

Where no parameter can be bound, values stand in a statement as literals. Here
a text is read as SQL reads it, from the place of a value on. A literal ends
where the value ends, unless what follows goes on with it: a second quote, a
point after a number, a character of a word. ANSI also joins two texts, if only
blanks, comments and the end of a line stand between them.

- `SqlLiteral`, `Alphabet.read?`: literals, and how they are read.
- `SqlLiteral.EndsBefore`: texts that do not go on with a literal.
- `Value.denoted`: the literal of a value.
- `Alphabet.readText?_doubledQuotes`, `Alphabet.readPlaces?_positional`: texts and
  numbers are read as they were written.
- `Value.read?_literal`: so are all values.
-/

namespace EntitySql

/-! ## How literals are read -/

/-- A literal of SQL. -/
inductive SqlLiteral where
  | null
  | boolean (b : Bool)
  /-- The number `± digits / 10 ^ places`, times a power of ten if one is written. -/
  | number (negative : Bool) (digits places : Nat) (power : Option Int)
  | text (cs : List Char)
deriving DecidableEq, Repr

/-- The letters of words. Databases agree on those of ASCII. -/
structure Alphabet where
  isLetter : Char → Bool
  ascii : ∀ c, c.toNat < 128 → isLetter c = c.isAlpha

namespace Alphabet

/-- The letters of ASCII. -/
def plain : Alphabet := ⟨Char.isAlpha, fun _ _ => rfl⟩

/-! ### Texts -/

/-- Where the blanks and comments between two quotes have been read to. -/
inductive Gap where
  /-- Among blanks; `broken` tells whether a line has ended. -/
  | blank (broken : Bool)
  | comment

/-- What is left after a gap, if a line ends in it and a quote comes after it. -/
def resume? : Gap → List Char → Option (List Char)
  | _, [] => none
  | .comment, c :: cs => resume? (if c = '\n' then .blank true else .comment) cs
  | .blank broken, '\'' :: cs => if broken then some cs else none
  | .blank _, '-' :: '-' :: cs => resume? .comment cs
  | .blank broken, c :: cs =>
    if Text.isBlank c then resume? (.blank (broken || c = '\n')) cs else none

/-- How a text goes on after a quote in it, if it does: with a quote after a second one, with
nothing after a gap with the end of a line. -/
def goesOn? : List Char → Option (List Char × List Char)
  | '\'' :: cs => some (['\''], cs)
  | cs => (resume? (.blank false) cs).map ([], ·)

/-- A gap is read from the front. -/
theorem length_lt_of_resume? : ∀ {g : Gap} {cs ds : List Char}, resume? g cs = some ds →
    ds.length < cs.length := by
  intro g cs
  fun_induction resume? g cs with
  | case1 => nofun
  | case2 c cs ih =>
    intro ds h
    exact Nat.lt_succ_of_lt (ih h)
  | case3 cs =>
    rintro ds ⟨⟩
    exact Nat.lt_succ_self _
  | case4 => nofun
  | case5 broken cs ih =>
    intro ds h
    exact Nat.lt_succ_of_lt (Nat.lt_succ_of_lt (ih h))
  | case6 broken c cs _ _ hblank ih =>
    intro ds h
    exact Nat.lt_succ_of_lt (ih h)
  | case7 => nofun

/-- What goes on with a text is shorter. -/
theorem length_lt_of_goesOn? {cs more ds : List Char} (h : goesOn? cs = some (more, ds)) :
    ds.length < cs.length := by
  unfold goesOn? at h
  split at h
  · cases h
    exact Nat.lt_succ_self _
  · obtain ⟨es, hes, heq⟩ := Option.map_eq_some_iff.1 h
    cases heq
    exact length_lt_of_resume? hes

/-- The characters of a text after its first quote, and what is left. -/
def readText? : List Char → Option (List Char × List Char)
  | [] => none
  | c :: cs =>
    if c = '\'' then
      match _h : goesOn? cs with
      | some (more, ds) => (readText? ds).map fun r => (more ++ r.1, r.2)
      | none => some ([], cs)
    else (readText? cs).map fun r => (c :: r.1, r.2)
termination_by cs => cs.length
decreasing_by
  · exact Nat.lt_succ_of_lt (length_lt_of_goesOn? _h)
  · exact Nat.lt_succ_self _

theorem readText?_cons {c : Char} (hc : c ≠ '\'') (cs : List Char) :
    readText? (c :: cs) = (readText? cs).map fun r => (c :: r.1, r.2) := by
  rw [readText?, if_neg hc]

/-- A text goes on after a quote in it. -/
theorem readText?_of_goesOn? {cs more ds : List Char} (h : goesOn? cs = some (more, ds)) :
    readText? ('\'' :: cs) = (readText? ds).map fun r => (more ++ r.1, r.2) := by
  rw [readText?, if_pos rfl]
  split
  · next hgoes =>
    rw [h] at hgoes
    cases hgoes
    rfl
  · next hgoes => cases h.symm.trans hgoes

theorem readText?_closed {cs : List Char} (h : goesOn? cs = none) :
    readText? ('\'' :: cs) = some ([], cs) := by
  rw [readText?, if_pos rfl]
  split
  · next hgoes => cases h.symm.trans hgoes
  · rfl

/-! ### Numbers -/

/-- Digits with or without a point, how many of them stand after it, and what is left. -/
def readPlaces? (cs : List Char) : Option (Nat × Nat × List Char) :=
  let whole := cs.takeWhile Char.isDigit
  let (fraction, rest) := match cs.dropWhile Char.isDigit with
    | '.' :: more => (more.takeWhile Char.isDigit, more.dropWhile Char.isDigit)
    | rest => ([], rest)
  if whole.isEmpty && fraction.isEmpty then none
  else some (ofDigits (whole ++ fraction), fraction.length, rest)

/-- A sign, if there is one. -/
def readSign : List Char → Bool × List Char
  | '-' :: cs => (true, cs)
  | '+' :: cs => (false, cs)
  | cs => (false, cs)

/-- A power of ten, if there is one. -/
def readPower? : List Char → Option (Option Int × List Char)
  | [] => some (none, [])
  | c :: cs =>
    if c = 'e' ∨ c = 'E' then
      let (negative, cs) := readSign cs
      (readDigits? (cs.takeWhile Char.isDigit)).map fun (power : Nat) =>
        (some (if negative then -(power : Int) else power), cs.dropWhile Char.isDigit)
    else some (none, c :: cs)

variable (a : Alphabet)

/-- A character of words. -/
def isWordChar (c : Char) : Bool := a.isLetter c || c.isDigit || c == '_'

/-- The text does not go on with a word. -/
def endsWord : List Char → Bool
  | [] => true
  | c :: _ => !a.isWordChar c

/-- A number after its sign. No word follows a number without a gap. -/
def readNumber? (negative : Bool) (cs : List Char) : Option (SqlLiteral × List Char) := do
  let (digits, places, cs) ← readPlaces? cs
  let (power, cs) ← readPower? cs
  if a.endsWord cs then some (.number negative digits places power, cs) else none

/-! ### Words -/

/-- The literal that a word in small letters is. -/
def keyword? (word : List Char) : Option SqlLiteral :=
  if word = "null".toList then some .null
  else if word = "true".toList then some (.boolean true)
  else if word = "false".toList then some (.boolean false)
  else none

/-- A word that is a literal, in letters of any size. -/
def readWord? (cs : List Char) : Option (SqlLiteral × List Char) :=
  (keyword? ((cs.takeWhile a.isWordChar).map Char.toLower)).map (·, cs.dropWhile a.isWordChar)

/-- The literal at the front of a text, and what is left after it. -/
def read? : List Char → Option (SqlLiteral × List Char)
  | [] => none
  | '\'' :: cs => (readText? cs).map fun r => (.text r.1, r.2)
  | c :: cs =>
    if c = '-' ∨ c = '+' then a.readNumber? (c = '-') cs
    else if c.isDigit ∨ c = '.' then a.readNumber? false (c :: cs)
    else a.readWord? (c :: cs)

end Alphabet

/-- The text does not go on with the literal. -/
def SqlLiteral.EndsBefore (a : Alphabet) : SqlLiteral → List Char → Prop
  | .null, rest | .boolean _, rest => a.endsWord rest = true
  | .number .., rest => a.endsWord rest = true ∧ rest.head? ≠ some '.'
  | .text _, rest => Alphabet.goesOn? rest = none

/-! ## What values denote -/

/-- The literal that a float is, if it is finite. Its decimal is the one that is printed. -/
def Binary.denoted : Binary → SqlLiteral
  | .finite negative mantissa exponent =>
    let d := shortest Value.floatLayout.tie mantissa exponent
    .number negative (d.digits * tenTo d.exponent.toNat) (-d.exponent).toNat none
  | _ => .null

/-- The literal that a value is. -/
def Value.denoted : Value → SqlLiteral
  | .null => .null
  | .integer n => .number (decide (n.toInt < 0)) n.toInt.natAbs 0 none
  | .float x => (Binary.ofFloat x).denoted
  | .text s => .text s.toList
  | .boolean b => .boolean b
  | .timestamp t => .text t.text.toList
  | .json j => .text j.compact.toList

namespace Alphabet

variable {a : Alphabet} {cs rest : List Char}

/-! ## Texts are read as they were written -/

/-- A text is read up to its closing quote. -/
theorem readText?_doubledQuotes (hrest : goesOn? rest = none) : ∀ cs : List Char,
    readText? (Value.doubledQuotes cs ++ '\'' :: rest) = some (cs, rest)
  | [] => readText?_closed hrest
  | c :: cs => by
    have ih := readText?_doubledQuotes hrest cs
    rw [Value.doubledQuotes]
    split
    · next hc =>
      -- the second quote of a pair is the way to go on with one
      subst hc
      rw [List.cons_append, List.cons_append, readText?_of_goesOn? rfl, ih]
      rfl
    · next hc =>
      rw [List.cons_append, readText?_cons hc, ih]
      rfl

/-! ## Numbers are read as they were written -/

/-- Characters of a kind are read up to one of another kind. -/
theorem span_append {p : Char → Bool} (hcs : ∀ c ∈ cs, p c = true)
    (hrest : ∀ c ∈ rest.head?, p c = false) :
    (cs ++ rest).takeWhile p = cs ∧ (cs ++ rest).dropWhile p = rest := by
  rw [List.takeWhile_append_of_pos hcs, List.dropWhile_append_of_pos hcs]
  cases rest with
  | nil => simp
  | cons c rest => simp [hrest c rfl]

theorem readPlaces?_whole {whole : List Char} (hwhole : ∀ c ∈ whole, c.isDigit = true)
    (hne : whole ≠ []) (hrest : ∀ c ∈ rest.head?, c.isDigit = false)
    (hpoint : rest.head? ≠ some '.') :
    readPlaces? (whole ++ rest) = some (ofDigits whole, 0, rest) := by
  obtain ⟨htake, hdrop⟩ := span_append hwhole hrest
  unfold readPlaces?
  rw [htake, hdrop]
  cases rest with
  | nil => simp [hne]
  | cons c rest =>
    have hc : c ≠ '.' := fun h => hpoint (congrArg some h)
    split
    next heq =>
    split at heq
    · next hcons =>
      cases hcons
      exact absurd rfl hc
    · cases heq
      simp [hne]

theorem readPlaces?_fraction {whole fraction : List Char}
    (hwhole : ∀ c ∈ whole, c.isDigit = true) (hfraction : ∀ c ∈ fraction, c.isDigit = true)
    (hne : fraction ≠ []) (hrest : ∀ c ∈ rest.head?, c.isDigit = false) :
    readPlaces? (whole ++ '.' :: fraction ++ rest) =
      some (ofDigits (whole ++ fraction), fraction.length, rest) := by
  have hpoint : ∀ c ∈ ('.' :: (fraction ++ rest)).head?, c.isDigit = false := by
    rintro c ⟨⟩
    decide
  obtain ⟨htake, hdrop⟩ := span_append hwhole hpoint
  obtain ⟨htake', hdrop'⟩ := span_append hfraction hrest
  unfold readPlaces?
  rw [List.append_assoc, List.cons_append, htake, hdrop]
  simp [htake', hdrop', hne]

/-- Zeros at the end of a number. -/
theorem ofDigits_append_zeros (cs : List Char) (k : Nat) :
    ofDigits (cs ++ List.replicate k '0') = ofDigits cs * tenTo k := by
  show Nat.ofDigitChars 10 _ 0 = Nat.ofDigitChars 10 cs 0 * tenTo k
  rw [Nat.ofDigitChars_append, Nat.ofDigitChars_replicate_zero, Nat.mul_comm]
  rfl

theorem ofDigits_zeros_append (cs : List Char) (k : Nat) :
    ofDigits (List.replicate k '0' ++ cs) = ofDigits cs := by
  show Nat.ofDigitChars 10 _ 0 = Nat.ofDigitChars 10 cs 0
  rw [Nat.ofDigitChars_append, Nat.ofDigitChars_replicate_zero, Nat.mul_zero]

/-- The digits of a number denote it. -/
theorem ofDigits_digitsOf (n : Nat) : ofDigits (digitsOf n) = n := Nat.ofDigitChars_ten_toDigits

/-- A decimal is read as it was written. -/
theorem readPlaces?_positional (d : Decimal) (hrest : ∀ c ∈ rest.head?, c.isDigit = false)
    (hpoint : rest.head? ≠ some '.') :
    readPlaces? (d.positional "" ++ rest) =
      some (d.digits * tenTo d.exponent.toNat, (-d.exponent).toNat, rest) := by
  have hdigits : ∀ c ∈ digitsOf d.digits, c.isDigit = true :=
    fun c hc => Json.isDigit_of_mem_digitsOf hc
  have hzeros : ∀ k, ∀ c ∈ List.replicate k '0', c.isDigit = true := by
    intro k c hc
    rw [(List.mem_replicate.1 hc).2]
    rfl
  have hne : digitsOf d.digits ≠ [] := Nat.toDigits_ne_nil
  have hvalue := ofDigits_digitsOf d.digits
  unfold Decimal.positional
  dsimp only
  generalize digitsOf d.digits = ds at *
  split
  · next hexponent =>
    -- a whole number with zeros at its end
    have hall : ∀ c ∈ ds ++ List.replicate d.exponent.toNat '0', c.isDigit = true := by
      intro c hc
      exact (List.mem_append.1 hc).elim (hdigits c) (hzeros _ c)
    have hplaces : (-d.exponent).toNat = 0 := by omega
    rw [String.toList_empty, List.append_nil, hplaces,
      readPlaces?_whole hall (by simp [hne]) hrest hpoint, ofDigits_append_zeros, hvalue]
  · next hexponent =>
    have hpower : d.exponent.toNat = 0 := by omega
    generalize hplaces : (-d.exponent).toNat = places
    have hpositive : 0 < places := by omega
    rw [hpower, tenTo_zero, Nat.mul_one]
    split
    · next hshort =>
      -- a point among the digits
      have hfraction : (ds.drop (ds.length - places)).length = places := by
        rw [List.length_drop]
        omega
      rw [readPlaces?_fraction (fun c hc => hdigits c (List.mem_of_mem_take hc))
        (fun c hc => hdigits c (List.mem_of_mem_drop hc))
        (List.ne_nil_of_length_pos (by omega)) hrest, List.take_append_drop, hfraction, hvalue]
    · next hlong =>
      -- the point before the digits, with zeros between
      have hall : ∀ c ∈ List.replicate (places - ds.length) '0' ++ ds, c.isDigit = true := by
        intro c hc
        exact (List.mem_append.1 hc).elim (hzeros _ c) (hdigits c)
      have hfraction : (List.replicate (places - ds.length) '0' ++ ds).length = places := by
        rw [List.length_append, List.length_replicate]
        omega
      have hread := @readPlaces?_fraction rest _ _ (hzeros 1) hall (by simp [hne]) hrest
      rw [ofDigits_zeros_append, ofDigits_zeros_append, hvalue, hfraction] at hread
      simpa using hread

/-- No character of words is first in a text that does not go on with one. -/
theorem isWordChar_of_endsWord (h : a.endsWord rest = true) :
    ∀ c ∈ rest.head?, a.isWordChar c = false := by
  cases rest with
  | nil => nofun
  | cons d rest =>
    rintro c ⟨⟩
    simpa [endsWord] using h

theorem isDigit_of_endsWord (h : a.endsWord rest = true) :
    ∀ c ∈ rest.head?, c.isDigit = false := by
  intro c hc
  have hword := isWordChar_of_endsWord h c hc
  simp only [isWordChar, Bool.or_eq_false_iff] at hword
  exact hword.1.2

/-- Letters of ASCII are characters of words. -/
theorem isWordChar_of_isAlpha {c : Char} (h : c.isAlpha = true) : a.isWordChar c = true := by
  have hascii : c.val.toNat < 128 := by
    rcases Bool.or_eq_true_iff.1 (show (c.isUpper || c.isLower) = true from h) with hupper | hlower
    · have hbounds : c.val ≥ 'A'.val ∧ c.val ≤ 'Z'.val := of_decide_eq_true hupper
      exact Nat.lt_of_le_of_lt (UInt32.le_iff_toNat_le.1 hbounds.2) (by decide)
    · have hlast := (Bool.and_eq_true_iff.1
        (show (decide (c.val ≥ 'a'.val) && decide (c.val ≤ 'z'.val)) = true from hlower)).2
      exact Nat.lt_of_le_of_lt (UInt32.le_iff_toNat_le.1 (of_decide_eq_true hlast)) (by decide)
  rw [isWordChar, a.ascii c hascii, h]
  rfl

/-- A text that does not go on with a word does not go on with a power of ten. -/
theorem readPower?_of_endsWord (h : a.endsWord rest = true) :
    readPower? rest = some (none, rest) := by
  cases rest with
  | nil => rfl
  | cons c rest =>
    have hc := isWordChar_of_endsWord h c rfl
    have hletter : ¬ (c = 'e' ∨ c = 'E') := by
      rintro (rfl | rfl)
      all_goals
        rw [isWordChar_of_isAlpha rfl] at hc
        cases hc
    rw [readPower?, if_neg hletter]

/-- A decimal with a sign is read as it was written. -/
theorem readNumber?_positional (d : Decimal) (negative : Bool) (hrest : a.endsWord rest = true)
    (hpoint : rest.head? ≠ some '.') :
    a.readNumber? negative (d.positional "" ++ rest) =
      some (.number negative (d.digits * tenTo d.exponent.toNat) (-d.exponent).toNat none,
        rest) := by
  rw [readNumber?, readPlaces?_positional d (isDigit_of_endsWord hrest) hpoint]
  simp [readPower?_of_endsWord hrest, hrest]

/-- A decimal begins with a digit. -/
theorem exists_positional_eq_cons (d : Decimal) :
    ∃ c cs, d.positional "" = c :: cs ∧ c.isDigit = true := by
  obtain ⟨c, cs, hcs⟩ := List.exists_cons_of_ne_nil (l := digitsOf d.digits) Nat.toDigits_ne_nil
  have hc : c.isDigit = true := Json.isDigit_of_mem_digitsOf (hcs ▸ List.mem_cons_self)
  unfold Decimal.positional
  dsimp only
  rw [hcs]
  split
  · exact ⟨c, _, rfl, hc⟩
  · split
    · next hshort =>
      obtain ⟨k, hk⟩ := Nat.exists_eq_add_one.2 (Nat.sub_pos_of_lt hshort)
      rw [hk]
      exact ⟨c, _, rfl, hc⟩
    · exact ⟨'0', _, rfl, rfl⟩

theorem read?_signed (d : Decimal) (negative : Bool) (hrest : a.endsWord rest = true)
    (hpoint : rest.head? ≠ some '.') :
    a.read? ((if negative then '-' :: d.positional "" else d.positional "") ++ rest) =
      some (.number negative (d.digits * tenTo d.exponent.toNat) (-d.exponent).toNat none,
        rest) := by
  have hnumber := readNumber?_positional d negative hrest hpoint
  cases negative with
  | true => exact hnumber
  | false =>
    obtain ⟨c, cs, hcs, hc⟩ := exists_positional_eq_cons d
    rw [if_neg Bool.false_ne_true, hcs, List.cons_append]
    rw [hcs, List.cons_append] at hnumber
    have hquote : c ≠ '\'' := by
      rintro rfl
      cases hc
    have hsign : ¬ (c = '-' ∨ c = '+') := by
      rintro (rfl | rfl) <;> cases hc
    unfold read?
    split
    · next heq => cases heq
    · next heq => exact absurd (List.cons.inj heq).1 hquote
    · next heq =>
      cases heq
      rw [if_neg hsign, if_pos (.inl hc), hnumber]

/-- A whole number is read as it was written. -/
theorem read?_intText (n : Int) (hrest : a.endsWord rest = true)
    (hpoint : rest.head? ≠ some '.') :
    a.read? (intText n ++ rest) = some (.number (decide (n < 0)) n.natAbs 0 none, rest) := by
  have hwhole : ∀ m, (Decimal.mk m 0).positional "" = digitsOf m := by
    intro m
    simp [Decimal.positional]
  have hread := fun m negative => read?_signed (Decimal.mk m 0) negative hrest hpoint
  simp only [hwhole] at hread
  cases n with
  | ofNat m =>
    have hdigits : a.read? (digitsOf m ++ rest) = some (.number false m 0 none, rest) := by
      simpa using hread m false
    exact hdigits
  | negSucc m =>
    have hdigits : a.read? ('-' :: digitsOf (m + 1) ++ rest) =
        some (.number true (m + 1) 0 none, rest) := by
      simpa using hread (m + 1) true
    have hsign : decide (Int.negSucc m < 0) = true := decide_eq_true (Int.negSucc_lt_zero m)
    rw [hsign]
    exact hdigits

/-! ## Words are read as they were written -/

/-- A word of ASCII letters is read up to its end. -/
theorem readWord?_append (word : List Char) (hword : word.all Char.isAlpha = true)
    (hrest : a.endsWord rest = true) :
    a.readWord? (word ++ rest) = (keyword? (word.map Char.toLower)).map (·, rest) := by
  have hchars : ∀ c ∈ word, a.isWordChar c = true :=
    fun c hc => isWordChar_of_isAlpha (List.all_eq_true.1 hword c hc)
  obtain ⟨htake, hdrop⟩ := span_append hchars (isWordChar_of_endsWord hrest)
  rw [readWord?, htake, hdrop]

end Alphabet

/-! ## Values are read as they were written -/

open Alphabet in
/-- The literal of a value is read as what the value denotes, and nothing of what follows with
it. -/
theorem Value.read?_literal {a : Alphabet} (v : Value) {rest : List Char}
    (hrest : v.denoted.EndsBefore a rest) :
    a.read? (v.literal.toList ++ rest) = some (v.denoted, rest) := by
  have hnull : a.endsWord rest = true → a.read? ("null".toList ++ rest) = some (.null, rest) :=
    fun h => readWord?_append "null".toList rfl h
  have htext : ∀ s : String, Alphabet.goesOn? rest = none →
      a.read? ((quotedLiteral s).toList ++ rest) = some (.text s.toList, rest) := by
    intro s h
    have hread := readText?_doubledQuotes h s.toList
    simp [quotedLiteral, read?, hread]
  cases v with
  | null => exact hnull hrest
  | integer n =>
    rw [literal, int64Text, String.toList_ofList]
    exact read?_intText n.toInt hrest.1 hrest.2
  | float x =>
    rw [denoted] at hrest ⊢
    rw [literal, finiteFloat, Layout.write]
    cases hx : Binary.ofFloat x with
    | nan =>
      rw [hx] at hrest
      exact hnull hrest
    | infinite negative =>
      rw [hx] at hrest
      exact hnull hrest
    | finite negative mantissa exponent =>
      rw [hx] at hrest
      rw [Binary.isFinite, if_pos rfl, String.toList_ofList]
      exact read?_signed _ negative hrest.1 hrest.2
  | text s => exact htext s hrest
  | boolean b =>
    cases b with
    | false => exact readWord?_append "false".toList rfl hrest
    | true => exact readWord?_append "true".toList rfl hrest
  | timestamp t => exact htext t.text hrest
  | json j => exact htext j.compact hrest

/-- Distinct texts have distinct literals. -/
theorem Value.eq_of_literal_eq {s t : String}
    (h : (Value.text s).literal = (Value.text t).literal) : s = t := by
  have hread : ∀ u : String,
      Alphabet.plain.read? ((Value.text u).literal.toList ++ []) = some (.text u.toList, []) :=
    fun u => Value.read?_literal (.text u) rfl
  have hboth := (hread s).symm.trans (h ▸ hread t)
  exact String.toList_inj.1 (by simpa using hboth)

end EntitySql
