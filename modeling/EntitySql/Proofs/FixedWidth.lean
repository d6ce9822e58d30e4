import EntitySql.Instant.Text
import EntitySql.Proofs.SqlLiterals
import Mathlib.Algebra.Group.Nat.Defs

/-!
# Numbers of a fixed width

A number that is written with zeros in front, up to a fixed number of digits, is
read back as it was written, whatever comes after it. Of two texts that begin
with such numbers of one width, the one with the lesser number comes first; the
rest of the texts decides where the numbers agree.

- `digits_append_lt_iff`: rows of digits of one length stand in the order of
  their numbers.
- `Instant.takeNumber_padded`, `Instant.takeFraction_padded`: reading what was written.
- `Instant.padded_append_lt_iff`: the order of texts that begin with such numbers.
-/

namespace EntitySql

/-! ## Digits -/

theorem toNat_bounds_of_isDigit {c : Char} (h : c.isDigit = true) :
    48 ≤ c.val.toNat ∧ c.val.toNat ≤ 57 :=
  Char.isDigit_iff_toNat.mp h

theorem digitValue_eq (c : Char) : digitValue c = c.val.toNat - 48 := rfl

theorem digitValue_lt_ten {c : Char} (h : c.isDigit = true) : digitValue c < 10 := by
  have := toNat_bounds_of_isDigit h
  rw [digitValue_eq]
  omega

/-- Digits stand in the order of their values. -/
theorem digit_lt_iff {c d : Char} (hc : c.isDigit = true) (hd : d.isDigit = true) :
    c < d ↔ digitValue c < digitValue d := by
  have hc := toNat_bounds_of_isDigit hc
  have hd := toNat_bounds_of_isDigit hd
  rw [Char.lt_def, UInt32.lt_iff_toNat_lt, digitValue_eq, digitValue_eq]
  omega

theorem digit_eq_iff {c d : Char} (hc : c.isDigit = true) (hd : d.isDigit = true) :
    c = d ↔ digitValue c = digitValue d := by
  have hc := toNat_bounds_of_isDigit hc
  have hd := toNat_bounds_of_isDigit hd
  rw [Char.ext_iff, ← UInt32.toNat_inj, digitValue_eq, digitValue_eq]
  omega

/-! ## Rows of digits -/

theorem ofDigits_cons (c : Char) (cs : List Char) :
    ofDigits (c :: cs) = digitValue c * 10 ^ cs.length + ofDigits cs := by
  show Nat.ofDigitChars 10 (c :: cs) 0 = digitValue c * 10 ^ cs.length + Nat.ofDigitChars 10 cs 0
  rw [Nat.ofDigitChars_cons, Nat.ofDigitChars_eq_ofDigitChars_zero, Nat.mul_zero, Nat.zero_add,
    Nat.mul_comm]
  rfl

theorem ofDigits_lt_of_isDigit {cs : List Char} (h : ∀ c ∈ cs, c.isDigit = true) :
    ofDigits cs < 10 ^ cs.length := by
  induction cs with
  | nil => exact Nat.one_pos
  | cons c cs ih =>
    have hc := digitValue_lt_ten (h c List.mem_cons_self)
    have hcs := ih fun d hd => h d (List.mem_cons_of_mem _ hd)
    calc ofDigits (c :: cs) = digitValue c * 10 ^ cs.length + ofDigits cs := ofDigits_cons c cs
      _ < digitValue c * 10 ^ cs.length + 10 ^ cs.length := Nat.add_lt_add_left hcs _
      _ = (digitValue c + 1) * 10 ^ cs.length := (Nat.succ_mul _ _).symm
      _ ≤ 10 * 10 ^ cs.length := Nat.mul_le_mul_right _ hc
      _ = 10 ^ (c :: cs).length := (Nat.pow_succ' ..).symm

/-- Numbers of two parts, of which the first counts more than all of the second. -/
theorem mul_add_lt_iff {p a b x y : Nat} (hx : x < p) (hy : y < p) :
    a * p + x < b * p + y ↔ a < b ∨ a = b ∧ x < y := by
  have hstep {m n : Nat} (h : m < n) : m * p + p ≤ n * p := by
    rw [← Nat.succ_mul]
    exact Nat.mul_le_mul_right p h
  rcases Nat.lt_trichotomy a b with h | rfl | h
  · have := hstep h
    omega
  · omega
  · have := hstep h
    omega

theorem mul_add_inj {p a b x y : Nat} (hx : x < p) (hy : y < p) :
    a * p + x = b * p + y ↔ a = b ∧ x = y := by
  have hab := mul_add_lt_iff (a := a) (b := b) hx hy
  have hba := mul_add_lt_iff (a := b) (b := a) hy hx
  constructor
  · intro heq
    omega
  · rintro ⟨rfl, rfl⟩
    rfl

/-- Rows of digits of one length stand in the order of their numbers, and where these agree, of
what comes after them. -/
theorem digits_append_lt_iff {cs ds us vs : List Char} (hcs : ∀ c ∈ cs, c.isDigit = true)
    (hds : ∀ c ∈ ds, c.isDigit = true) (hlength : cs.length = ds.length) :
    cs ++ us < ds ++ vs ↔ ofDigits cs < ofDigits ds ∨ ofDigits cs = ofDigits ds ∧ us < vs := by
  induction cs generalizing ds with
  | nil =>
    obtain rfl : ds = [] := List.length_eq_zero_iff.mp hlength.symm
    simp
  | cons c cs ih =>
    cases ds with
    | nil => simp at hlength
    | cons d ds =>
      obtain ⟨hc, hcs⟩ := List.forall_mem_cons.mp hcs
      obtain ⟨hd, hds⟩ := List.forall_mem_cons.mp hds
      have hlength : cs.length = ds.length := by simpa using hlength
      have hlt := ofDigits_lt_of_isDigit hcs
      have hlt' := ofDigits_lt_of_isDigit hds
      rw [hlength] at hlt
      rw [List.cons_append, List.cons_append, List.cons_lt_cons_iff, ih hcs hds hlength,
        ofDigits_cons, ofDigits_cons, hlength, digit_lt_iff hc hd, digit_eq_iff hc hd,
        mul_add_lt_iff hlt hlt', mul_add_inj hlt hlt', and_or_left, or_assoc, and_assoc]

namespace Instant

/-! ## Numbers with zeros in front -/

variable {width m n : Nat}

theorem isDigit_of_mem_padded {c : Char} (h : c ∈ padded width n) : c.isDigit = true := by
  rcases List.mem_append.mp h with h | h
  · rw [List.eq_of_mem_replicate h]
    rfl
  · exact Nat.isDigit_of_mem_toDigits (by decide) (by decide) h

theorem padded_ne_nil : padded width n ≠ [] := by
  simp [padded, Nat.toDigits_ne_nil]

theorem length_padded (hwidth : 0 < width) (hn : n < 10 ^ width) :
    (padded width n).length = width := by
  have := (Nat.length_toDigits_le_iff (by decide : 1 < 10) hwidth).mpr hn
  simp only [padded, List.length_append, List.length_replicate]
  omega

theorem ofDigits_padded : ofDigits (padded width n) = n :=
  (Alphabet.ofDigits_zeros_append _ _).trans (Alphabet.ofDigits_digitsOf n)

/-- Digits are read as a number, up to the most that are taken or to something else. -/
theorem takeNumber_digits {least most : Nat} {ds rest : List Char}
    (hds : ∀ c ∈ ds, c.isDigit = true) (hne : ds ≠ []) (hleast : least ≤ ds.length)
    (hmost : ds.length ≤ most)
    (hrest : (rest.takeWhile Char.isDigit).take (most - ds.length) = []) :
    takeNumber least most (ds ++ rest) = some (ofDigits ds, rest) := by
  have htake : ((ds ++ rest).takeWhile Char.isDigit).take most = ds := by
    rw [List.takeWhile_append_of_pos hds, List.take_append, hrest, List.append_nil,
      List.take_of_length_le hmost]
  simp [takeNumber, htake, hne, Nat.not_lt.mpr hleast]

theorem trimStart_digits {ds rest : List Char} (hds : ∀ c ∈ ds, c.isDigit = true) (hne : ds ≠ []) :
    Text.trimStart (ds ++ rest) = ds ++ rest := by
  obtain ⟨c, cs, rfl⟩ := List.exists_cons_of_ne_nil hne
  have hc : Text.isBlank c = false := Text.isBlank_of_isDigit (hds c List.mem_cons_self)
  rw [Text.trimStart, List.cons_append, List.dropWhile_cons_of_neg (by simp [hc])]

/-- A number of a fixed width is read as it was written. -/
theorem takeNumber_padded {least : Nat} (rest : List Char) (hwidth : 0 < width)
    (hleast : least ≤ width) (hn : n < 10 ^ width) :
    takeNumber least width (padded width n ++ rest) = some (n, rest) := by
  have hlength := length_padded hwidth hn
  -- what comes after it may begin with digits too, of which none is taken
  have hrest : (rest.takeWhile Char.isDigit).take (width - (padded width n).length) = [] := by
    rw [hlength, Nat.sub_self, List.take_zero]
  rw [takeNumber_digits (fun _ => isDigit_of_mem_padded) padded_ne_nil (hlength.symm ▸ hleast)
    (Nat.le_of_eq hlength) hrest, ofDigits_padded]

/-- A number of two digits is read as a field of the looser form. -/
theorem takeField_padded (rest : List Char) (hn : n < 100) :
    takeField (padded 2 n ++ rest) = some (n, rest) := by
  rw [takeField, trimStart_digits (fun _ => isDigit_of_mem_padded) padded_ne_nil,
    takeNumber_padded rest (by decide) (by decide) hn]

/-- Three digits after a point are read as thousandths. -/
theorem takeFraction_padded {rest : List Char} (hrest : ∀ c ∈ rest.head?, c.isDigit = false)
    (hn : n < 1000) :
    takeFraction ('.' :: (padded 3 n ++ rest)) = some (n * 1000000, rest) := by
  have hlength : (padded 3 n).length = 3 := length_padded (by decide) hn
  have hdigits : ∀ c ∈ padded 3 n, c.isDigit = true := fun _ => isDigit_of_mem_padded
  obtain ⟨htake, hdrop⟩ := Alphabet.span_append hdigits hrest
  have hkept : (padded 3 n).take 9 = padded 3 n := List.take_of_length_le (by omega)
  simp [takeFraction, takeNanos, htake, hdrop, padded_ne_nil, hkept, hlength, ofDigits_padded,
    tenTo]

/-- Texts that begin with numbers of one width stand in the order of the numbers, and where
these agree, of what comes after them. -/
theorem padded_append_lt_iff {us vs : List Char} (hwidth : 0 < width) (hm : m < 10 ^ width)
    (hn : n < 10 ^ width) :
    padded width m ++ us < padded width n ++ vs ↔ m < n ∨ m = n ∧ us < vs := by
  rw [digits_append_lt_iff (fun _ => isDigit_of_mem_padded) (fun _ => isDigit_of_mem_padded)
    ((length_padded hwidth hm).trans (length_padded hwidth hn).symm), ofDigits_padded,
    ofDigits_padded]

end Instant

end EntitySql
