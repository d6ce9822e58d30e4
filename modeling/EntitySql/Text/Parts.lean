/-!
# Texts as parts between separators

Names are written as parts between dots, and a raw condition marks its
parameters with a control character. Both are read by cutting a text at every
occurrence of one character; a text with `n` occurrences has `n + 1` parts,
some of them perhaps empty.

- `Text.split`: the parts of a text.
- `Text.join`: parts written one after the other with a separator between.
- `join_split`, `split_join`: the two undo each other.
-/

namespace EntitySql.Text

/-- Puts a character in front of the first part. -/
def consPart (c : Char) : List (List Char) → List (List Char)
  | [] => [[c]]
  | p :: ps => (c :: p) :: ps

/-- The parts of a text between the occurrences of `sep`; never an empty list. -/
def split (sep : Char) : List Char → List (List Char)
  | [] => [[]]
  | c :: cs => if c = sep then [] :: split sep cs else consPart c (split sep cs)

/-- Parts written one after the other with `sep` between. -/
def join (sep : Char) : List (List Char) → List Char
  | [] => []
  | [p] => p
  | p :: q :: ps => p ++ sep :: join sep (q :: ps)

theorem split_ne_nil (sep : Char) (cs : List Char) : split sep cs ≠ [] := by
  cases cs with
  | nil => simp [split]
  | cons c cs =>
    simp only [split]
    split
    · simp
    · cases split sep cs <;> simp [consPart]

theorem join_consPart (sep c : Char) {ps : List (List Char)} (h : ps ≠ []) :
    join sep (consPart c ps) = c :: join sep ps := by
  match ps, h with
  | [p], _ => rfl
  | p :: q :: ps, _ => simp [consPart, join]

theorem join_cons_nil (sep : Char) {ps : List (List Char)} (h : ps ≠ []) :
    join sep ([] :: ps) = sep :: join sep ps := by
  match ps, h with
  | p :: ps, _ => simp [join]

/-- Cutting a text loses nothing. -/
theorem join_split (sep : Char) (cs : List Char) : join sep (split sep cs) = cs := by
  induction cs with
  | nil => rfl
  | cons c cs ih =>
    simp only [split]
    split
    · next h => rw [join_cons_nil sep (split_ne_nil sep cs), ih, h]
    · rw [join_consPart sep c (split_ne_nil sep cs), ih]

theorem split_append_cons {sep : Char} {p : List Char} (h : sep ∉ p) (cs : List Char) :
    split sep (p ++ sep :: cs) = p :: split sep cs := by
  induction p with
  | nil => simp [split]
  | cons c p ih =>
    simp only [List.mem_cons, not_or] at h
    simp [split, Ne.symm h.1, ih h.2, consPart]

theorem split_eq_singleton {sep : Char} {p : List Char} (h : sep ∉ p) : split sep p = [p] := by
  induction p with
  | nil => rfl
  | cons c p ih =>
    simp only [List.mem_cons, not_or] at h
    simp [split, Ne.symm h.1, ih h.2, consPart]

/-- Parts free of the separator come back from the text they were joined to. -/
theorem split_join {sep : Char} :
    ∀ {ps : List (List Char)}, ps ≠ [] → (∀ p ∈ ps, sep ∉ p) → split sep (join sep ps) = ps
  | [], hne, _ => absurd rfl hne
  | [p], _, h => by simpa [join] using split_eq_singleton (h p (by simp))
  | p :: q :: ps, _, h => by
    rw [join, split_append_cons (h p (by simp)),
      split_join (by simp) fun r hr => h r (by simp [List.mem_cons.1 hr])]

end EntitySql.Text
