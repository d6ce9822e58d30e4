import EntitySql.Text.Parts
import Mathlib.Algebra.Order.BigOperators.Group.List
import Mathlib.Algebra.Order.Ring.Nat

/-!
# Cutting and joining texts

Names are cut at dots and raw conditions at marks, and what a cut gives is put
together again. These are the facts that both need: how cuts and joins meet
what is put one after the other, and how many parts there are and how long.

- `Text.split_append_sep`, `Text.join_append`: two texts, two lists of parts.
- `Text.length_split`, `Text.length_join`: the number and the length of parts.
- `Text.not_mem_of_mem_split`: parts have no separator in them.
-/

namespace EntitySql

namespace Text

variable {sep : Char}

/-- A text is cut at a separator wherever it stands. -/
theorem split_append_sep (sep : Char) (a b : List Char) :
    split sep (a ++ sep :: b) = split sep a ++ split sep b := by
  induction a with
  | nil => simp [split]
  | cons c a ih =>
    obtain ⟨p, ps, hsplit⟩ := List.exists_cons_of_ne_nil (split_ne_nil sep a)
    by_cases hc : c = sep
    · simp [split, hc, ih]
    · simp [split, hc, ih, hsplit, consPart]

/-- Two lists of parts, one after the other. -/
theorem join_append : ∀ {ps qs : List (List Char)}, ps ≠ [] → qs ≠ [] →
    join sep (ps ++ qs) = join sep ps ++ sep :: join sep qs
  | [], _, hps, _ => absurd rfl hps
  | [_], [], _, hqs => absurd rfl hqs
  | [_], _ :: _, _, _ => rfl
  | p :: p' :: ps, qs, _, hqs => by
    have ih : join sep (p' :: ps ++ qs) = join sep (p' :: ps) ++ sep :: join sep qs :=
      join_append (List.cons_ne_nil p' ps) hqs
    rw [List.cons_append] at ih
    rw [List.cons_append, List.cons_append, join, ih, join, List.append_assoc, List.cons_append]

/-- Every part takes its own length and a separator, the last one excepted. -/
theorem length_join : ∀ {ps : List (List Char)}, ps ≠ [] →
    (join sep ps).length + 1 = (ps.map (·.length + 1)).sum
  | [], h => absurd rfl h
  | [p], _ => by simp [join]
  | p :: q :: ps, _ => by
    have ih : (join sep (q :: ps)).length + 1 = ((q :: ps).map (·.length + 1)).sum :=
      length_join (List.cons_ne_nil q ps)
    rw [join, List.map_cons, List.sum_cons, ← ih, List.length_append, List.length_cons]
    omega

/-- A list of parts becomes longer if none of them becomes shorter and one becomes longer. -/
theorem length_join_lt {α : Type} {f g : α → List Char} {xs : List α}
    (hle : ∀ x ∈ xs, (f x).length ≤ (g x).length) {x : α} (hx : x ∈ xs)
    (hlt : (f x).length < (g x).length) :
    (join sep (xs.map f)).length < (join sep (xs.map g)).length := by
  have hne : xs ≠ [] := List.ne_nil_of_mem hx
  have htotal : ∀ h : α → List Char,
      (join sep (xs.map h)).length + 1 = (xs.map fun x => (h x).length + 1).sum := by
    intro h
    rw [length_join (by simpa using hne), List.map_map]
    rfl
  have hsum : (xs.map fun x => (f x).length + 1).sum < (xs.map fun x => (g x).length + 1).sum :=
    List.sum_lt_sum _ _ (fun y hy => Nat.succ_le_succ (hle y hy)) ⟨x, hx, Nat.succ_lt_succ hlt⟩
  rw [← htotal, ← htotal] at hsum
  omega

/-- The first part begins with a character where the text does. -/
theorem head?_of_split_eq_cons {c : Char} (hc : c ≠ sep) {cs p : List Char}
    {ps : List (List Char)} (hsplit : split sep cs = p :: ps) :
    p.head? = some c ↔ cs.head? = some c := by
  cases cs with
  | nil =>
    cases hsplit
    rfl
  | cons d cs =>
    obtain ⟨q, qs, hq⟩ := List.exists_cons_of_ne_nil (split_ne_nil sep cs)
    rw [split] at hsplit
    by_cases hd : d = sep
    · rw [if_pos hd] at hsplit
      cases hsplit
      simp [hd, hc.symm]
    · rw [if_neg hd, hq, consPart] at hsplit
      cases hsplit
      simp

/-- Every part but the first begins where a separator stands. -/
theorem forall_mem_tail_split {c : Char} (hc : c ≠ sep) : ∀ cs : List Char,
    (∀ p ∈ (split sep cs).tail, p.head? = some c) ↔
      ∀ before after, cs = before ++ sep :: after → after.head? = some c
  | [] => by simp [split]
  | d :: cs => by
    have ih := forall_mem_tail_split hc cs
    obtain ⟨p, ps, hsplit⟩ := List.exists_cons_of_ne_nil (split_ne_nil sep cs)
    rw [hsplit, List.tail_cons] at ih
    by_cases hd : d = sep
    · rw [split, if_pos hd, List.tail_cons, hsplit, List.forall_mem_cons,
        head?_of_split_eq_cons hc hsplit, ih]
      constructor
      · rintro ⟨hhead, hall⟩ before after hcs
        cases before with
        | nil =>
          cases hcs
          exact hhead
        | cons b before =>
          rw [List.cons_append] at hcs
          exact hall before after (List.cons.inj hcs).2
      · intro hall
        exact ⟨hall [] cs (by rw [hd, List.nil_append]),
          fun before after hcs => hall (d :: before) after (by rw [hcs, List.cons_append])⟩
    · rw [split, if_neg hd, hsplit, consPart, List.tail_cons, ih]
      constructor
      · intro hall before after hcs
        cases before with
        | nil => exact absurd (List.cons.inj hcs).1 hd
        | cons b before =>
          rw [List.cons_append] at hcs
          exact hall before after (List.cons.inj hcs).2
      · exact fun hall before after hcs =>
          hall (d :: before) after (by rw [hcs, List.cons_append])

theorem length_split (cs : List Char) : (split sep cs).length = cs.count sep + 1 := by
  induction cs with
  | nil => rfl
  | cons c cs ih =>
    obtain ⟨p, ps, hsplit⟩ := List.exists_cons_of_ne_nil (split_ne_nil sep cs)
    by_cases hc : c = sep
    · rw [split, if_pos hc, List.length_cons, ih, hc, List.count_cons_self]
    · rw [split, if_neg hc, hsplit, consPart, List.length_cons, List.count_cons_of_ne hc, ← ih,
        hsplit, List.length_cons]

/-- The parts of a text have no separator in them. -/
theorem not_mem_of_mem_split {cs p : List Char} (h : p ∈ split sep cs) :
    sep ∉ p := by
  induction cs generalizing p with
  | nil =>
    rw [split, List.mem_singleton] at h
    exact h ▸ List.not_mem_nil
  | cons c cs ih =>
    obtain ⟨q, qs, hsplit⟩ := List.exists_cons_of_ne_nil (split_ne_nil sep cs)
    rw [hsplit] at ih
    by_cases hc : c = sep
    · rw [split, if_pos hc, hsplit] at h
      rcases List.mem_cons.1 h with rfl | h
      · exact List.not_mem_nil
      · exact ih h
    · rw [split, if_neg hc, hsplit, consPart] at h
      rcases List.mem_cons.1 h with rfl | h
      · simpa [Ne.symm hc] using ih List.mem_cons_self
      · exact ih (List.mem_cons_of_mem q h)

end Text

end EntitySql
