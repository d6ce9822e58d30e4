import EntitySql.Proofs.Characters
import EntitySql.Proofs.Awaited

/-!
# The tokens of raw filters

A raw filter binds values and writes tokens for them, in any order: a value
whose token is not written is not sent, and one whose token is written twice
is sent twice. The text is written first and cut at its marks afterwards, so
this is a fact about cutting what was put together.

- `RawPart.binds`, `RawPart.sends`: the values that a step binds, and those whose
  tokens it writes.
- `RawPart.IsMarkFree`: a step that writes no marks of its own.
- `RawPart.values_template`: the values that are sent for a raw filter.
-/

namespace EntitySql

/-- A text without the control character that marks tokens. -/
def MarkFree (s : String) : Prop := rawMark ∉ s.toList

namespace RawPart

/-- The values that a step binds. -/
def binds : RawPart → List Value
  | .param v | .bind v => [v]
  | _ => []

/-- The values whose tokens a step writes; `bound` are all values of the filter. -/
def sends (bound : List Value) : RawPart → List Value
  | .param v => [v]
  | .reuse index => bound[index]?.toList
  | _ => []

/-- The text that a step writes has no marks of its own. -/
def IsMarkFree (names : EntityNames) : RawPart → Prop
  | .text s => MarkFree s
  | .column key => ∀ column, names.columnOf key = .ok column → MarkFree column
  | .table => MarkFree names.table
  | _ => True

end RawPart

/-! ## Tokens in a text -/

/-- A text, or the number of a value whose token is written. -/
abbrev RawChunk := List Char ⊕ Nat

/-- The characters of texts and tokens. -/
def RawChunk.chars : RawChunk → List Char
  | .inl cs => cs
  | .inr index => (rawToken index).toList

/-- The values of texts and tokens. -/
def RawChunk.values (bound : List Value) : RawChunk → List Value
  | .inl _ => []
  | .inr index => bound[index]?.toList

theorem rawMark_not_mem_toDigits (n : Nat) : rawMark ∉ Nat.toDigits 10 n := by
  intro h
  have hdigit := Nat.isDigit_of_mem_toDigits (by decide) (by decide) h
  exact absurd hdigit (by decide)

/-- The number of a value is read as it was written. -/
theorem readNat?_toDigits (n : Nat) : readNat? (Nat.toDigits 10 n) = some n := by
  have hdigits : ∀ c ∈ Nat.toDigits 10 n, c.isDigit = true :=
    fun c hc => Nat.isDigit_of_mem_toDigits (by decide) (by decide) hc
  have hread : readDigits? (Nat.toDigits 10 n) = some n := by
    have hne : (Nat.toDigits 10 n).isEmpty = false := by
      rw [List.isEmpty_eq_false_iff]
      exact Nat.toDigits_ne_nil
    have hvalue : ofDigits (Nat.toDigits 10 n) = n := Nat.ofDigitChars_ten_toDigits
    rw [readDigits?, hne, List.all_eq_true.2 hdigits, hvalue]
    rfl
  -- a sign before the digits is read too, but digits have none
  unfold readNat?
  split
  · next cs heq =>
    have hplus : Char.isDigit '+' = true := hdigits '+' (heq ▸ List.mem_cons_self)
    exact absurd hplus (by decide)
  · exact hread

/-- A token stands for the value of its number. -/
theorem tokenValue_toDigits {bound : List Value} {n : Nat} {v : Value}
    (h : tokenValue bound (Nat.toDigits 10 n) = .ok v) : bound[n]?.toList = [v] := by
  rw [tokenValue, readNat?_toDigits, Option.bind_some] at h
  cases hv : bound[n]? with
  | none =>
    rw [hv] at h
    cases h
  | some w =>
    rw [hv] at h
    cases h
    rfl

@[simp] theorem values_textPiece (cs : List Char) : (textPiece cs).values = [] := by
  unfold textPiece
  split <;> rfl

/-- A text with tokens is cut into as many parts as give pairs, and its values are those of its
tokens. `start` is the text before the first of them. -/
theorem values_piecesOfParts {bound : List Value} :
    ∀ {chunks : List RawChunk} {start : List Char}, rawMark ∉ start →
      (∀ cs, .inl cs ∈ chunks → rawMark ∉ cs) → ∀ {t : Template},
      piecesOfParts bound (Text.split rawMark (start ++ chunks.flatMap RawChunk.chars)) = .ok t →
      t.values = chunks.flatMap (RawChunk.values bound)
  | [], start, hstart, _, t, h => by
    rw [List.flatMap_nil, List.append_nil, Text.split_eq_singleton hstart] at h
    cases h
    simp
  | .inl cs :: chunks, start, hstart, hchunks, t, h => by
    -- texts gather in `start` until there is a token
    have hfree : rawMark ∉ start ++ cs := by
      simpa [hstart] using hchunks cs List.mem_cons_self
    rw [List.flatMap_cons, RawChunk.chars, ← List.append_assoc] at h
    exact values_piecesOfParts hfree (fun ds hds => hchunks ds (List.mem_cons_of_mem _ hds)) h
  | .inr n :: chunks, start, hstart, hchunks, t, h => by
    -- the marks around the number cut the text twice
    have hchars : start ++ (Sum.inr n :: chunks).flatMap RawChunk.chars =
        start ++ rawMark :: (Nat.toDigits 10 n ++ rawMark ::
          ([] ++ chunks.flatMap RawChunk.chars)) := by
      simp [RawChunk.chars, rawToken]
    rw [hchars, Text.split_append_cons hstart, Text.split_append_cons (rawMark_not_mem_toDigits n),
      piecesOfParts, bind_eq_ok] at h
    obtain ⟨v, hv, h⟩ := h
    rw [bind_eq_ok] at h
    obtain ⟨u, hu, heq⟩ := h
    cases heq
    have hrest := values_piecesOfParts List.not_mem_nil
      (fun ds hds => hchunks ds (List.mem_cons_of_mem _ hds)) hu
    rw [List.flatMap_cons, RawChunk.values, tokenValue_toDigits hv, ← hrest]
    simp [Template.values]

/-! ## What a raw filter writes -/

namespace RawPart

/-- What a step writes, with the number of values bound before it. -/
def chunks (names : EntityNames) (bound : Nat) : RawPart → List RawChunk
  | .text s => [.inl s.toList]
  | .param _ => [.inr bound]
  | .bind _ => []
  | .reuse index => [.inr index]
  | .column key =>
    match names.columnOf key with
    | .ok cs => [.inl cs.toList]
    | .error _ => []
  | .table => [.inl names.table.toList]
  | .wait => []
  | .fail _ => []

/-- What steps write. -/
def allChunks (names : EntityNames) : (bound : Nat) → List RawPart → List RawChunk
  | _, [] => []
  | bound, p :: ps => p.chunks names bound ++ allChunks names (bound + p.binds.length) ps

/-- A step writes its chunks and binds its values. -/
theorem step_eq_ok {names : EntityNames} {r s : RawText} {p : RawPart}
    (h : p.step names r = .ok s) :
    s.text.toList = r.text.toList ++ (p.chunks names r.values.length).flatMap RawChunk.chars ∧
      s.values = r.values ++ p.binds := by
  cases p with
  | text cs =>
    cases h
    simp [RawText.add, chunks, RawChunk.chars, binds]
  | param v =>
    cases h
    simp [chunks, RawChunk.chars, binds]
  | bind v =>
    cases h
    simp [chunks, binds]
  | reuse index =>
    cases h
    simp [RawText.add, chunks, RawChunk.chars, binds]
  | column key =>
    simp only [step, bind_eq_ok, Except.ok.injEq] at h
    obtain ⟨column, hcolumn, rfl⟩ := h
    simp [RawText.add, chunks, hcolumn, RawChunk.chars, binds]
  | table =>
    cases h
    simp [RawText.add, chunks, RawChunk.chars, binds]
  | wait =>
    cases h
    simp [chunks, binds]
  | fail detail => cases h

/-- Steps write their chunks and bind their values, one after the other. -/
theorem foldlM_eq_ok {names : EntityNames} :
    ∀ {parts : List RawPart} {r s : RawText},
      parts.foldlM (fun r p => p.step names r) r = .ok s →
      s.text.toList =
          r.text.toList ++ (allChunks names r.values.length parts).flatMap RawChunk.chars ∧
        s.values = r.values ++ parts.flatMap binds
  | [], r, s, h => by
    cases h
    simp [allChunks]
  | p :: ps, r, s, h => by
    rw [List.foldlM_cons, bind_eq_ok] at h
    obtain ⟨r', hstep, hrest⟩ := h
    obtain ⟨htext, hvalues⟩ := step_eq_ok hstep
    obtain ⟨htext', hvalues'⟩ := foldlM_eq_ok hrest
    have hlength : r'.values.length = r.values.length + p.binds.length := by
      rw [hvalues, List.length_append]
    constructor
    · rw [htext', htext, hlength, allChunks, List.flatMap_append, List.append_assoc]
    · rw [hvalues', hvalues, List.flatMap_cons, List.append_assoc]

/-- Steps without marks of their own write texts without marks. -/
theorem markFree_allChunks {names : EntityNames} :
    ∀ {parts : List RawPart} {bound : Nat}, (∀ p ∈ parts, p.IsMarkFree names) →
      ∀ cs, .inl cs ∈ allChunks names bound parts → rawMark ∉ cs
  | [], bound, _, cs, hcs => by simp [allChunks] at hcs
  | p :: ps, bound, hfree, cs, hcs => by
    rw [allChunks, List.mem_append] at hcs
    rcases hcs with hcs | hcs
    · have hp := hfree p List.mem_cons_self
      -- the other steps write tokens or nothing
      cases p with
      | text s =>
        simp only [chunks, List.mem_singleton, Sum.inl.injEq] at hcs
        rw [hcs]
        exact hp
      | column key =>
        simp only [chunks] at hcs
        split at hcs
        · next cs' hcolumn =>
          simp only [List.mem_singleton, Sum.inl.injEq] at hcs
          rw [hcs]
          exact hp cs' hcolumn
        · cases hcs
      | table =>
        simp only [chunks, List.mem_singleton, Sum.inl.injEq] at hcs
        rw [hcs]
        exact hp
      | param v => simp [chunks] at hcs
      | bind v => simp [chunks] at hcs
      | reuse index => simp [chunks] at hcs
      | wait => simp [chunks] at hcs
      | fail detail => simp [chunks] at hcs
    · exact markFree_allChunks (fun q hq => hfree q (List.mem_cons_of_mem _ hq)) cs hcs

/-- The values of what steps write are those whose tokens they write. `before` are the values
bound earlier. -/
theorem values_allChunks (names : EntityNames) :
    ∀ (parts : List RawPart) (before bound : List Value),
      bound = before ++ parts.flatMap binds →
      (allChunks names before.length parts).flatMap (RawChunk.values bound) =
        parts.flatMap (sends bound)
  | [], _, _, _ => rfl
  | p :: ps, before, bound, hbound => by
    have hbound' : bound = (before ++ p.binds) ++ ps.flatMap binds := by
      rw [hbound, List.flatMap_cons, List.append_assoc]
    have hrest := values_allChunks names ps (before ++ p.binds) bound hbound'
    rw [List.length_append] at hrest
    rw [allChunks, List.flatMap_append, hrest, List.flatMap_cons]
    congr 1
    cases p with
    | text s => rfl
    | param v =>
      -- the value stands right after those that were bound before it
      have hv : bound[before.length]? = some v := by
        rw [hbound]
        simp [binds]
      simp [chunks, RawChunk.values, sends, hv]
    | bind v => rfl
    | reuse index => simp [chunks, RawChunk.values, sends]
    | column key =>
      simp only [chunks, sends]
      split <;> rfl
    | table => rfl
    | wait => rfl
    | fail detail => rfl

/-- The values that are sent for a raw filter are those whose tokens it writes, each as often as
its token is written. -/
theorem values_template {names : EntityNames} {parts : List RawPart} {t : Template}
    (hfree : ∀ p ∈ parts, p.IsMarkFree names) (h : template names parts = .ok t) :
    t.values = parts.flatMap (sends (parts.flatMap binds)) := by
  rw [template, bind_eq_ok] at h
  obtain ⟨r, hwrite, hpieces⟩ := h
  obtain ⟨htext, hvalues⟩ := foldlM_eq_ok hwrite
  have hchars : r.text.toList = [] ++ (allChunks names 0 parts).flatMap RawChunk.chars := htext
  rw [piecesOf] at hpieces
  split at hpieces
  · cases hpieces
  · rw [hchars, hvalues] at hpieces
    rw [values_piecesOfParts List.not_mem_nil (markFree_allChunks hfree) hpieces]
    exact values_allChunks names parts [] _ rfl

end RawPart

end EntitySql
