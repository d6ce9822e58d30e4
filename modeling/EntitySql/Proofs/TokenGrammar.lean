import EntitySql.Proofs.Builders
import EntitySql.Proofs.Parts
import EntitySql.Proofs.RawText

/-!
# The grammar of raw text

A raw filter hands over one text, in which marks tell the tokens of its values
from SQL. Nothing keeps it from writing marks of its own, so the text may be
any text; what is a token is settled by its grammar alone, texts and tokens in
turn.

- `RawToken`: a token with the text after it.
- `piecesOf_eq_ok_iff`: a text has pieces exactly if it is a text followed by
  tokens, and the pieces are these.
- `exists_piecesOf_iff`: when a text has pieces, told by its marks.
- `RawPart.exists_piecesOf_write`: what a raw filter writes comes back.
- `Builder.ownValues_of_steps`: each raw filter has its own values only.
- `piecesOf_follows_grammar`: all of this.
-/

namespace EntitySql

/-- A token for a value, with the text up to the next token. -/
structure RawToken where
  /-- What stands between the marks. -/
  number : List Char
  value : Value
  /-- What stands after them. -/
  text : List Char

namespace RawToken

/-- The characters of a token and of the text after it. -/
def chars (k : RawToken) : List Char := rawMark :: k.number ++ rawMark :: k.text

/-- The parts that the marks of a token cut off. -/
def parts (k : RawToken) : List (List Char) := [k.number, k.text]

/-- The pieces of a token and of the text after it. -/
def pieces (k : RawToken) : Template := .param k.value :: textPiece k.text

/-- The token has the number of one of the values, and no other token is in the text after it. -/
structure IsFor (values : List Value) (k : RawToken) : Prop where
  stands : ∃ n, readNat? k.number = some n ∧ values[n]? = some k.value
  markFree : rawMark ∉ k.text

end RawToken

/-! ## Numbers of values -/

/-- Digits with a sign or without are no marks. -/
theorem rawMark_not_mem_of_readNat? {cs : List Char} {n : Nat} (h : readNat? cs = some n) :
    rawMark ∉ cs := by
  have hdigits : ∀ {ds : List Char}, readDigits? ds = some n → rawMark ∉ ds := by
    intro ds h hmark
    rw [readDigits?] at h
    split at h
    · next hall =>
      simp only [Bool.and_eq_true, List.all_eq_true] at hall
      exact absurd (hall.2 rawMark hmark) (by decide)
    · cases h
  unfold readNat? at h
  split at h
  · intro hmark
    rcases List.mem_cons.1 hmark with hmark | hmark
    · exact absurd hmark (by decide)
    · exact hdigits h hmark
  · exact hdigits h

/-- A token has a value exactly if it is the number of this value. -/
theorem tokenValue_eq_ok_iff {values : List Value} {part : List Char} {v : Value} :
    tokenValue values part = .ok v ↔ ∃ n, readNat? part = some n ∧ values[n]? = some v := by
  rw [tokenValue]
  cases readNat? part with
  | none => simp
  | some n =>
    rw [Option.bind_some]
    cases hv : values[n]? <;> simp [hv]

/-! ## Texts and tokens in turn -/

/-- A text without marks and tokens after it are cut into just these. -/
theorem split_start_tokens {start : List Char} (hstart : rawMark ∉ start) {values : List Value} :
    ∀ {tokens : List RawToken}, (∀ k ∈ tokens, k.IsFor values) →
      Text.split rawMark (start ++ tokens.flatMap RawToken.chars) =
        start :: tokens.flatMap RawToken.parts
  | [], _ => by rw [List.flatMap_nil, List.append_nil, Text.split_eq_singleton hstart]; rfl
  | k :: tokens, hfor => by
    obtain ⟨⟨n, hread, -⟩, hfree⟩ := hfor k List.mem_cons_self
    have hchars : start ++ (k :: tokens).flatMap RawToken.chars =
        start ++ rawMark :: (k.number ++ rawMark :: (k.text ++ tokens.flatMap RawToken.chars)) := by
      simp [RawToken.chars]
    rw [hchars, Text.split_append_cons hstart,
      Text.split_append_cons (rawMark_not_mem_of_readNat? hread),
      split_start_tokens hfree fun k hk => hfor k (List.mem_cons_of_mem _ hk)]
    rfl

/-- The pieces of a text and tokens. -/
theorem piecesOfParts_start_tokens {values : List Value} (start : List Char) :
    ∀ {tokens : List RawToken}, (∀ k ∈ tokens, k.IsFor values) →
      piecesOfParts values (start :: tokens.flatMap RawToken.parts) =
        .ok (textPiece start ++ tokens.flatMap RawToken.pieces)
  | [], _ => by rw [List.flatMap_nil, List.flatMap_nil, List.append_nil]; rfl
  | k :: tokens, hfor => by
    have hvalue : tokenValue values k.number = .ok k.value :=
      tokenValue_eq_ok_iff.2 (hfor k List.mem_cons_self).stands
    have hrest := piecesOfParts_start_tokens k.text fun k hk => hfor k (List.mem_cons_of_mem _ hk)
    have hparts : (k :: tokens).flatMap RawToken.parts =
        k.number :: k.text :: tokens.flatMap RawToken.parts := rfl
    rw [hparts, piecesOfParts, hvalue, ok_bind, hrest]
    rfl

/-- Parts that have pieces are a text and tokens. -/
theorem exists_tokens_of_piecesOfParts {values : List Value} :
    ∀ {parts : List (List Char)} {t : Template}, parts.length % 2 = 1 →
      (∀ p ∈ parts, rawMark ∉ p) → piecesOfParts values parts = .ok t →
      ∃ (start : List Char) (tokens : List RawToken), rawMark ∉ start ∧
        (∀ k ∈ tokens, k.IsFor values) ∧
        parts = start :: tokens.flatMap RawToken.parts
  | [], _, hodd, _, _ => by cases hodd
  | [part], _, _, hfree, _ => ⟨part, [], hfree part List.mem_cons_self, by simp, rfl⟩
  | part :: number :: rest, t, hodd, hfree, h => by
    rw [piecesOfParts, bind_eq_ok] at h
    obtain ⟨v, hv, h⟩ := h
    obtain ⟨u, hu, -⟩ := bind_eq_ok.1 h
    have hodd' : rest.length % 2 = 1 := by
      rw [List.length_cons, List.length_cons] at hodd
      omega
    obtain ⟨text, tokens, htext, htokens, hrest⟩ := exists_tokens_of_piecesOfParts hodd'
      (fun p hp => hfree p (List.mem_cons_of_mem _ (List.mem_cons_of_mem _ hp))) hu
    refine ⟨part, ⟨number, v, text⟩ :: tokens, hfree part List.mem_cons_self, ?_, ?_⟩
    · exact List.forall_mem_cons.2 ⟨⟨tokenValue_eq_ok_iff.1 hv, htext⟩, htokens⟩
    · rw [hrest]
      rfl

theorem piecesOf_of_odd {r : RawText} (h : (Text.split rawMark r.text.toList).length % 2 = 1) :
    piecesOf r = piecesOfParts r.values (Text.split rawMark r.text.toList) := by
  rw [piecesOf]
  exact if_neg (by omega)

theorem odd_of_piecesOf {r : RawText} {t : Template} (h : piecesOf r = .ok t) :
    (Text.split rawMark r.text.toList).length % 2 = 1 := by
  rw [piecesOf] at h
  split at h
  · cases h
  · next hodd => omega

theorem length_flatMap_parts (tokens : List RawToken) :
    (tokens.flatMap RawToken.parts).length = 2 * tokens.length := by
  induction tokens with
  | nil => rfl
  | cons k tokens ih =>
    rw [List.flatMap_cons, List.length_append, ih, RawToken.parts, List.length_cons]
    simp only [List.length_cons, List.length_nil]
    omega

/-- A text has pieces exactly if it is a text without marks with tokens after it, and the pieces
are this text and these tokens. -/
theorem piecesOf_eq_ok_iff {r : RawText} {t : Template} :
    piecesOf r = .ok t ↔ ∃ (start : List Char) (tokens : List RawToken), rawMark ∉ start ∧
      (∀ k ∈ tokens, k.IsFor r.values) ∧
      r.text.toList = start ++ tokens.flatMap RawToken.chars ∧
      t = textPiece start ++ tokens.flatMap RawToken.pieces := by
  constructor
  · intro h
    have hodd := odd_of_piecesOf h
    rw [piecesOf_of_odd hodd] at h
    obtain ⟨start, tokens, hstart, htokens, hparts⟩ := exists_tokens_of_piecesOfParts hodd
      (fun p hp => Text.not_mem_of_mem_split hp) h
    refine ⟨start, tokens, hstart, htokens, ?_, ?_⟩
    · rw [← Text.join_split rawMark r.text.toList, hparts, ← split_start_tokens hstart htokens,
        Text.join_split]
    · rw [hparts, piecesOfParts_start_tokens start htokens] at h
      exact (Except.ok.inj h).symm
  · rintro ⟨start, tokens, hstart, htokens, htext, rfl⟩
    have hsplit := split_start_tokens hstart htokens
    rw [← htext] at hsplit
    have hodd : (Text.split rawMark r.text.toList).length % 2 = 1 := by
      rw [hsplit, List.length_cons, length_flatMap_parts]
      omega
    rw [piecesOf_of_odd hodd, hsplit, piecesOfParts_start_tokens start htokens]

/-! ## Told by the marks -/

/-- A part with a separator on either side stands where the text before it has as many parts as
separators, and one more. -/
theorem Text.exists_getElem?_split {sep : Char} {cs p : List Char} {k : Nat}
    (hlast : k + 2 < (split sep cs).length) : (split sep cs)[k + 1]? = some p ↔
      ∃ before after, cs = before ++ sep :: (p ++ sep :: after) ∧ before.count sep = k ∧
        sep ∉ p := by
  constructor
  · intro hp
    have hfree : ∀ p ∈ split sep cs, sep ∉ p := fun p hp => not_mem_of_mem_split hp
    obtain ⟨hlt, hget⟩ := List.getElem?_eq_some_iff.1 hp
    have hcut : split sep cs =
        (split sep cs).take (k + 1) ++ p :: (split sep cs).drop (k + 2) := by
      rw [← hget, List.getElem_cons_drop, List.take_append_drop]
    have hbefore : (split sep cs).take (k + 1) ≠ [] := by
      rw [Ne, List.take_eq_nil_iff]
      exact fun h => h.elim (fun h => nomatch h) (split_ne_nil sep cs)
    have hafter : (split sep cs).drop (k + 2) ≠ [] := by
      rw [Ne, List.drop_eq_nil_iff]
      omega
    have hpart : join sep ([p] ++ (split sep cs).drop (k + 2)) =
        p ++ sep :: join sep ((split sep cs).drop (k + 2)) := by
      rw [join_append (List.cons_ne_nil _ _) hafter, join]
    refine ⟨join sep ((split sep cs).take (k + 1)), join sep ((split sep cs).drop (k + 2)),
      ?_, ?_, hfree p (List.mem_of_getElem? hp)⟩
    · have hwhole : join sep ((split sep cs).take (k + 1) ++ ([p] ++ (split sep cs).drop (k + 2))) =
          join sep (split sep cs) := congrArg (join sep) hcut.symm
      rw [← hpart, ← join_append hbefore (by simp), hwhole, join_split]
    · have hsplit := split_join hbefore fun q hq => hfree q (List.mem_of_mem_take hq)
      have hcount : (split sep (join sep ((split sep cs).take (k + 1)))).length = _ :=
        length_split _
      rw [hsplit, List.length_take] at hcount
      omega
  · rintro ⟨before, after, rfl, rfl, hp⟩
    rw [split_append_sep, split_append_sep, split_eq_singleton hp, ← length_split,
      List.getElem?_append_right (Nat.le_refl _), Nat.sub_self]
    rfl

/-- A text has pieces exactly if its marks come in pairs and the number of a value stands between
the marks of every pair. Between the marks of a pair stands what has an even number of marks before
it and no mark in it. -/
theorem exists_piecesOf_iff {r : RawText} : (∃ t, piecesOf r = .ok t) ↔
    r.text.toList.count rawMark % 2 = 0 ∧
      ∀ before number after,
        r.text.toList = before ++ rawMark :: (number ++ rawMark :: after) →
        before.count rawMark % 2 = 0 → rawMark ∉ number →
          ∃ n, readNat? number = some n ∧ n < r.values.length := by
  have hlength : (Text.split rawMark r.text.toList).length = r.text.toList.count rawMark + 1 :=
    Text.length_split _
  by_cases hpairs : r.text.toList.count rawMark % 2 = 0
  · have hodd : (Text.split rawMark r.text.toList).length % 2 = 1 := by omega
    rw [piecesOf_of_odd hodd, ← fault?_eq_none, fault_piecesOfParts, and_iff_right hpairs]
    constructor
    · intro h before number after htext heven hfree
      refine h (before.count rawMark / 2) number ?_
      have hcount : r.text.toList.count rawMark =
          before.count rawMark + 2 + after.count rawMark := by
        rw [htext]
        simp only [List.count_append, List.count_cons_self, List.count_eq_zero.2 hfree]
        omega
      exact (Text.exists_getElem?_split (by omega)).2 ⟨before, after, htext, by omega, hfree⟩
    · intro h i number hnumber
      have hlt := (List.getElem?_eq_some_iff.1 hnumber).1
      obtain ⟨before, after, htext, hcount, hfree⟩ :=
        (Text.exists_getElem?_split (by omega)).1 hnumber
      exact h before number after htext (by omega) hfree
  · refine iff_of_false ?_ fun h => hpairs h.1
    rintro ⟨t, h⟩
    have hodd := odd_of_piecesOf h
    omega

/-! ## What a raw filter writes comes back -/

/-- The characters of a text, or the value of a token. -/
def RawChunk.flat (bound : List Value) : RawChunk → List (Char ⊕ Value)
  | .inl cs => cs.map .inl
  | .inr n => bound[n]?.toList.map .inr

@[simp] theorem flat_textPiece (cs : List Char) : (textPiece cs).flat = cs.map .inl := by
  cases cs with
  | nil => rfl
  | cons c cs => simp [textPiece, Template.flat]

/-- Texts and tokens in any order are a text with tokens after it, if neighbouring texts are taken
as one. -/
theorem exists_tokens_of_chunks {bound : List Value} :
    ∀ {chunks : List RawChunk} {start : List Char}, rawMark ∉ start →
      (∀ cs, .inl cs ∈ chunks → rawMark ∉ cs) → (∀ n, .inr n ∈ chunks → n < bound.length) →
      ∃ (start' : List Char) (tokens : List RawToken), rawMark ∉ start' ∧
        (∀ k ∈ tokens, k.IsFor bound) ∧
        start ++ chunks.flatMap RawChunk.chars = start' ++ tokens.flatMap RawToken.chars ∧
        (textPiece start' ++ tokens.flatMap RawToken.pieces).flat =
          start.map .inl ++ chunks.flatMap (RawChunk.flat bound)
  | [], start, hstart, _, _ => ⟨start, [], hstart, by simp, rfl, by simp⟩
  | .inl cs :: chunks, start, hstart, hfree, hbound => by
    have hstart' : rawMark ∉ start ++ cs := by
      simpa [hstart] using hfree cs List.mem_cons_self
    obtain ⟨start', tokens, hfree', htokens, hchars, hflat⟩ := exists_tokens_of_chunks hstart'
      (fun ds hds => hfree ds (List.mem_cons_of_mem _ hds))
      (fun n hn => hbound n (List.mem_cons_of_mem _ hn))
    refine ⟨start', tokens, hfree', htokens, ?_, ?_⟩
    · rw [← hchars, List.flatMap_cons, RawChunk.chars, List.append_assoc]
    · rw [hflat, List.flatMap_cons, RawChunk.flat, List.map_append, List.append_assoc]
  | .inr n :: chunks, start, hstart, hfree, hbound => by
    have hn : n < bound.length := hbound n List.mem_cons_self
    obtain ⟨text, tokens, hfree', htokens, hchars, hflat⟩ :=
      exists_tokens_of_chunks List.not_mem_nil
        (fun ds hds => hfree ds (List.mem_cons_of_mem _ hds))
        (fun n hn => hbound n (List.mem_cons_of_mem _ hn))
    refine ⟨start, ⟨Nat.toDigits 10 n, bound[n], text⟩ :: tokens, hstart, ?_, ?_, ?_⟩
    · exact List.forall_mem_cons.2
        ⟨⟨⟨n, readNat?_toDigits n, List.getElem?_eq_getElem hn⟩, hfree'⟩, htokens⟩
    · rw [List.nil_append] at hchars
      simp [hchars, RawChunk.chars, RawToken.chars, rawToken]
    · rw [List.map_nil, List.nil_append] at hflat
      rw [List.flatMap_cons, List.flatMap_cons, ← hflat]
      simp [RawToken.pieces, RawChunk.flat, Template.flat, List.getElem?_eq_getElem hn]

namespace RawPart

/-- What a step writes: the characters of a text, or the value of a token. -/
def flat (names : EntityNames) (bound : List Value) : RawPart → List (Char ⊕ Value)
  | .text s => s.toList.map .inl
  | .param v => [.inr v]
  | .bind _ => []
  | .reuse index => bound[index]?.toList.map .inr
  | .column key =>
    match names.columnOf key with
    | .ok cs => cs.toList.map .inl
    | .error _ => []
  | .table => names.table.toList.map .inl
  | .wait => []
  | .fail _ => []

/-- Tokens are written for values that are bound. -/
theorem lt_length_of_mem_allChunks {names : EntityNames} {n : Nat} :
    ∀ {parts : List RawPart} {before : List Value}, .inr n ∈ allChunks names before.length parts →
      .reuse n ∈ parts ∨ n < (before ++ parts.flatMap binds).length
  | [], _, h => by simp [allChunks] at h
  | p :: ps, before, h => by
    rw [allChunks, List.mem_append] at h
    rcases h with h | h
    · cases p with
      | param v =>
        have hn : n = before.length := by simpa [chunks] using h
        right
        simp [binds, hn]
      | reuse index =>
        have hn : n = index := by simpa [chunks] using h
        rw [hn]
        exact .inl List.mem_cons_self
      | column key =>
        simp only [chunks] at h
        split at h <;> simp at h
      | text s => simp [chunks] at h
      | bind v => simp [chunks] at h
      | table => simp [chunks] at h
      | wait => simp [chunks] at h
      | fail detail => simp [chunks] at h
    · rw [← List.length_append] at h
      rcases lt_length_of_mem_allChunks h with h | h
      · exact .inl (List.mem_cons_of_mem _ h)
      · rw [List.append_assoc] at h
        exact .inr h

theorem flat_allChunks (names : EntityNames) :
    ∀ (parts : List RawPart) (before bound : List Value),
      bound = before ++ parts.flatMap binds →
      (allChunks names before.length parts).flatMap (RawChunk.flat bound) =
        parts.flatMap (flat names bound)
  | [], _, _, _ => rfl
  | p :: ps, before, bound, hbound => by
    have hbound' : bound = (before ++ p.binds) ++ ps.flatMap binds := by
      rw [hbound, List.flatMap_cons, List.append_assoc]
    have hrest := flat_allChunks names ps (before ++ p.binds) bound hbound'
    rw [List.length_append] at hrest
    rw [allChunks, List.flatMap_append, hrest, List.flatMap_cons]
    congr 1
    cases p with
    | text s => simp [chunks, RawChunk.flat, flat]
    | param v =>
      have hv : bound[before.length]? = some v := by
        rw [hbound]
        simp [binds]
      simp [chunks, RawChunk.flat, flat, hv]
    | bind v => rfl
    | reuse index => simp [chunks, RawChunk.flat, flat]
    | column key =>
      cases hcolumn : names.columnOf key <;> simp [chunks, flat, hcolumn, RawChunk.flat]
    | table => simp [chunks, RawChunk.flat, flat]
    | wait => rfl
    | fail detail => rfl

/-- What a raw filter writes comes back in its order, if it writes no marks of its own and tokens
for its own values only. -/
theorem exists_piecesOf_write {names : EntityNames} {parts : List RawPart} {r : RawText}
    (hwrite : write names parts = .ok r) (hfree : ∀ p ∈ parts, p.IsMarkFree names)
    (hbound : ∀ index, .reuse index ∈ parts → index < r.values.length) :
    ∃ t, piecesOf r = .ok t ∧ t.flat = parts.flatMap (flat names r.values) := by
  obtain ⟨htext, hvalues⟩ := foldlM_eq_ok hwrite
  have hvalues' : r.values = parts.flatMap binds := hvalues
  have hinside : ∀ n, .inr n ∈ allChunks names 0 parts → n < r.values.length := by
    intro n hn
    have hn' : .inr n ∈ allChunks names ([] : List Value).length parts := hn
    rcases lt_length_of_mem_allChunks hn' with h | h
    · exact hbound n h
    · rwa [hvalues']
  obtain ⟨start, tokens, hstart, htokens, hchars, hflat⟩ :=
    exists_tokens_of_chunks List.not_mem_nil (markFree_allChunks hfree) hinside
  refine ⟨_, piecesOf_eq_ok_iff.2 ⟨start, tokens, hstart, htokens, ?_, rfl⟩, ?_⟩
  · rw [← hchars]
    exact htext
  · rw [hflat]
    exact flat_allChunks names parts [] r.values hvalues'

end RawPart

/-! ## Values of one raw filter -/

/-- The values of tokens, with the texts after them. -/
theorem values_flatMap_pieces (tokens : List RawToken) :
    Template.values (tokens.flatMap RawToken.pieces) = tokens.map RawToken.value := by
  induction tokens with
  | nil => rfl
  | cons k tokens ih =>
    rw [List.flatMap_cons, Template.values_append, ih, RawToken.pieces, Template.values,
      values_textPiece, List.singleton_append, List.map_cons]

/-- The pieces of a text have values of its own filter only. -/
theorem mem_values_of_piecesOf {r : RawText} {t : Template} (h : piecesOf r = .ok t) {v : Value}
    (hv : v ∈ t.values) : v ∈ r.values := by
  obtain ⟨start, tokens, -, htokens, -, rfl⟩ := piecesOf_eq_ok_iff.1 h
  rw [Template.values_append, values_textPiece, List.nil_append, values_flatMap_pieces] at hv
  obtain ⟨k, hk, rfl⟩ := List.mem_map.1 hv
  obtain ⟨n, -, hvalue⟩ := (htokens k hk).stands
  exact List.mem_of_getElem? hvalue

/-- Whatever the order in which raw filters at work are polled, each template has the values of a
text of its own filter only. -/
theorem Builder.ownValues_of_steps {W : Type} {build : Builder W} {rs : List (List RawPart)}
    {slots : List (Slot build.Work)} {w w' : W}
    (h : build.Steps (build.slots rs, w) (slots, w')) :
    List.Forall₂ (fun parts slot => ∀ t, slot = .finished (.ok t) →
      ∃ s, build.Writes parts s ∧ piecesOf s = .ok t ∧ ∀ v ∈ t.values, v ∈ s.values) rs slots := by
  refine (writes_of_steps h).imp ?_
  rintro parts _ hkeeps t rfl
  obtain ⟨s, hwrites, hpieces⟩ := hkeeps
  exact ⟨s, hwrites, hpieces, fun _ hv => mem_values_of_piecesOf hpieces hv⟩

/-- A text with tokens is cut by its grammar. It has pieces exactly if its marks come in pairs with
the number of a value between them, and then the pieces are the texts outside the pairs, without
the empty ones, and the values of the numbers, in the order of the text. What steps write for a raw
filter comes back as the texts and values of these steps, and no raw filter has values of another
one. -/
theorem piecesOf_follows_grammar (r : RawText) :
    ((∃ t, piecesOf r = .ok t) ↔
      r.text.toList.count rawMark % 2 = 0 ∧
        ∀ before number after,
          r.text.toList = before ++ rawMark :: (number ++ rawMark :: after) →
          before.count rawMark % 2 = 0 → rawMark ∉ number →
            ∃ n, readNat? number = some n ∧ n < r.values.length) ∧
    (∀ t, piecesOf r = .ok t ↔ ∃ (start : List Char) (tokens : List RawToken),
      rawMark ∉ start ∧ (∀ k ∈ tokens, k.IsFor r.values) ∧
        r.text.toList = start ++ tokens.flatMap RawToken.chars ∧
        t = textPiece start ++ tokens.flatMap RawToken.pieces) ∧
    (∀ (names : EntityNames) (parts : List RawPart), RawPart.write names parts = .ok r →
      (∀ p ∈ parts, p.IsMarkFree names) →
      (∀ index, .reuse index ∈ parts → index < r.values.length) →
        ∃ t, piecesOf r = .ok t ∧ t.flat = parts.flatMap (RawPart.flat names r.values)) ∧
    ∀ (W : Type) (build : Builder W) (rs : List (List RawPart)) (w w' : W)
      (slots : List (Slot build.Work)), build.Steps (build.slots rs, w) (slots, w') →
        List.Forall₂ (fun parts slot => ∀ t, slot = .finished (.ok t) →
          ∃ s, build.Writes parts s ∧ piecesOf s = .ok t ∧ ∀ v ∈ t.values, v ∈ s.values) rs slots :=
  ⟨exists_piecesOf_iff, fun _ => piecesOf_eq_ok_iff,
    fun _ _ => RawPart.exists_piecesOf_write, fun _ _ _ _ _ _ => Builder.ownValues_of_steps⟩

end EntitySql
