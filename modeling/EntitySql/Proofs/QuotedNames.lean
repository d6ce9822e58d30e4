import EntitySql.Identifier
import EntitySql.Proofs.Parts

/-!
# Names that are quoted already

A name of several parts is written with every part between quotes, and is read
back by a reader that knows where a quoted part ends. A user may quote a part
of a name himself, and such a part is to stand as it is. But names are cut at
every dot, those between quotes included: a quoted part with a dot inside is
kept only where what comes after the dot looks quoted as well.

- `Delimited.read?`: the parts of a name that is written in quoted parts.
- `Delimited.read?_eq_some_iff`: it reads exactly what is written so.
- `NamePart`: the parts of a name as a user writes them.
- `NamePart.DotsMeetQuotes`: parts that are kept.
- `NamePart.wrap_keeps_iff`: a name keeps its parts exactly if all of them are.
-/

namespace EntitySql

/-! ## Reading quoted parts -/

namespace Delimited

/-- Where a reader of quoted parts stands. -/
inductive Place where
  /-- Before the quote that opens a part. -/
  | before
  /-- In a part. -/
  | inside
  /-- After a quote in a part: it closes the part, or is the first one of two. -/
  | quote

/-- The parts that are read from a place on, the one that the place is in first: parts with dots
between, each of them between quotes and every quote in it written twice. -/
def readFrom (q : Char) : Place → List Char → Option (List (List Char))
  | .before, [] => none
  | .before, c :: cs => if c = q then readFrom q .inside cs else none
  | .inside, [] => none
  | .inside, c :: cs =>
    if c = q then readFrom q .quote cs else (readFrom q .inside cs).map (Text.consPart c)
  | .quote, [] => some [[]]
  | .quote, c :: cs =>
    if c = q then (readFrom q .inside cs).map (Text.consPart c)
    else if c = '.' then (readFrom q .before cs).map ([] :: ·)
    else none

/-- The parts of a name that is written in quoted parts. -/
def read? (q : Char) (cs : List Char) : Option (List (List Char)) := readFrom q .before cs

/-- A name written in quoted parts. -/
def write (q : Char) (parts : List (List Char)) : List Char :=
  Text.join '.' (parts.map (delimit q))

variable {q : Char}

/-! ### What is written is read -/

/-- The rest of a part, up to the quote that may close it. -/
theorem readFrom_doubled (part rest : List Char) :
    readFrom q .inside (doubled q part ++ q :: rest) =
      (readFrom q .quote rest).map (part.foldr Text.consPart) := by
  induction part with
  | nil => simp [doubled, readFrom]
  | cons c part ih =>
    have hfold : Text.consPart c ∘ part.foldr Text.consPart =
        (c :: part).foldr Text.consPart := rfl
    by_cases hc : c = q
    · rw [doubled, if_pos hc, List.cons_append, List.cons_append, readFrom, if_pos rfl, readFrom,
        if_pos rfl, ih, Option.map_map, ← hc, hfold]
    · rw [doubled, if_neg hc, List.cons_append, readFrom, if_neg hc, ih, Option.map_map, hfold]

theorem foldr_consPart (part : List Char) (parts : List (List Char)) :
    part.foldr Text.consPart ([] :: parts) = part :: parts := by
  induction part with
  | nil => rfl
  | cons c part ih => rw [List.foldr_cons, ih, Text.consPart]

/-- A part that the text ends with. -/
theorem read?_delimit (part : List Char) : read? q (delimit q part) = some [part] := by
  rw [read?, delimit, List.cons_append, readFrom, if_pos rfl, readFrom_doubled, readFrom,
    Option.map_some, foldr_consPart]

theorem read?_delimit_dot (hq : q ≠ '.') (part cs : List Char) :
    read? q (delimit q part ++ '.' :: cs) = (read? q cs).map (part :: ·) := by
  have hfold : part.foldr Text.consPart ∘ ([] :: ·) = (part :: ·) :=
    funext fun parts => foldr_consPart part parts
  have hcs : delimit q part ++ '.' :: cs = q :: (doubled q part ++ q :: '.' :: cs) := by
    rw [delimit, List.cons_append, List.cons_append, List.append_assoc, List.singleton_append]
  rw [read?, hcs, readFrom, if_pos rfl, readFrom_doubled, readFrom, if_neg hq.symm, if_pos rfl,
    Option.map_map, hfold, read?]

/-- Quoted parts are read back. -/
theorem read?_write (hq : q ≠ '.') : ∀ {parts : List (List Char)}, parts ≠ [] →
    read? q (write q parts) = some parts
  | [], h => absurd rfl h
  | [part], _ => read?_delimit part
  | part :: part' :: parts, _ => by
    have ih := read?_write hq (List.cons_ne_nil part' parts)
    rw [write, List.map_cons, List.map_cons, Text.join, read?_delimit_dot hq]
    rw [write, List.map_cons] at ih
    rw [ih, Option.map_some]

/-! ### What is read was written -/

/-- What was read of the part that a place is in. -/
def Place.read (q : Char) : Place → List Char
  | .before => []
  | .inside => [q]
  | .quote => [q, q]

theorem ne_nil_of_readFrom {place : Place} {cs : List Char} {parts : List (List Char)}
    (h : readFrom q place cs = some parts) : parts ≠ [] := by
  have hcons : ∀ c ps, Text.consPart c ps ≠ [] := by
    intro c ps
    cases ps <;> exact List.cons_ne_nil _ _
  induction cs generalizing place parts with
  | nil =>
    cases place with
    | before => cases h
    | inside => cases h
    | quote =>
      cases h
      exact List.cons_ne_nil _ _
  | cons c cs ih =>
    cases place with
    | before =>
      rw [readFrom] at h
      split at h
      · exact ih h
      · cases h
    | inside =>
      rw [readFrom] at h
      split at h
      · exact ih h
      · obtain ⟨ps, -, rfl⟩ := Option.map_eq_some_iff.1 h
        exact hcons c ps
    | quote =>
      rw [readFrom] at h
      split at h
      · obtain ⟨ps, -, rfl⟩ := Option.map_eq_some_iff.1 h
        exact hcons c ps
      · split at h
        · obtain ⟨ps, -, rfl⟩ := Option.map_eq_some_iff.1 h
          exact List.cons_ne_nil _ _
        · cases h

/-- A character more in the first part. -/
theorem write_consPart (c : Char) {parts : List (List Char)} {cs : List Char}
    (hne : parts ≠ []) (h : q :: cs = write q parts) :
    q :: (doubled q [c] ++ cs) = write q (Text.consPart c parts) := by
  obtain ⟨part, parts, rfl⟩ := List.exists_cons_of_ne_nil hne
  have hdoubled : doubled q (c :: part) = doubled q [c] ++ doubled q part := by
    rw [doubled, doubled, doubled]
    split <;> rfl
  cases parts with
  | nil =>
    have hcs : cs = doubled q part ++ [q] := (List.cons.inj h).2
    rw [Text.consPart, hcs, ← List.append_assoc, ← hdoubled]
    rfl
  | cons part' parts =>
    have hcs : cs = doubled q part ++ [q] ++ '.' :: write q (part' :: parts) :=
      (List.cons.inj h).2
    rw [Text.consPart, hcs, ← List.append_assoc, ← List.append_assoc, ← hdoubled]
    rfl

/-- Parts that are read were written, whatever the place. -/
theorem eq_write_of_readFrom {place : Place} {cs : List Char} {parts : List (List Char)}
    (h : readFrom q place cs = some parts) : place.read q ++ cs = write q parts := by
  have hsame : doubled q [q] = [q, q] := by rw [doubled, if_pos rfl, doubled]
  induction cs generalizing place parts with
  | nil =>
    cases place with
    | before => cases h
    | inside => cases h
    | quote =>
      cases h
      rfl
  | cons c cs ih =>
    cases place with
    | before =>
      rw [readFrom] at h
      split at h
      · next hc => rw [← ih h, hc, Place.read, Place.read, List.nil_append, List.singleton_append]
      · cases h
    | inside =>
      rw [readFrom] at h
      split at h
      · next hc => rw [← ih h, hc, Place.read, Place.read, List.append_cons]; rfl
      · next hc =>
        obtain ⟨ps, hps, rfl⟩ := Option.map_eq_some_iff.1 h
        have hother : doubled q [c] = [c] := by rw [doubled, if_neg hc, doubled]
        rw [← write_consPart c (ne_nil_of_readFrom hps) (ih hps), hother]
        rfl
    | quote =>
      rw [readFrom] at h
      split at h
      · next hc =>
        obtain ⟨ps, hps, rfl⟩ := Option.map_eq_some_iff.1 h
        rw [← write_consPart c (ne_nil_of_readFrom hps) (ih hps), hc, hsame]
        rfl
      · split at h
        · next hdot =>
          obtain ⟨ps, hps, rfl⟩ := Option.map_eq_some_iff.1 h
          obtain ⟨part, ps, rfl⟩ := List.exists_cons_of_ne_nil (ne_nil_of_readFrom hps)
          have hcs : cs = write q (part :: ps) := ih hps
          rw [hcs, hdot]
          rfl
        · cases h

/-- A text is read as parts exactly if it is what is written of them. -/
theorem read?_eq_some_iff (hq : q ≠ '.') {cs : List Char} {parts : List (List Char)} :
    read? q cs = some parts ↔ parts ≠ [] ∧ cs = write q parts := by
  constructor
  · exact fun h => ⟨ne_nil_of_readFrom h, eq_write_of_readFrom h⟩
  · rintro ⟨hne, rfl⟩
    exact read?_write hq hne

end Delimited

/-! ## Names part by part -/

namespace Quoting

/-- A name is written part by part. -/
theorem wrapChars_append_dot (quoting : Quoting) (a b : List Char) :
    quoting.wrapChars (a ++ '.' :: b) = quoting.wrapChars a ++ '.' :: quoting.wrapChars b := by
  have hne : ∀ cs, (Text.split '.' cs).map quoting.wrapPart ≠ [] := by
    intro cs
    simpa using Text.split_ne_nil '.' cs
  rw [wrapChars, Text.split_append_sep, List.map_append, Text.join_append (hne a) (hne b),
    wrapChars, wrapChars]

theorem wrapChars_join (quoting : Quoting) : ∀ {texts : List (List Char)}, texts ≠ [] →
    quoting.wrapChars (Text.join '.' texts) = Text.join '.' (texts.map quoting.wrapChars)
  | [], h => absurd rfl h
  | [_], _ => rfl
  | t :: t' :: texts, _ => by
    rw [Text.join, wrapChars_append_dot, wrapChars_join _ (List.cons_ne_nil t' texts)]
    rfl

theorem length_le_doubled (q : Char) (cs : List Char) : cs.length ≤ (doubled q cs).length := by
  induction cs with
  | nil => exact Nat.le_refl _
  | cons c cs ih =>
    rw [doubled]
    split <;> simp only [List.length_cons] <;> omega

/-- A part that starts with a double quote stays as it is. -/
theorem wrapPart_of_quoted {p : List Char} (h : p.head? = some '"') :
    keepQuoted.wrapPart p = p := by
  cases p with
  | nil => cases h
  | cons c p =>
    cases Option.some.inj h
    rfl

/-- Any other part is put between double quotes. -/
theorem wrapPart_of_unquoted {p : List Char} (h : p.head? ≠ some '"') :
    keepQuoted.wrapPart p = delimit '"' p := by
  simp only [wrapPart]
  split
  · exact absurd rfl h
  · rfl

theorem length_lt_wrapPart {p : List Char} (h : p.head? ≠ some '"') :
    p.length < (keepQuoted.wrapPart p).length := by
  have hle := length_le_doubled '"' p
  rw [wrapPart_of_unquoted h, delimit, List.length_append, List.length_cons]
  omega

theorem length_le_wrapPart (p : List Char) :
    p.length ≤ (keepQuoted.wrapPart p).length := by
  by_cases h : p.head? = some '"'
  · exact Nat.le_of_eq (by rw [wrapPart_of_quoted h])
  · exact Nat.le_of_lt (length_lt_wrapPart h)

end Quoting

/-! ## Parts of names -/

/-- A part of a name as a user writes it. -/
inductive NamePart where
  /-- A part without quotes around it. -/
  | bare (text : List Char) (undotted : '.' ∉ text) (unquoted : text.head? ≠ some '"')
  /-- A part between double quotes. -/
  | quoted (content : List Char)

namespace NamePart

/-- A part as it stands in a name. -/
def text : NamePart → List Char
  | .bare text _ _ => text
  | .quoted content => delimit '"' content

/-- What a part denotes. -/
def content : NamePart → List Char
  | .bare text _ _ => text
  | .quoted content => content

/-- The name of a list of parts. -/
def name (parts : List NamePart) : String := String.ofList (Text.join '.' (parts.map text))

/-- Every dot in the part has a double quote after it. -/
def DotsMeetQuotes (part : NamePart) : Prop :=
  ∀ before after, part.text = before ++ '.' :: after → after.head? = some '"'

/-! ### A part of its own -/

/-- A bare part is put between double quotes. -/
theorem wrapChars_bare_part {text : List Char} (undotted : '.' ∉ text)
    (unquoted : text.head? ≠ some '"') :
    Quoting.keepQuoted.wrapChars text = delimit '"' text := by
  rw [Quoting.wrapChars, Text.split_eq_singleton undotted, List.map_singleton, Text.join,
    Quoting.wrapPart_of_unquoted unquoted]

/-- What a quoted part is cut into starts with its own quote. -/
theorem head?_split_text (content : List Char) :
    ∃ p ps, Text.split '.' (delimit '"' content) = p :: ps ∧ p.head? = some '"' := by
  obtain ⟨p, ps, hsplit⟩ :=
    List.exists_cons_of_ne_nil (Text.split_ne_nil '.' (doubled '"' content ++ ['"']))
  refine ⟨'"' :: p, ps, ?_, rfl⟩
  rw [delimit, List.cons_append, Text.split, if_neg (by decide), hsplit, Text.consPart]

/-- A quoted part stays as it is if its dots meet quotes, and becomes longer if one does not. -/
theorem wrapChars_quoted (content : List Char) :
    ((quoted content).DotsMeetQuotes →
      Quoting.keepQuoted.wrapChars (delimit '"' content) = delimit '"' content) ∧
    (¬ (quoted content).DotsMeetQuotes →
      (delimit '"' content).length <
        (Quoting.keepQuoted.wrapChars (delimit '"' content)).length) := by
  obtain ⟨p, ps, hsplit, hp⟩ := head?_split_text content
  have hmeet : (quoted content).DotsMeetQuotes ↔ ∀ s ∈ ps, s.head? = some '"' := by
    have hquote : '"' ≠ '.' := by decide
    have hparts := Text.forall_mem_tail_split hquote (delimit '"' content)
    rw [hsplit, List.tail_cons] at hparts
    exact hparts.symm
  have hjoin : Text.join '.' (p :: ps) = delimit '"' content := by rw [← hsplit, Text.join_split]
  have hwrap : Quoting.keepQuoted.wrapChars (delimit '"' content) =
      Text.join '.' ((p :: ps).map Quoting.keepQuoted.wrapPart) := by
    rw [Quoting.wrapChars, hsplit]
  rw [hwrap, hmeet]
  constructor
  · intro hall
    have hsame : (p :: ps).map Quoting.keepQuoted.wrapPart = (p :: ps).map id :=
      List.map_congr_left (List.forall_mem_cons.2
        ⟨Quoting.wrapPart_of_quoted hp, fun s hs => Quoting.wrapPart_of_quoted (hall s hs)⟩)
    rw [hsame, List.map_id, hjoin]
  · intro hnot
    obtain ⟨s, hs, hhead⟩ : ∃ s ∈ ps, s.head? ≠ some '"' := by
      simpa only [not_forall, exists_prop] using hnot
    have hlt : (Text.join '.' ((p :: ps).map id)).length <
        (Text.join '.' ((p :: ps).map Quoting.keepQuoted.wrapPart)).length :=
      Text.length_join_lt (fun s _ => Quoting.length_le_wrapPart s) (List.mem_cons_of_mem p hs)
        (Quoting.length_lt_wrapPart hhead)
    rwa [List.map_id, hjoin] at hlt

/-! ### All parts -/

/-- What is written of a part: what it denotes between quotes, or something longer. -/
theorem wrapChars_text (part : NamePart) :
    (part.DotsMeetQuotes → Quoting.keepQuoted.wrapChars part.text = delimit '"' part.content) ∧
    (¬ part.DotsMeetQuotes →
      (delimit '"' part.content).length < (Quoting.keepQuoted.wrapChars part.text).length) := by
  cases part with
  | bare text undotted unquoted =>
    refine ⟨fun _ => wrapChars_bare_part undotted unquoted, fun hnot => ?_⟩
    -- There are no dots in the part.
    refine absurd (fun before after htext => ?_) hnot
    have hdot : '.' ∈ before ++ '.' :: after := List.mem_append_right _ List.mem_cons_self
    exact absurd (htext ▸ hdot : '.' ∈ (bare text undotted unquoted).text) undotted
  | quoted content => exact wrapChars_quoted content

/-- A name of bare and of quoted parts is written as what its parts denote, each between double
quotes: quotes are put around bare parts, and quoted ones stay as they are. It is then read back
as these parts. Both hold exactly if every dot in a quoted part has a double quote after it. -/
theorem wrap_keeps_iff (part : NamePart) (parts : List NamePart) :
    ((Quoting.keepQuoted.wrap (name (part :: parts))).toList =
        Delimited.write '"' ((part :: parts).map content) ↔
      ∀ p ∈ part :: parts, p.DotsMeetQuotes) ∧
    (Delimited.read? '"' (Quoting.keepQuoted.wrap (name (part :: parts))).toList =
        some ((part :: parts).map content) ↔
      ∀ p ∈ part :: parts, p.DotsMeetQuotes) := by
  have hwrap : (Quoting.keepQuoted.wrap (name (part :: parts))).toList =
      Text.join '.' ((part :: parts).map fun p => Quoting.keepQuoted.wrapChars p.text) := by
    rw [Quoting.wrap, name, String.toList_ofList, String.toList_ofList,
      Quoting.wrapChars_join _ (by simp),
      List.map_map]
    rfl
  have hwrite : Delimited.write '"' ((part :: parts).map content) =
      Text.join '.' ((part :: parts).map fun p => delimit '"' p.content) := by
    rw [Delimited.write, List.map_map]
    rfl
  have hiff : (Quoting.keepQuoted.wrap (name (part :: parts))).toList =
      Delimited.write '"' ((part :: parts).map content) ↔
        ∀ p ∈ part :: parts, p.DotsMeetQuotes := by
    rw [hwrap, hwrite]
    constructor
    · intro heq p hp
      by_contra hnot
      have hle : ∀ p ∈ part :: parts,
          (delimit '"' p.content).length ≤ (Quoting.keepQuoted.wrapChars p.text).length := by
        intro p _
        by_cases hmeet : p.DotsMeetQuotes
        · exact Nat.le_of_eq (by rw [(wrapChars_text p).1 hmeet])
        · exact Nat.le_of_lt ((wrapChars_text p).2 hmeet)
      have hlt : (Text.join '.' ((part :: parts).map fun p => delimit '"' p.content)).length <
          (Text.join '.'
            ((part :: parts).map fun p => Quoting.keepQuoted.wrapChars p.text)).length :=
        Text.length_join_lt hle hp ((wrapChars_text p).2 hnot)
      exact Nat.lt_irrefl _ (heq ▸ hlt)
    · exact fun hall =>
        congrArg (Text.join '.') (List.map_congr_left fun p hp => (wrapChars_text p).1 (hall p hp))
  refine ⟨hiff, ?_⟩
  rw [Delimited.read?_eq_some_iff (by decide), hiff]
  exact and_iff_right (List.cons_ne_nil _ _)

/-- A quoted part with a dot inside is cut at it: the name "a.b" denotes one part, and what is
written of it is no name at all. -/
theorem wrap_cuts_quoted_part :
    name [quoted "a.b".toList] = "\"a.b\"" ∧
    Quoting.keepQuoted.wrap "\"a.b\"" = "\"a.\"b\"\"\"" ∧
    Delimited.read? '"' (Quoting.keepQuoted.wrap "\"a.b\"").toList = none := by
  decide

end NamePart

end EntitySql
