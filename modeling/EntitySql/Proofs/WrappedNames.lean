import EntitySql.Proofs.QuotedNames

/-!
# Names between quotes

Whatever stands in a name, the database has to read the name that was meant.
It reads a statement from left to right and is not told where a name was put
in, so a name must show by itself where it ends: at a quote that no second
quote follows.

- `Delimited.lex?`: the parts of the quoted name that a text begins with, and
  the text after it.
- `Delimited.lex?_write`: what was written is read, up to its last quote.
- `Delimited.suffix_of_lex?_write`: whatever follows, reading stops after the
  name and not in it.
- `Quoting.wrap_reads_back`: every name comes back as its parts.
-/

namespace EntitySql

namespace Delimited

/-! ## The name that a text begins with -/

/-- An identifier up to the quote that closes it, and the text after that quote. A quote that is
written twice stands for one. -/
def content? (q : Char) : List Char → Option (List Char × List Char)
  | [] => none
  | c :: cs =>
    if c = q then
      match cs with
      | [] => some ([], [])
      | d :: ds => if d = q then (content? q ds).map (Prod.map (q :: ·) id) else some ([], d :: ds)
    else (content? q cs).map (Prod.map (c :: ·) id)

/-- The identifier that a text begins with, and the text after it. -/
def identifier? (q : Char) : List Char → Option (List Char × List Char)
  | [] => none
  | c :: cs => if c = q then content? q cs else none

variable {q : Char}

/-- What an identifier leaves is a shorter end of the text. -/
theorem suffix_of_content? {cs part left : List Char} (h : content? q cs = some (part, left)) :
    left.length < cs.length ∧ left <:+ cs := by
  fun_induction content? q cs generalizing part with
  | case1 => cases h
  | case2 =>
    cases h
    exact ⟨Nat.zero_lt_one, List.nil_suffix⟩
  | case3 ds ih =>
    obtain ⟨⟨part', left'⟩, hread, heq⟩ := Option.map_eq_some_iff.1 h
    cases heq
    obtain ⟨hlt, hsuffix⟩ := ih hread
    exact ⟨Nat.lt_succ_of_lt (Nat.lt_succ_of_lt hlt),
      hsuffix.trans ((List.suffix_cons _ ds).trans (List.suffix_cons _ _))⟩
  | case4 d ds hd =>
    cases h
    exact ⟨Nat.lt_succ_self _, List.suffix_cons _ _⟩
  | case5 c cs hc ih =>
    obtain ⟨⟨part', left'⟩, hread, heq⟩ := Option.map_eq_some_iff.1 h
    cases heq
    obtain ⟨hlt, hsuffix⟩ := ih hread
    exact ⟨Nat.lt_succ_of_lt hlt, hsuffix.trans (List.suffix_cons _ _)⟩

theorem suffix_of_identifier? {cs part left : List Char}
    (h : identifier? q cs = some (part, left)) : left.length < cs.length ∧ left <:+ cs := by
  cases cs with
  | nil => cases h
  | cons c cs =>
    rw [identifier?] at h
    split at h
    · obtain ⟨hlt, hsuffix⟩ := suffix_of_content? h
      exact ⟨Nat.lt_succ_of_lt hlt, hsuffix.trans (List.suffix_cons c cs)⟩
    · cases h

/-- The parts of the quoted name that a text begins with, and the text after it. A dot between two
parts is read, and there must be a part after a dot. -/
def lex? (q : Char) (cs : List Char) : Option (List (List Char) × List Char) :=
  match _hread : identifier? q cs with
  | none => none
  | some (part, '.' :: rest) => (lex? q rest).map (Prod.map (part :: ·) id)
  | some (part, rest) => some ([part], rest)
termination_by cs.length
decreasing_by exact Nat.lt_of_succ_lt (suffix_of_identifier? _hread).1

/-- A name ends before the text: it goes on neither with a quote nor with a dot. -/
structure EndsBefore (q : Char) (rest : List Char) : Prop where
  quote : rest.head? ≠ some q
  dot : rest.head? ≠ some '.'

theorem lex?_of_dot {cs part rest : List Char} (h : identifier? q cs = some (part, '.' :: rest)) :
    lex? q cs = (lex? q rest).map (Prod.map (part :: ·) id) := by
  rw [lex?]
  split
  · next h' => rw [h] at h'; cases h'
  · next h' =>
    rw [h] at h'
    cases h'
    rfl
  · next hdot h' =>
    rw [h] at h'
    cases h'
    exact (hdot _ rfl).elim

theorem lex?_of_no_dot {cs part rest : List Char} (h : identifier? q cs = some (part, rest))
    (hdot : rest.head? ≠ some '.') : lex? q cs = some ([part], rest) := by
  rw [lex?]
  split
  · next h' => rw [h] at h'; cases h'
  · next h' =>
    rw [h] at h'
    cases h'
    exact absurd rfl hdot
  · next h' =>
    rw [h] at h'
    cases h'
    rfl

/-- A name begins with an identifier, and leaves an end of what that leaves. -/
theorem suffix_of_lex? {cs left : List Char} {parts : List (List Char)}
    (h : lex? q cs = some (parts, left)) :
    ∃ part rest, identifier? q cs = some (part, rest) ∧ left <:+ rest := by
  fun_induction lex? q cs generalizing parts with
  | case1 cs hnone => cases h
  | case2 cs part rest hpart ih =>
    obtain ⟨⟨parts', left'⟩, hread, heq⟩ := Option.map_eq_some_iff.1 h
    cases heq
    obtain ⟨part', rest', hpart', hsuffix⟩ := ih hread
    exact ⟨part, '.' :: rest, hpart,
      hsuffix.trans ((suffix_of_identifier? hpart').2.trans (List.suffix_cons '.' rest))⟩
  | case3 cs part rest hdot hpart =>
    cases h
    exact ⟨part, left, hpart, List.suffix_rfl⟩

/-! ## What is written is read -/

theorem content?_of_ne {c : Char} (hc : c ≠ q) (cs : List Char) :
    content? q (c :: cs) = (content? q cs).map (Prod.map (c :: ·) id) := by
  rw [content?.eq_def]
  exact if_neg hc

/-- Two quotes are one of the identifier. -/
theorem content?_quote_quote (cs : List Char) :
    content? q (q :: q :: cs) = (content? q cs).map (Prod.map (q :: ·) id) := by
  rw [content?.eq_def]
  exact (if_pos rfl).trans (if_pos rfl)

/-- A quote closes an identifier unless another one follows. -/
theorem content?_quote {rest : List Char} (h : rest.head? ≠ some q) :
    content? q (q :: rest) = some ([], rest) := by
  rw [content?.eq_def]
  refine (if_pos rfl).trans ?_
  cases rest with
  | nil => rfl
  | cons d ds =>
    have hd : d ≠ q := fun hd => h (congrArg some hd)
    exact if_neg hd

/-- What is written of a part is read as that part. -/
theorem content?_doubled (part cs : List Char) :
    content? q (doubled q part ++ cs) = (content? q cs).map (Prod.map (part ++ ·) id) := by
  induction part with
  | nil =>
    have hid : Prod.map (([] : List Char) ++ ·) (id : List Char → List Char) = id := rfl
    rw [doubled, List.nil_append, hid, Option.map_id, id]
  | cons c part ih =>
    have hcons : Prod.map (c :: ·) id ∘ Prod.map (part ++ ·) id =
        Prod.map (c :: part ++ ·) (id : List Char → List Char) := rfl
    by_cases hc : c = q
    · rw [doubled, if_pos hc, List.cons_append, List.cons_append, content?_quote_quote, ih,
        Option.map_map, ← hc, hcons]
    · rw [doubled, if_neg hc, List.cons_append, content?_of_ne hc, ih, Option.map_map, hcons]

/-- A part between quotes is read up to its last quote, and from there on as if it were empty. -/
theorem identifier?_delimit (part rest : List Char) :
    identifier? q (delimit q part ++ rest) =
      (content? q (q :: rest)).map (Prod.map (part ++ ·) id) := by
  rw [delimit, List.cons_append, List.cons_append, List.append_assoc, identifier?, if_pos rfl,
    content?_doubled, List.singleton_append]

theorem identifier?_of_end (part : List Char) {rest : List Char} (h : rest.head? ≠ some q) :
    identifier? q (delimit q part ++ rest) = some (part, rest) := by
  rw [identifier?_delimit, content?_quote h, Option.map_some, Prod.map_apply, List.append_nil, id]

/-- A part with others after it. -/
theorem lex?_delimit_dot (hq : q ≠ '.') (part rest : List Char) :
    lex? q (delimit q part ++ '.' :: rest) = (lex? q rest).map (Prod.map (part :: ·) id) :=
  lex?_of_dot (identifier?_of_end part fun h => hq (Option.some.inj h).symm)

theorem write_cons_cons (part part' : List Char) (parts : List (List Char)) :
    write q (part :: part' :: parts) = delimit q part ++ '.' :: write q (part' :: parts) := rfl

/-- A name is read as the parts that were written, and the text after it is left. -/
theorem lex?_write (hq : q ≠ '.') {rest : List Char} (hrest : EndsBefore q rest) :
    ∀ {parts : List (List Char)}, parts ≠ [] → lex? q (write q parts ++ rest) = some (parts, rest)
  | [], h => absurd rfl h
  | [part], _ => lex?_of_no_dot (identifier?_of_end part hrest.quote) hrest.dot
  | part :: part' :: parts, _ => by
    rw [write_cons_cons, List.append_assoc, List.cons_append, lex?_delimit_dot hq,
      lex?_write hq hrest (List.cons_ne_nil part' parts)]
    rfl

/-- What an identifier leaves comes after what was written, also if that is followed by a quote
and the identifier goes on. -/
theorem suffix_of_identifier?_delimit {part part' rest left : List Char}
    (h : identifier? q (delimit q part ++ rest) = some (part', left)) : left <:+ rest := by
  rw [identifier?_delimit] at h
  obtain ⟨⟨part'', left'⟩, hread, heq⟩ := Option.map_eq_some_iff.1 h
  cases heq
  cases rest with
  | nil =>
    rw [content?_quote (by simp)] at hread
    cases hread
    exact List.suffix_rfl
  | cons d ds =>
    by_cases hd : d = q
    · rw [hd, content?_quote_quote] at hread
      obtain ⟨⟨part₀, left₀⟩, hread₀, heq₀⟩ := Option.map_eq_some_iff.1 hread
      cases heq₀
      exact (suffix_of_content? hread₀).2.trans (List.suffix_cons d ds)
    · have hhead : (d :: ds).head? ≠ some q := fun hhead => hd (Option.some.inj hhead)
      rw [content?_quote hhead] at hread
      cases hread
      exact List.suffix_rfl

/-- Reading does not stop in a name, whatever follows: a quote goes on with its last part, and a
dot with the name, but what is left comes after the name. -/
theorem suffix_of_lex?_write (hq : q ≠ '.') {rest left : List Char} :
    ∀ {parts read : List (List Char)}, parts ≠ [] →
      lex? q (write q parts ++ rest) = some (read, left) → left <:+ rest
  | [], _, hne, _ => absurd rfl hne
  | [part], read, _, h => by
    obtain ⟨part', rest', hpart, hsuffix⟩ := suffix_of_lex? h
    exact hsuffix.trans (suffix_of_identifier?_delimit hpart)
  | part :: part' :: parts, read, _, h => by
    rw [write_cons_cons, List.append_assoc, List.cons_append, lex?_delimit_dot hq] at h
    obtain ⟨⟨read', left'⟩, hread, heq⟩ := Option.map_eq_some_iff.1 h
    cases heq
    exact suffix_of_lex?_write hq (List.cons_ne_nil part' parts) hread

end Delimited

/-! ## Names as they stand in statements -/

namespace Quoting

variable {q : Char}

theorem toList_wrap_delimited (q : Char) (name : String) :
    ((delimited q).wrap name).toList = Delimited.write q (Text.split '.' name.toList) := by
  rw [wrap, String.toList_ofList]
  rfl

/-- Different names are written in different ways. -/
theorem wrap_injective (hq : q ≠ '.') : Function.Injective (delimited q).wrap := by
  intro name other h
  have hread := Delimited.read?_write hq (Text.split_ne_nil '.' name.toList)
  rw [← toList_wrap_delimited, h, toList_wrap_delimited,
    Delimited.read?_write hq (Text.split_ne_nil '.' other.toList)] at hread
  have hchars : other.toList = name.toList := by
    rw [← Text.join_split '.' other.toList, Option.some.inj hread, Text.join_split]
  exact String.toList_inj.1 hchars.symm

/-- Whether quotes that a user wrote are kept makes no difference if, and only if, no part starts
with one. -/
theorem wrap_keepQuoted_eq_iff (name : String) :
    keepQuoted.wrap name = (delimited '"').wrap name ↔
      ∀ p ∈ Text.split '.' name.toList, p.head? ≠ some '"' := by
  rw [wrap, wrap, String.ofList_inj, wrapChars, wrapChars]
  constructor
  · intro heq p hp hhead
    -- a part that is kept is shorter than one that is put between quotes
    have hle : ∀ p, (keepQuoted.wrapPart p).length ≤ (delimit '"' p).length := by
      intro p
      by_cases h : p.head? = some '"'
      · have hle := length_le_doubled '"' p
        rw [wrapPart_of_quoted h, delimit, List.length_append, List.length_cons]
        omega
      · exact Nat.le_of_eq (by rw [wrapPart_of_unquoted h])
    have hlt : (keepQuoted.wrapPart p).length < (delimit '"' p).length := by
      have hle := length_le_doubled '"' p
      rw [wrapPart_of_quoted hhead, delimit, List.length_append, List.length_cons]
      omega
    have hshorter : (Text.join '.' ((Text.split '.' name.toList).map keepQuoted.wrapPart)).length <
        (Text.join '.' ((Text.split '.' name.toList).map (delimit '"'))).length :=
      Text.length_join_lt (fun p _ => hle p) hp hlt
    exact Nat.lt_irrefl _ (heq ▸ hshorter)
  · intro hall
    exact congrArg (Text.join '.')
      (List.map_congr_left fun p hp => wrapPart_of_unquoted (hall p hp))

/-- A part that was wrapped is kept. -/
theorem wrapPart_wrapPart (p : List Char) :
    keepQuoted.wrapPart (keepQuoted.wrapPart p) = keepQuoted.wrapPart p := by
  by_cases h : p.head? = some '"'
  · rw [wrapPart_of_quoted h, wrapPart_of_quoted h]
  · rw [wrapPart_of_unquoted h]
    exact wrapPart_of_quoted rfl

theorem mem_doubled {c : Char} {cs : List Char} (h : c ∈ doubled q cs) : c = q ∨ c ∈ cs := by
  induction cs with
  | nil => cases h
  | cons d cs ih =>
    rw [doubled] at h
    split at h
    · simp only [List.mem_cons] at h
      rcases h with h | h | h
      · exact .inl h
      · exact .inl h
      · exact (ih h).imp_right (List.mem_cons_of_mem d)
    · rcases List.mem_cons.1 h with h | h
      · exact .inr (h ▸ List.mem_cons_self)
      · exact (ih h).imp_right (List.mem_cons_of_mem d)

/-- Wrapping puts no dot into a part. -/
theorem dot_not_mem_wrapPart {p : List Char} (h : '.' ∉ p) : '.' ∉ keepQuoted.wrapPart p := by
  by_cases hp : p.head? = some '"'
  · rwa [wrapPart_of_quoted hp]
  · rw [wrapPart_of_unquoted hp, delimit]
    intro hdot
    rcases List.mem_append.1 hdot with hdot | hdot
    · rcases List.mem_cons.1 hdot with hdot | hdot
      · exact absurd hdot (by decide)
      · rcases mem_doubled hdot with hdot | hdot
        · exact absurd hdot (by decide)
        · exact h hdot
    · exact absurd (List.mem_singleton.1 hdot) (by decide)

/-- A name that was wrapped stays as it is. -/
theorem wrap_keepQuoted_wrap (name : String) :
    keepQuoted.wrap (keepQuoted.wrap name) = keepQuoted.wrap name := by
  have hparts : Text.split '.' (keepQuoted.wrapChars name.toList) =
      (Text.split '.' name.toList).map keepQuoted.wrapPart := by
    refine Text.split_join (by simpa using Text.split_ne_nil '.' name.toList) ?_
    intro p hp
    obtain ⟨part, hpart, rfl⟩ := List.mem_map.1 hp
    exact dot_not_mem_wrapPart (Text.not_mem_of_mem_split hpart)
  have hsame : keepQuoted.wrapPart ∘ keepQuoted.wrapPart = keepQuoted.wrapPart :=
    funext wrapPart_wrapPart
  rw [wrap, wrap, String.toList_ofList, wrapChars, hparts, List.map_map, hsame, wrapChars]

/-- Nothing of a name is lost between quotes. What is written are identifiers with dots between;
they are read as the parts of the name, with nothing left over, and the same if a text follows
that does not go on with the name. Whatever follows, reading does not stop before the name ends,
and another name is written in another way. Quotes that a user wrote are kept without a difference
exactly if no part starts with one, and what was written so is not changed again. -/
theorem wrap_reads_back (hq : q ≠ '.') (name : String) :
    ((delimited q).wrap name).toList = Delimited.write q (Text.split '.' name.toList) ∧
    Delimited.lex? q ((delimited q).wrap name).toList =
      some (Text.split '.' name.toList, []) ∧
    (∀ rest, Delimited.EndsBefore q rest →
      Delimited.lex? q (((delimited q).wrap name).toList ++ rest) =
        some (Text.split '.' name.toList, rest)) ∧
    (∀ rest read left,
      Delimited.lex? q (((delimited q).wrap name).toList ++ rest) = some (read, left) →
        left <:+ rest) ∧
    (∀ other, (delimited q).wrap other = (delimited q).wrap name → other = name) ∧
    (keepQuoted.wrap name = (delimited '"').wrap name ↔
      ∀ p ∈ Text.split '.' name.toList, p.head? ≠ some '"') ∧
    keepQuoted.wrap (keepQuoted.wrap name) = keepQuoted.wrap name := by
  have hne : Text.split '.' name.toList ≠ [] := Text.split_ne_nil '.' name.toList
  have hwrite : ((delimited q).wrap name).toList =
      Delimited.write q (Text.split '.' name.toList) := toList_wrap_delimited q name
  have hread : ∀ rest, Delimited.EndsBefore q rest →
      Delimited.lex? q (((delimited q).wrap name).toList ++ rest) =
        some (Text.split '.' name.toList, rest) := by
    intro rest hrest
    rw [hwrite]
    exact Delimited.lex?_write hq hrest hne
  refine ⟨hwrite, ?_, hread, ?_, fun other h => wrap_injective hq h,
    wrap_keepQuoted_eq_iff name, wrap_keepQuoted_wrap name⟩
  · have hwhole := hread [] ⟨by simp, by simp⟩
    rwa [List.append_nil] at hwhole
  · intro rest read left h
    rw [hwrite] at h
    exact Delimited.suffix_of_lex?_write hq hne h

/-- A part with a quote in it, and a text after the name. -/
theorem wrap_reads_back_orders :
    '"' ≠ '.' ∧
    (delimited '"').wrap "sales.x\"y" = "\"sales\".\"x\"\"y\"" ∧
    Delimited.lex? '"' ("\"sales\".\"x\"\"y\"".toList ++ " where".toList) =
      some (["sales".toList, "x\"y".toList], " where".toList) := by
  have hwrap : (delimited '"').wrap "sales.x\"y" = "\"sales\".\"x\"\"y\"" := by decide
  have hrest : Delimited.EndsBefore '"' " where".toList := ⟨by decide, by decide⟩
  have hread := (wrap_reads_back (q := '"') (by decide) "sales.x\"y").2.2.1 " where".toList hrest
  rw [hwrap] at hread
  exact ⟨by decide, hwrap, hread⟩

end Quoting

end EntitySql
