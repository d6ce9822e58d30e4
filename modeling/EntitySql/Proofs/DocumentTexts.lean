import EntitySql.Json.Document
import EntitySql.Json.Reader
import EntitySql.Proofs.DocumentWords

/-!
# Documents, written and read

The text of a document is read as the document, provided that its arrays and
objects do not nest deeper than the reader goes and that its floats are read as
they were written. The last is a hypothesis about single floats: a reader that
rounds more than once misses some of them. All strings and all whole numbers are
read as they are.

- `Json.nesting`, `Json.parts`: how deep a document nests, and what is inside of it.
- `Json.HasReadableFloats`: what documents are expected to be.
- `Json.readValue_chars`: a document is read up to its end, whatever follows.
- `Json.readValue_bounds`: what is read has distinct keys, and no reader goes
  deeper than it is allowed to.
- `Json.readsBack_iff`: the documents that are read as they were written.
-/

namespace EntitySql.Json

/-! ## Documents inside of documents -/

mutual

/-- How deep arrays and objects nest. -/
def nesting : Json → Nat
  | .null | .bool _ | .number _ | .text _ => 0
  | .array items => itemNesting items + 1
  | .object members => memberNesting members + 1

/-- How deep the items of an array nest. -/
def itemNesting : List Json → Nat
  | [] => 0
  | a :: as => max a.nesting (itemNesting as)

/-- How deep the members of an object nest. -/
def memberNesting : List (String × Json) → Nat
  | [] => 0
  | (_, a) :: as => max a.nesting (memberNesting as)

end

mutual

/-- A document and all documents inside of it. -/
def parts : Json → List Json
  | .null => [.null]
  | .bool b => [.bool b]
  | .number n => [.number n]
  | .text s => [.text s]
  | .array items => .array items :: itemParts items
  | .object members => .object members :: memberParts members

/-- The documents inside of an array. -/
def itemParts : List Json → List Json
  | [] => []
  | a :: as => a.parts ++ itemParts as

/-- The documents inside of an object. -/
def memberParts : List (String × Json) → List Json
  | [] => []
  | (_, a) :: as => a.parts ++ memberParts as

end

/-- The text of the document is read as the document. -/
def ReadsBack (j : Json) : Prop := read j.compact = .ok j

/-- Each float of the document is read as it was written, by itself. -/
def HasReadableFloats (j : Json) : Prop :=
  ∀ x finite, .number (.float x finite) ∈ j.parts →
    (Json.number (.float x finite)).ReadsBack

/-- What reading asks of a document apart from what is inside of it. -/
def IsReadable : Json → Prop
  | .number n => Spells n (numberText n)
  | .object members => (members.map Prod.fst).Nodup
  | _ => True

/-! ## Distinct keys -/

mutual

/-- All objects inside of a document have distinct keys. -/
theorem nodup_of_mem_parts {members : List (String × Json)} : ∀ {j : Json}, j.HasDistinctKeys →
    .object members ∈ j.parts → (members.map Prod.fst).Nodup
  | .null, _, h | .bool _, _, h | .number _, _, h | .text _, _, h => by
    rw [parts] at h
    cases List.mem_singleton.1 h
  | .array items, hkeys, h => by
    rw [parts] at h
    rcases List.mem_cons.1 h with heq | h
    · cases heq
    · exact nodup_of_mem_itemParts hkeys h
  | .object members', hkeys, h => by
    rw [parts] at h
    rcases List.mem_cons.1 h with heq | h
    · cases heq
      exact hkeys.1
    · exact nodup_of_mem_memberParts hkeys.2 h

theorem nodup_of_mem_itemParts {members : List (String × Json)} : ∀ {items : List Json},
    ItemsHaveDistinctKeys items → .object members ∈ itemParts items →
      (members.map Prod.fst).Nodup
  | a :: as, hkeys, h => by
    rw [itemParts] at h
    exact (List.mem_append.1 h).elim (nodup_of_mem_parts hkeys.1) (nodup_of_mem_itemParts hkeys.2)

theorem nodup_of_mem_memberParts {members : List (String × Json)} :
    ∀ {others : List (String × Json)}, MembersHaveDistinctKeys others →
      .object members ∈ memberParts others → (members.map Prod.fst).Nodup
  | (key, a) :: as, hkeys, h => by
    rw [memberParts] at h
    exact (List.mem_append.1 h).elim (nodup_of_mem_parts hkeys.1)
      (nodup_of_mem_memberParts hkeys.2)

end

/-! ## Reading what was written -/

/-- A word is in front of the text already. -/
theorem skipSeparators_cons {c : Char} (hc : isSeparator c = false) (cs : List Char) :
    skipSeparators (c :: cs) = c :: cs := by
  simp [skipSeparators, hc]

theorem ne_of_isDigit {c d : Char} (hc : c.isDigit = true) (hd : d.isDigit = false) : c ≠ d := by
  rintro rfl
  rw [hc] at hd
  cases hd

theorem isSeparator_of_isDigit {c : Char} (hc : c.isDigit = true) : isSeparator c = false :=
  IsNumeral.isSeparator (.inl hc)

/-- A number is read up to its end, as long as the text does not go on with a number. -/
theorem Spells.readValue {n : JsonNumber} {cs tail : List Char} (h : Spells n cs)
    (fuel depth : Nat) (htail : EndsNumber tail) :
    readValue (fuel + 1) depth (cs ++ tail) = .ok (.number n, tail) := by
  cases h with
  | signed h =>
    have hread := readNumber_append htail h
    simp [Json.readValue, skipSeparators_cons (c := '-') (by decide), hread]
  | @unsigned c cs hdigit h =>
    have hread := readNumber_append htail h
    rw [List.cons_append] at hread
    have hne : ∀ d, d.isDigit = false → c ≠ d := fun d hd => ne_of_isDigit hdigit hd
    simp [Json.readValue, skipSeparators_cons (isSeparator_of_isDigit hdigit), hread, hdigit,
      hne 'n' rfl, hne 't' rfl, hne 'f' rfl, hne '"' rfl, hne '-' rfl]

/-- A document begins with the first character of its first word. -/
theorem exists_chars_eq_cons : ∀ {j : Json}, j.IsReadable →
    ∃ c cs, chars j = c :: cs ∧ isSeparator c = false ∧ c ≠ ']'
  | .null, _ => ⟨'n', ['u', 'l', 'l'], rfl, by decide, by decide⟩
  | .bool true, _ => ⟨'t', ['r', 'u', 'e'], rfl, by decide, by decide⟩
  | .bool false, _ => ⟨'f', ['a', 'l', 's', 'e'], rfl, by decide, by decide⟩
  | .number n, h => by
    rw [IsReadable] at h
    rw [chars]
    generalize numberText n = cs at h
    cases h with
    | signed _ => exact ⟨_, _, rfl, by decide, by decide⟩
    | unsigned hdigit _ =>
      exact ⟨_, _, rfl, isSeparator_of_isDigit hdigit, ne_of_isDigit hdigit (by decide)⟩
  | .text s, _ => ⟨'"', _, by rw [chars, quoted]; rfl, by decide, by decide⟩
  | .array items, _ => ⟨'[', _, by rw [chars], by decide, by decide⟩
  | .object members, _ => ⟨'\x7b', _, by rw [chars], by decide, by decide⟩

/-- The text of a document is not empty. -/
theorem length_chars_pos {j : Json} (h : j.IsReadable) : 0 < (chars j).length := by
  obtain ⟨c, cs, heq, -, -⟩ := exists_chars_eq_cons h
  rw [heq]
  exact Nat.succ_pos _

theorem self_mem_parts (j : Json) : j ∈ j.parts := by
  cases j <;> simp [parts]

/-- The text of items, of which a first one has no comma in front, and of the closing bracket. -/
def itemsChars (first : Bool) (items : List Json) : List Char :=
  if first then itemChars items else moreItemChars items

/-- The text of members, of which a first one has no comma in front, and of the closing brace. -/
def membersChars (first : Bool) (members : List (String × Json)) : List Char :=
  if first then memberChars members else moreMemberChars members

/-- A comma or a closing character is no part of a number. -/
theorem endsNumber_cons {c : Char} (hc : c ∈ [',', ']', '\x7d']) (cs : List Char) :
    EndsNumber (c :: cs) := by
  rintro d hd
  obtain rfl : c = d := by simpa using hd
  simp only [List.mem_cons, List.not_mem_nil, or_false] at hc
  rcases hc with rfl | rfl | rfl <;> decide

/-- After an item comes a comma or the closing bracket. -/
theorem exists_itemsChars_eq_cons (items : List Json) :
    ∃ c cs, itemsChars false items = c :: cs ∧ c ∈ [',', ']', '\x7d'] := by
  cases items with
  | nil => exact ⟨']', [], rfl, by decide⟩
  | cons a as => exact ⟨',', chars a ++ moreItemChars as, rfl, by decide⟩

theorem exists_membersChars_eq_cons (members : List (String × Json)) :
    ∃ c cs, membersChars false members = c :: cs ∧ c ∈ [',', ']', '\x7d'] := by
  cases members with
  | nil => exact ⟨'\x7d', [], rfl, by decide⟩
  | cons m ms =>
    exact ⟨',', quoted m.1.toList ++ ':' :: chars m.2 ++ moreMemberChars ms, rfl, by decide⟩

/-- The next item of an array is ahead. -/
theorem itemAhead_itemsChars {a : Json} (ha : a.IsReadable) (first : Bool) (as : List Json)
    (tail : List Char) :
    itemAhead first (itemsChars first (a :: as) ++ tail) =
      .ok (some (chars a ++ (itemsChars false as ++ tail))) := by
  obtain ⟨c, cs, heq, hblank, hclose⟩ := exists_chars_eq_cons ha
  have hcomma := skipSeparators_cons (c := ',') (by decide)
  cases first <;>
    simp [itemsChars, itemChars, moreItemChars, itemAhead, heq, hcomma,
      skipSeparators_cons hblank, hclose]

/-- The next member of an object is ahead; its opening quote is past. -/
theorem memberAhead_membersChars (first : Bool) (key : String) (a : Json)
    (as : List (String × Json)) (tail : List Char) :
    memberAhead first (membersChars first ((key, a) :: as) ++ tail) =
      .ok (some (key.toList.flatMap escaped ++
        '"' :: ':' :: (chars a ++ (membersChars false as ++ tail)))) := by
  have hcomma := skipSeparators_cons (c := ',') (by decide)
  have hquote := skipSeparators_cons (c := '"') (by decide)
  cases first <;>
    simp [membersChars, memberChars, moreMemberChars, quoted, memberAhead, hcomma, hquote]

/-- The items of an array are written one after the other. -/
theorem length_itemsChars_cons (first : Bool) (a : Json) (as : List Json) :
    (chars a).length + (itemsChars false as).length ≤ (itemsChars first (a :: as)).length := by
  cases first <;> simp [itemsChars, itemChars, moreItemChars]

theorem length_membersChars_cons (first : Bool) (key : String) (a : Json)
    (as : List (String × Json)) :
    (chars a).length + (membersChars false as).length ≤
      (membersChars first ((key, a) :: as)).length := by
  cases first <;> simp [membersChars, memberChars, moreMemberChars] <;> omega

mutual

/-- A document is read up to its end, as long as the text does not go on with a number. -/
theorem readValue_chars : ∀ (j : Json) {fuel depth : Nat} {tail : List Char},
    (∀ k ∈ j.parts, k.IsReadable) → j.nesting ≤ depth → (chars j).length ≤ fuel →
      EndsNumber tail → readValue (fuel + 1) depth (chars j ++ tail) = .ok (j, tail)
  | .null, _, _, _, _, _, _, _ => by
    simp [chars, readValue, skipSeparators, isSeparator, readKeyword]
  | .bool true, _, _, _, _, _, _, _ => by
    simp [chars, readValue, skipSeparators, isSeparator, readKeyword]
  | .bool false, _, _, _, _, _, _, _ => by
    simp [chars, readValue, skipSeparators, isSeparator, readKeyword]
  | .number n, fuel, depth, tail, hparts, _, _, htail => by
    have hspells : Spells n (numberText n) := hparts (.number n) (self_mem_parts _)
    rw [chars]
    exact hspells.readValue fuel depth htail
  | .text s, _, _, tail, _, _, _, _ => by
    have hread := readString_quoted s tail
    simp [chars, quoted, readValue, skipSeparators, isSeparator, hread]
  | .array items, fuel, depth, tail, hparts, hdepth, hfuel, _ => by
    rw [parts, List.forall_mem_cons] at hparts
    rw [nesting] at hdepth
    rw [chars, List.length_cons] at hfuel
    obtain ⟨fuel, rfl⟩ := Nat.exists_eq_add_of_le' (Nat.le_of_add_left_le hfuel)
    obtain ⟨depth, rfl⟩ := Nat.exists_eq_add_of_le' (Nat.le_of_add_left_le hdepth)
    have hread := readItems_itemsChars items true tail hparts.2 (Nat.le_of_succ_le_succ hdepth)
      (Nat.le_of_succ_le_succ hfuel)
    have hchars : chars (.array items) = '[' :: itemsChars true items := by rw [chars]; rfl
    simp [hchars, readValue, skipSeparators, isSeparator, hread]
  | .object members, fuel, depth, tail, hparts, hdepth, hfuel, _ => by
    rw [parts, List.forall_mem_cons] at hparts
    rw [nesting] at hdepth
    rw [chars, List.length_cons] at hfuel
    obtain ⟨fuel, rfl⟩ := Nat.exists_eq_add_of_le' (Nat.le_of_add_left_le hfuel)
    obtain ⟨depth, rfl⟩ := Nat.exists_eq_add_of_le' (Nat.le_of_add_left_le hdepth)
    have hread := readMembers_membersChars members true tail hparts.2
      (Nat.le_of_succ_le_succ hdepth) (Nat.le_of_succ_le_succ hfuel)
    have hchars : chars (.object members) = '\x7b' :: membersChars true members := by
      rw [chars]; rfl
    simp [hchars, readValue, skipSeparators, isSeparator, hread, ofMembers_of_nodup hparts.1]

/-- The items of an array are read up to its closing bracket. -/
theorem readItems_itemsChars : ∀ (items : List Json) {fuel depth : Nat} (first : Bool)
    (tail : List Char), (∀ k ∈ itemParts items, k.IsReadable) → itemNesting items ≤ depth →
      (itemsChars first items).length ≤ fuel →
      readItems (fuel + 1) depth first (itemsChars first items ++ tail) = .ok (items, tail)
  | [], fuel, depth, first, tail, _, _, _ => by
    have hbracket := skipSeparators_cons (c := ']') (by decide) tail
    have hchars : itemsChars first [] = [']'] := by cases first <;> rfl
    simp [hchars, readItems, itemAhead, closeArray, hbracket]
  | a :: as, fuel, depth, first, tail, hparts, hdepth, hfuel => by
    rw [itemParts, List.forall_mem_append] at hparts
    rw [itemNesting, Nat.max_le] at hdepth
    have hitem := hparts.1 a (self_mem_parts a)
    have hfirst := length_chars_pos hitem
    have hlength := length_itemsChars_cons first a as
    obtain ⟨c, cs, hrest, hc⟩ := exists_itemsChars_eq_cons as
    have hmore : 0 < (itemsChars false as).length := by rw [hrest]; exact Nat.succ_pos _
    obtain ⟨fuel, rfl⟩ := Nat.exists_eq_add_of_le' (show 1 ≤ fuel by omega)
    have hends : EndsNumber (itemsChars false as ++ tail) := by
      rw [hrest]
      exact endsNumber_cons hc _
    have hvalue := readValue_chars a hparts.1 hdepth.1 (show _ ≤ fuel by omega) hends
    have hitems := readItems_itemsChars as false tail hparts.2 hdepth.2 (show _ ≤ fuel by omega)
    rw [readItems, itemAhead_itemsChars hitem, ok_bind]
    dsimp only
    rw [hvalue, ok_bind, hitems]
    rfl

theorem readMembers_membersChars : ∀ (members : List (String × Json)) {fuel depth : Nat}
    (first : Bool) (tail : List Char), (∀ k ∈ memberParts members, k.IsReadable) →
      memberNesting members ≤ depth → (membersChars first members).length ≤ fuel →
      readMembers (fuel + 1) depth first (membersChars first members ++ tail) =
        .ok (members, tail)
  | [], fuel, depth, first, tail, _, _, _ => by
    have hbrace := skipSeparators_cons (c := '\x7d') (by decide) tail
    have hchars : membersChars first [] = ['\x7d'] := by cases first <;> rfl
    simp [hchars, readMembers, memberAhead, closeObject, hbrace]
  | (key, a) :: as, fuel, depth, first, tail, hparts, hdepth, hfuel => by
    rw [memberParts, List.forall_mem_append] at hparts
    rw [memberNesting, Nat.max_le] at hdepth
    have hfirst := length_chars_pos (hparts.1 a (self_mem_parts a))
    have hlength := length_membersChars_cons first key a as
    obtain ⟨c, cs, hrest, hc⟩ := exists_membersChars_eq_cons as
    have hmore : 0 < (membersChars false as).length := by rw [hrest]; exact Nat.succ_pos _
    obtain ⟨fuel, rfl⟩ := Nat.exists_eq_add_of_le' (show 1 ≤ fuel by omega)
    have hends : EndsNumber (membersChars false as ++ tail) := by
      rw [hrest]
      exact endsNumber_cons hc _
    have hvalue := readValue_chars a hparts.1 hdepth.1 (show _ ≤ fuel by omega) hends
    have hmembers := readMembers_membersChars as false tail hparts.2 hdepth.2
      (show _ ≤ fuel by omega)
    have hcolon := skipSeparators_cons (c := ':') (by decide)
    rw [readMembers, memberAhead_membersChars, ok_bind]
    dsimp only
    rw [readString_quoted, ok_bind]
    dsimp only
    rw [afterColon, hcolon]
    dsimp only
    rw [if_pos rfl, ok_bind, hvalue, ok_bind, hmembers]
    rfl

end

/-! ## How deep readers go -/

/-- A member that is set nests no deeper than it or the members before. -/
theorem memberNesting_setMember_le (key : String) (value : Json) :
    ∀ members : List (String × Json),
      memberNesting (setMember key value members) ≤ max value.nesting (memberNesting members)
  | [] => Nat.le_refl _
  | (k, v) :: members => by
    have hrest := memberNesting_setMember_le key value members
    rw [setMember]
    split <;> simp only [memberNesting] <;> omega

/-- An object nests no deeper than the members that it is made of. -/
theorem nesting_ofMembers_le (members : List (String × Json)) :
    (ofMembers members).nesting ≤ memberNesting members + 1 := by
  have hfold : ∀ (members before : List (String × Json)),
      memberNesting (members.foldl (fun ms m => setMember m.1 m.2 ms) before) ≤
        max (memberNesting before) (memberNesting members) := by
    intro members
    induction members with
    | nil => exact fun before => Nat.le_max_left _ _
    | cons m members ih =>
      intro before
      have hset := memberNesting_setMember_le m.1 m.2 before
      have hrest := ih (setMember m.1 m.2 before)
      rw [List.foldl_cons]
      simp only [memberNesting]
      omega
  have hmembers := hfold members []
  rw [ofMembers, nesting]
  simp only [memberNesting] at hmembers
  omega

mutual

/-- A document that is read has distinct keys, and nests no deeper than the reader is allowed to
go. -/
theorem readValue_bounds : ∀ {fuel depth : Nat} {cs rest : List Char} {j : Json},
    readValue fuel depth cs = .ok (j, rest) → j.HasDistinctKeys ∧ j.nesting ≤ depth
  | fuel + 1, depth, cs, rest, j, h => by
    rw [readValue] at h
    split at h
    · cases h
    iterate 6
      split at h
      · simp only [bind_eq_ok] at h
        obtain ⟨_, -, heq⟩ := h
        cases heq
        exact ⟨trivial, Nat.zero_le _⟩
    split at h
    · cases depth with
      | zero => cases h
      | succ depth =>
        simp only [bind_eq_ok] at h
        obtain ⟨⟨items, _⟩, hitems, heq⟩ := h
        cases heq
        exact (readItems_bounds hitems).imp_right Nat.succ_le_succ
    split at h
    · cases depth with
      | zero => cases h
      | succ depth =>
        simp only [bind_eq_ok] at h
        obtain ⟨⟨members, _⟩, hmembers, heq⟩ := h
        cases heq
        obtain ⟨hkeys, hdepth⟩ := readMembers_bounds hmembers
        exact ⟨hasDistinctKeys_ofMembers (membersHaveDistinctKeys_iff.1 hkeys),
          Nat.le_trans (nesting_ofMembers_le members) (Nat.succ_le_succ hdepth)⟩
    · cases h

theorem readItems_bounds : ∀ {fuel depth : Nat} {first : Bool} {cs rest : List Char}
    {items : List Json}, readItems fuel depth first cs = .ok (items, rest) →
      ItemsHaveDistinctKeys items ∧ itemNesting items ≤ depth
  | fuel + 1, depth, first, cs, rest, items, h => by
    simp only [readItems, bind_eq_ok] at h
    obtain ⟨ahead, -, h⟩ := h
    cases ahead with
    | none =>
      obtain ⟨_, -, heq⟩ := bind_eq_ok.1 h
      cases heq
      exact ⟨trivial, Nat.zero_le _⟩
    | some ahead =>
      simp only [bind_eq_ok] at h
      obtain ⟨⟨a, _⟩, ha, ⟨as, _⟩, has, heq⟩ := h
      cases heq
      obtain ⟨hkeys, hdepth⟩ := readValue_bounds ha
      obtain ⟨hkeys', hdepth'⟩ := readItems_bounds has
      exact ⟨⟨hkeys, hkeys'⟩, Nat.max_le.2 ⟨hdepth, hdepth'⟩⟩

theorem readMembers_bounds : ∀ {fuel depth : Nat} {first : Bool} {cs rest : List Char}
    {members : List (String × Json)}, readMembers fuel depth first cs = .ok (members, rest) →
      MembersHaveDistinctKeys members ∧ memberNesting members ≤ depth
  | fuel + 1, depth, first, cs, rest, members, h => by
    simp only [readMembers, bind_eq_ok] at h
    obtain ⟨ahead, -, h⟩ := h
    cases ahead with
    | none =>
      obtain ⟨_, -, heq⟩ := bind_eq_ok.1 h
      cases heq
      exact ⟨trivial, Nat.zero_le _⟩
    | some ahead =>
      simp only [bind_eq_ok] at h
      obtain ⟨_, -, _, -, ⟨a, _⟩, ha, ⟨as, _⟩, has, heq⟩ := h
      cases heq
      obtain ⟨hkeys, hdepth⟩ := readValue_bounds ha
      obtain ⟨hkeys', hdepth'⟩ := readMembers_bounds has
      exact ⟨⟨hkeys, hkeys'⟩, Nat.max_le.2 ⟨hdepth, hdepth'⟩⟩

end

/-- A document that a text is has distinct keys, and nests no deeper than documents may. -/
theorem read_bounds {s : String} {j : Json} (h : read s = .ok j) :
    j.HasDistinctKeys ∧ j.nesting ≤ depthLimit := by
  simp only [read, readChars, bind_eq_ok] at h
  obtain ⟨⟨_, _⟩, hvalue, _, -, heq⟩ := h
  cases heq
  exact readValue_bounds hvalue

/-! ## Documents that are read as they were written -/

/-- A number that is read begins with a sign or a digit. -/
theorem readNumber_of_readValue {fuel depth : Nat} {c : Char} {cs rest : List Char}
    {n : JsonNumber} (hc : isSeparator c = false)
    (h : readValue fuel depth (c :: cs) = .ok (.number n, rest)) :
    (c = '-' ∧ readNumber true cs = .ok (n, rest)) ∨
      (c.isDigit = true ∧ readNumber false (c :: cs) = .ok (n, rest)) := by
  cases fuel with
  | zero => cases h
  | succ fuel =>
    rw [readValue, skipSeparators_cons hc] at h
    dsimp only at h
    -- the words before the numbers give documents of other kinds
    iterate 4
      split at h
      · simp only [bind_eq_ok] at h
        obtain ⟨_, -, heq⟩ := h
        cases heq
    split at h
    · next hsign =>
      simp only [bind_eq_ok] at h
      obtain ⟨⟨m, more⟩, hread, heq⟩ := h
      cases heq
      exact .inl ⟨hsign, hread⟩
    split at h
    · next hdigit =>
      simp only [bind_eq_ok] at h
      obtain ⟨⟨m, more⟩, hread, heq⟩ := h
      cases heq
      exact .inr ⟨hdigit, hread⟩
    iterate 2
      split at h
      · cases depth with
        | zero => cases h
        | succ depth =>
          simp only [bind_eq_ok] at h
          obtain ⟨_, -, heq⟩ := h
          cases heq
    cases h

/-- A number that is read as it was written is spelled by its text. -/
theorem spells_of_readsBack {n : JsonNumber} (h : (Json.number n).ReadsBack) :
    Spells n (numberText n) := by
  have hchars : (Json.number n).compact.toList = numberText n := by
    rw [compact, String.toList_ofList, chars]
  simp only [ReadsBack, read, readChars, hchars, bind_eq_ok] at h
  obtain ⟨⟨k, rest⟩, hvalue, ⟨⟩, hend, heq⟩ := h
  cases heq
  dsimp only at hend
  cases hcs : numberText n with
  | nil =>
    rw [hcs] at hvalue
    cases hvalue
  | cons c cs =>
    have hnumeral : ∀ d ∈ c :: cs, isSeparator d = false :=
      fun d hd => (isNumeral_of_mem_numberText (hcs ▸ hd)).isSeparator
    -- nothing but blanks may follow a number, and its text has none
    have hrest : rest <:+ c :: cs → rest = [] := by
      intro hsuffix
      cases rest with
      | nil => rfl
      | cons d ds =>
        have hd := hnumeral d (hsuffix.subset List.mem_cons_self)
        rw [expectEnd, skipSeparators_cons hd] at hend
        cases hend
    rw [hcs] at hvalue
    rcases readNumber_of_readValue (hnumeral c List.mem_cons_self) hvalue with
      ⟨rfl, hread⟩ | ⟨hdigit, hread⟩
    · rw [hrest ((readNumber_suffix hread).trans (List.suffix_cons _ _))] at hread
      exact .signed hread
    · rw [hrest (readNumber_suffix hread)] at hread
      exact .unsigned hdigit hread

/-- What is expected of a document is what reading asks of its parts. -/
theorem isReadable_of_mem_parts {d : Document} {k : Json} (hfloats : d.json.HasReadableFloats)
    (hk : k ∈ d.json.parts) : k.IsReadable := by
  cases k with
  | number n =>
    cases n with
    | int m fits => exact spells_intText fits
    | float x finite => exact spells_of_readsBack (hfloats x finite hk)
  | object members => exact nodup_of_mem_parts d.keys hk
  | _ => trivial

/-- A document with floats that are read as they were written is read as it was written, unless it
nests too deep. -/
theorem readsBack_iff {d : Document} (hfloats : d.json.HasReadableFloats) :
    d.json.ReadsBack ↔ d.json.nesting ≤ depthLimit := by
  refine ⟨fun h => (read_bounds h).2, fun hdepth => ?_⟩
  have hparts : ∀ k ∈ d.json.parts, k.IsReadable := fun k hk => isReadable_of_mem_parts hfloats hk
  have hchars : d.json.compact.toList = chars d.json ++ [] := by
    rw [compact, String.toList_ofList, List.append_nil]
  have hfuel : (chars d.json).length ≤ 2 * (chars d.json ++ []).length + 1 := by
    rw [List.append_nil]
    omega
  have hend : EndsNumber [] := fun c hc => nomatch hc
  rw [ReadsBack, read, hchars, readChars, fuelFor, readValue_chars d.json hparts hdepth hfuel hend]
  rfl

end EntitySql.Json
