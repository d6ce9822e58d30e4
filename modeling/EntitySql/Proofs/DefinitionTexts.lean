import EntitySql.Entity.Definition.Reader
import EntitySql.Proofs.DocumentTexts

/-!
# Definitions, written and read

A definition is read from its text without a document in between, so the text
of its document has to be what the reader expects at each place: a text, a flag,
a type, `null`, a list or an object. Each reader is told by the document that it
reads back, whatever comes after it. An object is read member by member, and
each member adds its part to what is known.

Whatever text a definition was read from, the text that is written of it is
read as the same definition, and so gives the same entity or the same failure.

- `DefinitionReader.Reads`: a reader takes a document for a value.
- `DefinitionReader.Collects`: what is known after the members of an object.
- `DefinitionReader.reads_structure`: objects, from their members.
- `EntityDefinition.read_compact`: a definition is read from its own text.
- `EntityDefinition.round_trip`: so is every definition that was read.
-/

namespace EntitySql

namespace DefinitionReader

open Json (chars itemsChars membersChars)

/-- The reader takes the document for the value, and goes no further. -/
def Reads {α : Type} (item : Read α) (j : Json) (a : α) : Prop :=
  ∀ tail, item (chars j ++ tail) = .ok (a, tail)

/-! ## Scalars -/

/-- A quoted text, with what comes after it. -/
theorem chars_text_append (s : String) (tail : List Char) :
    chars (.text s) ++ tail = '"' :: (s.toList.flatMap Json.escaped ++ '"' :: tail) := by
  rw [chars, Json.quoted, List.cons_append, List.cons_append, List.append_assoc,
    List.singleton_append]

theorem reads_text (expected s : String) : Reads (readText expected) (.text s) s := by
  intro tail
  have hquote := Json.skipSeparators_cons (c := '"') (by decide)
  rw [chars_text_append, readText, hquote]
  dsimp only
  rw [if_pos rfl, Json.readString_quoted, inDocument]

theorem reads_bool (b : Bool) : Reads readBool (.bool b) b := by
  intro tail
  cases b <;> simp [chars, readBool, Json.skipSeparators, Json.isSeparator, Json.readKeyword,
    inDocument]

theorem reads_optionalText (s? : Option String) :
    Reads readOptionalText (optionalText s?) s? := by
  intro tail
  cases s? with
  | none =>
    simp [optionalText, chars, readOptionalText, Json.skipSeparators, Json.isSeparator,
      Json.readKeyword, inDocument]
  | some s =>
    have hquote := Json.skipSeparators_cons (c := '"') (by decide)
    have htext := reads_text "a string" s tail
    rw [chars_text_append] at htext
    rw [optionalText, chars_text_append, readOptionalText, hquote]
    show (readText "a string" _ >>= fun found => .ok (some found.1, found.2)) = _
    rw [htext, ok_bind]

theorem reads_type (t : FieldType) : Reads readType (.text t.name) t := by
  intro tail
  have hquote := Json.skipSeparators_cons (c := '"') (by decide)
  rw [chars_text_append, readType, hquote]
  dsimp only
  rw [if_pos rfl, Json.readString_quoted, inDocument, ok_bind]
  dsimp only
  rw [typeNamed, FieldType.ofName?_name, ok_bind]

/-! ## Lists -/

/-- There are no more items than characters. -/
theorem length_lt_itemsChars : ∀ (first : Bool) (items : List Json),
    (∀ a ∈ items, a.IsReadable) → items.length < (itemsChars first items).length
  | true, [], _ => by decide
  | false, [], _ => by decide
  | first, a :: as, h => by
    rw [List.forall_mem_cons] at h
    have ih := length_lt_itemsChars false as h.2
    have hpos := Json.length_chars_pos h.1
    have hle := Json.length_itemsChars_cons first a as
    rw [List.length_cons]
    omega

/-- The items of a list are read up to its closing bracket. -/
theorem readItems_itemsChars {α : Type} {item : Read α} {document : α → Json}
    (hreadable : ∀ a, (document a).IsReadable) : ∀ {as : List α} {fuel : Nat} (first : Bool)
      (tail : List Char), (∀ a ∈ as, Reads item (document a) a) → as.length < fuel →
        readItems item fuel first (itemsChars first (as.map document) ++ tail) = .ok (as, tail)
  | [], fuel, first, tail, _, hfuel => by
    obtain ⟨fuel, rfl⟩ := Nat.exists_eq_add_of_le' hfuel
    have hbracket := Json.skipSeparators_cons (c := ']') (by decide) tail
    have hchars : itemsChars first [] = [']'] := by cases first <;> rfl
    simp [hchars, readItems, Json.itemAhead, Json.closeArray, hbracket, inDocument]
  | a :: as, fuel, first, tail, h, hfuel => by
    obtain ⟨fuel, rfl⟩ := Nat.exists_eq_add_of_le' (Nat.lt_of_le_of_lt (Nat.zero_le _) hfuel)
    rw [List.forall_mem_cons] at h
    have hmore := readItems_itemsChars hreadable false tail h.2 (Nat.lt_of_succ_lt_succ hfuel)
    rw [List.map_cons, readItems, Json.itemAhead_itemsChars (hreadable a), inDocument, ok_bind]
    dsimp only
    rw [h.1, ok_bind, hmore]
    rfl

theorem reads_list {α : Type} {item : Read α} {document : α → Json}
    (hreadable : ∀ a, (document a).IsReadable) (hitem : ∀ a, Reads item (document a) a)
    (as : List α) : Reads (readList item) (.array (as.map document)) as := by
  intro tail
  have hbracket := Json.skipSeparators_cons (c := '[') (by decide)
  have hchars : chars (.array (as.map document)) = '[' :: itemsChars true (as.map document) := by
    rw [chars]
    rfl
  have hlength := length_lt_itemsChars true (as.map document)
    (List.forall_mem_map.2 fun a _ => hreadable a)
  have hfuel : as.length < (itemsChars true (as.map document) ++ tail).length + 1 := by
    rw [List.length_map] at hlength
    rw [List.length_append]
    omega
  rw [hchars, List.cons_append, readList, hbracket]
  dsimp only
  rw [if_pos rfl, readItems_itemsChars hreadable true tail (fun a _ => hitem a) hfuel]

/-! ## Objects -/

/-- What is known after the members of an object, if so much was known before them. -/
inductive Collects {σ : Type} (step : String → σ → Read σ) : σ → List (String × Json) → σ → Prop
  | nil {s : σ} : Collects step s [] s
  | cons {s u v : σ} {key : String} {a : Json} {as : List (String × Json)} :
      (∀ tail, step key s (':' :: (chars a ++ tail)) = .ok (u, tail)) →
        Collects step u as v → Collects step s ((key, a) :: as) v

section

variable {σ α : Type} {step : String → σ → Read σ} {s u : σ} {members : List (String × Json)}

theorem length_lt_membersChars : ∀ (first : Bool) (members : List (String × Json)),
    members.length < (membersChars first members).length
  | true, [] => by decide
  | false, [] => by decide
  | first, (key, a) :: as => by
    have ih := length_lt_membersChars false as
    rw [membersChars] at ih ⊢
    cases first <;> simp [Json.memberChars, Json.moreMemberChars, Json.quoted] at ih ⊢ <;> omega

theorem Collects.readMembers (h : Collects step s members u) : ∀ {fuel : Nat} (first : Bool)
    (tail : List Char), members.length < fuel →
      readMembers step fuel first s (membersChars first members ++ tail) =
        .ok (u, '\x7d' :: tail) := by
  induction h with
  | nil =>
    intro fuel first tail hfuel
    obtain ⟨fuel, rfl⟩ := Nat.exists_eq_add_of_le' hfuel
    have hbrace := Json.skipSeparators_cons (c := '\x7d') (by decide) tail
    have hchars : membersChars first [] = ['\x7d'] := by cases first <;> rfl
    simp [hchars, DefinitionReader.readMembers, Json.memberAhead, hbrace, inDocument]
  | @cons s u v key a as hstep _ ih =>
    intro fuel first tail hfuel
    obtain ⟨fuel, rfl⟩ := Nat.exists_eq_add_of_le' (Nat.lt_of_le_of_lt (Nat.zero_le _) hfuel)
    rw [DefinitionReader.readMembers, Json.memberAhead_membersChars, inDocument, ok_bind]
    dsimp only
    rw [Json.readString_quoted, inDocument, ok_bind]
    dsimp only
    rw [hstep, ok_bind, ih false tail (Nat.lt_of_succ_lt_succ hfuel)]

/-- An object is read if its members are collected into something complete. -/
theorem reads_structure {expected : String} {complete : σ → Except DefinitionFault α}
    {parts : Read α} {a : α} (h : Collects step s members u) (ha : complete u = .ok a) :
    Reads (readStructure expected s step complete parts) (.object members) a := by
  intro tail
  have hbrace := Json.skipSeparators_cons (c := '\x7b') (by decide)
  have hclose := Json.skipSeparators_cons (c := '\x7d') (by decide) tail
  have hchars : chars (.object members) = '\x7b' :: membersChars true members := by
    rw [chars]
    rfl
  have hlength := length_lt_membersChars true members
  have hfuel : members.length < (membersChars true members ++ tail).length + 1 := by
    rw [List.length_append]
    omega
  rw [hchars, List.cons_append, readStructure, hbrace]
  dsimp only
  rw [if_pos rfl, h.readMembers true tail hfuel, ok_bind]
  dsimp only
  rw [ha, ok_bind, Json.closeObject, hclose]
  rfl

/-- A member that has not been seen before is read as its value. -/
theorem readOnce_none {name : String} {item : Read α} {j : Json} {a : α} (h : Reads item j a)
    (tail : List Char) :
    readOnce name none item (':' :: (chars j ++ tail)) = .ok (some a, tail) := by
  have hcolon := Json.skipSeparators_cons (c := ':') (by decide)
  rw [readOnce, Json.afterColon, hcolon]
  dsimp only
  rw [if_pos rfl, inDocument, ok_bind, h, ok_bind]

/-- A member that is read once adds its part to what is known. -/
theorem Collects.once {β : Type} {name : String} {item : Read β} {j : Json} {b : β}
    (set : Option β → σ)
    (hstep : ∀ cs, step name s cs = (do
      let (b?, rest) ← readOnce name none item cs
      .ok (set b?, rest)))
    (hitem : Reads item j b) (hrest : Collects step (set (some b)) members u) :
    Collects step s ((name, j) :: members) u := by
  refine .cons (fun tail => ?_) hrest
  rw [hstep, readOnce_none hitem, ok_bind]

end

/-! ## Fields and entities -/

theorem reads_field (d : FieldDefinition) : Reads readField d.toJson d := by
  have hmembers : Collects fieldMember FieldParts.none
      [("key", .text d.key), ("type", .text d.type.name), ("dbName", optionalText d.dbName),
       ("allowNull", .bool d.allowNull), ("autoIncrement", .bool d.autoIncrement),
       ("dbReadOnly", .bool d.dbReadOnly), ("serverExpression", .bool d.serverExpression),
       ("sqlExpression", optionalText d.sqlExpression)]
      ⟨some d.key, some d.type, some d.dbName, some d.allowNull, some d.autoIncrement,
       some d.dbReadOnly, some d.serverExpression, some d.sqlExpression⟩ := by
    -- one part after the other is filled in
    refine .once (fun a => ⟨a, none, none, none, none, none, none, none⟩) (fun _ => rfl)
      (reads_text "a string" d.key) ?_
    refine .once (fun a => ⟨some d.key, a, none, none, none, none, none, none⟩) (fun _ => rfl)
      (reads_type d.type) ?_
    refine .once (fun a => ⟨some d.key, some d.type, a, none, none, none, none, none⟩)
      (fun _ => rfl) (reads_optionalText d.dbName) ?_
    refine .once (fun a => ⟨some d.key, some d.type, some d.dbName, a, none, none, none, none⟩)
      (fun _ => rfl) (reads_bool d.allowNull) ?_
    refine .once (fun a => ⟨some d.key, some d.type, some d.dbName, some d.allowNull, a, none,
      none, none⟩) (fun _ => rfl) (reads_bool d.autoIncrement) ?_
    refine .once (fun a => ⟨some d.key, some d.type, some d.dbName, some d.allowNull,
      some d.autoIncrement, a, none, none⟩) (fun _ => rfl) (reads_bool d.dbReadOnly) ?_
    refine .once (fun a => ⟨some d.key, some d.type, some d.dbName, some d.allowNull,
      some d.autoIncrement, some d.dbReadOnly, a, none⟩) (fun _ => rfl)
      (reads_bool d.serverExpression) ?_
    exact .once (fun a => ⟨some d.key, some d.type, some d.dbName, some d.allowNull,
      some d.autoIncrement, some d.dbReadOnly, some d.serverExpression, a⟩) (fun _ => rfl)
      (reads_optionalText d.sqlExpression) .nil
  exact reads_structure hmembers rfl

theorem reads_entity (d : EntityDefinition) : Reads readEntity d.toJson d := by
  have hreadable : ∀ f : FieldDefinition, f.toJson.IsReadable := by
    intro f
    show ["key", "type", "dbName", "allowNull", "autoIncrement", "dbReadOnly",
      "serverExpression", "sqlExpression"].Nodup
    decide
  have htext : ∀ s : String, (Json.text s).IsReadable := fun _ => trivial
  have hfields : Reads (readList readField) (.array (d.fields.map FieldDefinition.toJson))
      d.fields := reads_list hreadable reads_field d.fields
  have hid : Reads (readList (readText "a string")) (.array (d.id.map .text)) d.id :=
    reads_list htext (reads_text "a string") d.id
  have hmembers : Collects entityMember EntityParts.none
      [("key", .text d.key), ("dbName", optionalText d.dbName),
       ("fields", .array (d.fields.map FieldDefinition.toJson)), ("id", .array (d.id.map .text))]
      ⟨some d.key, some d.dbName, some d.fields, some d.id⟩ := by
    refine .once (fun a => ⟨a, none, none, none⟩) (fun _ => rfl)
      (reads_text "a string" d.key) ?_
    refine .once (fun a => ⟨some d.key, a, none, none⟩) (fun _ => rfl)
      (reads_optionalText d.dbName) ?_
    refine .once (fun a => ⟨some d.key, some d.dbName, a, none⟩) (fun _ => rfl) hfields ?_
    exact .once (fun a => ⟨some d.key, some d.dbName, some d.fields, a⟩) (fun _ => rfl) hid .nil
  exact reads_structure hmembers rfl

end DefinitionReader

namespace EntityDefinition

/-- A definition is read from the text of its document. -/
theorem read_compact (d : EntityDefinition) : read d.toJson.compact = .ok d := by
  have hread : readChars d.toJson.chars = .ok d := by
    have hentity := DefinitionReader.reads_entity d []
    rw [List.append_nil] at hentity
    rw [readChars, hentity, ok_bind]
    rfl
  rw [read, Json.compact, String.toList_ofList, hread]

/-- Definitions round-trip: every definition is read from the text that is written of it. Whatever
text a definition was read from, reading what is written of it gives the same definition, and the
same entity or failure. -/
theorem round_trip :
    (∀ d : EntityDefinition, read d.toJson.compact = .ok d) ∧
    (∀ s : String, (do
      let d ← read s
      read d.toJson.compact) = read s) ∧
    ∀ s : String, (do
      let d ← read s
      let again ← read d.toJson.compact
      again.toEntity) = (do
        let d ← read s
        d.toEntity) := by
  refine ⟨read_compact, fun s => ?_, fun s => ?_⟩
  · cases read s with
    | error failure => rw [error_bind]
    | ok d => rw [ok_bind, read_compact]
  · cases read s with
    | error failure => rw [error_bind, error_bind]
    | ok d => rw [ok_bind, read_compact, ok_bind]

/-- A definition in the form of arrays, without the parts that may be absent. -/
example : read "[\"note\", null, [[\"id\", \"integer\"]]]" =
    .ok ⟨"note", none, [⟨"id", .integer, none, false, false, false, false, none⟩], []⟩ := by
  rfl

end EntityDefinition

end EntitySql
