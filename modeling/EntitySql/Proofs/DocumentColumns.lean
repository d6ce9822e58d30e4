import EntitySql.Proofs.Built
import EntitySql.Proofs.DocumentTexts
import EntitySql.Session.Database

/-!
# Documents with and without a column type of their own

A database that has no type for documents keeps them in text columns. The entity
is changed for it, in the converters of its document fields and nowhere else,
and the application reads the same values from either database.

- `Converter.readBack`, `Entity.readBack`: what is read of a value that was
  written.
- `Field.withTextDocuments`, `Entity.storedAs_false_of_isSound`: what is changed of
  an entity.
- `Converter.readBack_jsonText_iff`: the values that a text column gives back as a
  document column does.
- `Database.documents_read_alike`: both facts, for two databases.
-/

namespace EntitySql

/-! ## Values that are read back -/

/-- What is read of a value that was written with the converter. -/
def Converter.readBack (c : Converter) (v : Value) : Except Failure Value := do
  let stored ← c.toStored v
  c.ofStored stored

/-- What is read of a value that was written to a field. -/
def Entity.readBack (e : Entity) (key : String) (v : Value) : Except Failure Value := do
  let f ← e.field key
  f.converter.readBack v

namespace Converter

/-- A document column gives a value back as the document that it is. -/
theorem readBack_json (v : Value) : json.readBack v = .ok (toDocument v) := by
  cases v <;> rfl

theorem toDocument_of_ne {v : Value} (hv : v ≠ .null) : toDocument v = .json v.document := by
  cases v with
  | null => exact absurd rfl hv
  | _ => rfl

/-- A text column holds the text of the document that a value is. -/
theorem toStored_jsonText {v : Value} (hv : v ≠ .null) :
    jsonText.toStored v = .ok (.text v.toJson.compact) := by
  cases v with
  | null => exact absurd rfl hv
  | _ => rfl

/-- A text column gives a value back as the document that its text is. -/
theorem readBack_jsonText {v : Value} (hv : v ≠ .null) :
    jsonText.readBack v = readDocument (.text v.toJson.compact) := by
  rw [readBack, toStored_jsonText hv, ok_bind, ofStored]

/-- A text is read as a document if it is one. -/
theorem readDocument_text {s : String} {d : Document} (hs : s.isEmpty = false) :
    readDocument (.text s) = .ok (.json d) ↔ Json.read s = .ok d.json := by
  rw [readDocument]
  simp only [hs, Bool.false_eq_true, if_false]
  cases hread : Json.read s with
  | error fault => simp
  | ok j =>
    have hkeyed : j.keyed = j := Json.keyed_of_hasDistinctKeys (Json.read_bounds hread).1
    simp [Document.ext_iff, hkeyed]

/-- The text of a document is not empty. -/
theorem isEmpty_compact {d : Document} (hfloats : d.json.HasReadableFloats) :
    d.json.compact.isEmpty = false := by
  have hreadable := Json.isReadable_of_mem_parts hfloats (Json.self_mem_parts d.json)
  rw [Bool.eq_false_iff, Ne, String.isEmpty_iff, ← String.toList_eq_nil_iff, Json.compact,
    String.toList_ofList]
  exact List.ne_nil_of_length_pos (Json.length_chars_pos hreadable)

/-- A text column gives a value back as a document column does, unless its document nests deeper
than documents may. -/
theorem readBack_jsonText_iff {v : Value} (hfloats : v.toJson.HasReadableFloats) :
    jsonText.readBack v = json.readBack v ↔ v.toJson.nesting ≤ Json.depthLimit := by
  by_cases hv : v = .null
  · -- NULL passes both converters
    subst hv
    exact iff_of_true rfl (Nat.zero_le _)
  · have hempty : v.toJson.compact.isEmpty = false := isEmpty_compact (d := v.document) hfloats
    rw [readBack_json, readBack_jsonText hv, toDocument_of_ne hv, readDocument_text hempty]
    exact Json.readsBack_iff (d := v.document) hfloats

/-- A converter says that its column is for documents only if it is the one for documents. -/
theorem typeHint_eq_json {c : Converter} : c.typeHint = some "json" ↔ c = .json := by
  cases c <;> decide

end Converter

/-! ## What is changed of an entity -/

/-- The field, with its documents as text. -/
def Field.withTextDocuments (f : Field) : Field :=
  if f.converter = .json then { f with converter := .jsonText } else f

namespace Entity

theorem mem_documentKeys {e : Entity} {key : String} :
    key ∈ e.documentKeys ↔ ∃ f ∈ e.fields, f.key = key ∧ f.converter = .json := by
  simp only [documentKeys, List.mem_map, List.mem_filter, beq_iff_eq, Converter.typeHint_eq_json]
  constructor
  · rintro ⟨f, ⟨hf, hconverter⟩, hkey⟩
    exact ⟨f, hf, hkey, hconverter⟩
  · rintro ⟨f, hf, hkey, hconverter⟩
    exact ⟨f, ⟨hf, hconverter⟩, hkey⟩

/-- Where keys are distinct, the fields that are changed are the document fields. -/
theorem IsSound.storeField_documentKeys {e : Entity} (he : e.IsSound) {f : Field}
    (hf : f ∈ e.fields) : storeField e.documentKeys f = f.withTextDocuments := by
  have hkey : f.key ∈ e.documentKeys ↔ f.converter = .json := by
    rw [mem_documentKeys]
    constructor
    · rintro ⟨g, hg, hsame, hconverter⟩
      rwa [← he.eq_of_key hg hf hsame]
    · exact fun hconverter => ⟨f, hf, rfl, hconverter⟩
  simp only [storeField, Field.withTextDocuments, hkey]

/-- An entity without a column type for documents is the same one but for the converters of its
document fields. -/
theorem IsSound.storedAs_false {e : Entity} (he : e.IsSound) :
    e.storedAs false = { e with fields := e.fields.map Field.withTextDocuments } := by
  rw [Entity.storedAs_false, List.map_congr_left fun f hf => he.storeField_documentKeys hf]

/-- An entity that was changed has no document fields. -/
theorem documentKeys_storedAs_false (e : Entity) : (e.storedAs false).documentKeys = [] := by
  rw [List.eq_nil_iff_forall_not_mem]
  intro key hmem
  rw [mem_documentKeys, Entity.storedAs_false] at hmem
  obtain ⟨g, hg, -, hconverter⟩ := hmem
  obtain ⟨f, hf, rfl⟩ := List.mem_map.1 hg
  unfold storeField at hconverter
  split at hconverter
  · cases hconverter
  · next hkey => exact hkey (mem_documentKeys.2 ⟨f, hf, rfl, hconverter⟩)

theorem storedAs_storedAs (e : Entity) (hasJsonColumns : Bool) :
    (e.storedAs hasJsonColumns).storedAs hasJsonColumns = e.storedAs hasJsonColumns := by
  cases hasJsonColumns with
  | true => rfl
  | false =>
    rw [storedAs, if_neg Bool.false_ne_true, documentKeys_storedAs_false]
    rfl

/-- What is read of a document field where there are no columns for documents. -/
theorem IsSound.readBack_storedAs_false {e : Entity} (he : e.IsSound) {f : Field}
    (hf : f ∈ e.fields) (hjson : f.converter = .json) (v : Value) :
    (e.storedAs false).readBack f.key v = Converter.jsonText.readBack v := by
  have hfield : (e.storedAs false).field f.key = .ok (storeField e.documentKeys f) := by
    rw [Entity.storedAs_false]
    exact field_map_storeField _ (he.field_of_mem hf)
  rw [readBack, hfield, ok_bind, he.storeField_documentKeys hf, Field.withTextDocuments,
    if_pos hjson]

end Entity

/-! ## Two databases -/

/-- **Applications read the same documents from all databases.** Where there is no type of columns
for documents the entity is changed in the converters of its document fields and in nothing else,
and changing it again changes nothing. What is read of a value that was written to a document field
is the document that it is, and the same from both databases if and only if the document nests no
deeper than documents may. That its floats, each by itself, are read as they are written is all that
is asked of it. -/
theorem Database.documents_read_alike {db native : Database}
    (hdb : db.dialect.capabilities.jsonColumns = false)
    (hnative : native.dialect.capabilities.jsonColumns = true) (e : BuiltEntity) :
    native.stored e = e ∧
      db.stored e = { e with fields := e.fields.map Field.withTextDocuments } ∧
      db.stored (db.stored e) = db.stored e ∧
      ∀ f ∈ e.fields, f.converter = .json → ∀ v : Value, v.toJson.HasReadableFloats →
        (native.stored e).readBack f.key v = .ok (Converter.toDocument v) ∧
        ((db.stored e).readBack f.key v = (native.stored e).readBack f.key v ↔
          v.toJson.nesting ≤ Json.depthLimit) := by
  have he := e.isSound
  have hsame : native.stored e = e := by
    rw [stored, hnative]
    rfl
  have htext : db.stored e = e.storedAs false := by rw [stored, hdb]
  refine ⟨hsame, ?_, ?_, fun f hf hjson v hfloats => ?_⟩
  · rw [htext, he.storedAs_false]
  · rw [htext, stored, hdb, Entity.storedAs_storedAs]
  · have hread : (native.stored e).readBack f.key v = Converter.json.readBack v := by
      rw [hsame, Entity.readBack, he.field_of_mem hf, ok_bind, hjson]
    rw [htext, hread, he.readBack_storedAs_false hf hjson]
    exact ⟨Converter.readBack_json v, Converter.readBack_jsonText_iff hfloats⟩

/-- A page with its settings as a document. -/
def page : Entity :=
  { key := "page", table := "page", identity := ["id"]
    fields := [.ofType "id" .integer, .ofType "settings" .json, .ofType "title" .text] }

def builtPage : BuiltEntity := ⟨page, "page", none, page.fields, [], rfl⟩

/-- One and a half. -/
def oneAndHalf : Float := .ofBits 0x3FF8000000000000

/-- Settings with a float, a line break, quotes and a document inside. -/
def pageSettings : Document where
  json := .object [("zoom", .number (.float oneAndHalf (by decide))),
    ("note", .text "two\n\"lines\""), ("tags", .array [.array [.null], .bool true])]
  keys := by
    simp [Json.HasDistinctKeys, Json.MembersHaveDistinctKeys, Json.ItemsHaveDistinctKeys]

/-- The settings of a page are read alike from a database with columns for documents and from one
without. -/
theorem Database.documents_read_alike_settings :
    let text : Database := .root .sqlite .off
    let native : Database := .root .postgres .off
    (native.stored page).readBack "settings" (.json pageSettings) = .ok (.json pageSettings) ∧
      (text.stored page).readBack "settings" (.json pageSettings) = .ok (.json pageSettings) := by
  intro text native
  have hfloats : pageSettings.json.HasReadableFloats := by
    intro x finite hx
    simp only [pageSettings, Json.parts, Json.memberParts, Json.itemParts, List.nil_append,
      List.cons_append, List.mem_cons, List.not_mem_nil, or_false, false_or, reduceCtorEq,
      Json.number.injEq, JsonNumber.float.injEq] at hx
    subst hx
    have htext : (Json.number (.float oneAndHalf (by decide))).compact = "1.5" := by
      decide +kernel
    rw [Json.ReadsBack, htext]
    rfl
  obtain ⟨-, -, -, hread⟩ :=
    @documents_read_alike text native rfl rfl builtPage
  obtain ⟨hnative, halike⟩ := hread (.ofType "settings" .json) (by decide) rfl (.json pageSettings)
    hfloats
  exact ⟨hnative, (halike.2 (by decide)).trans hnative⟩

end EntitySql
