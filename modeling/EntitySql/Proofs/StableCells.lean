import EntitySql.Proofs.BulkRows
import EntitySql.Proofs.DocumentColumns
import EntitySql.Proofs.IntegerOperands
import Mathlib.Data.List.Nodup

/-!
# Cells that are read and written back

A converter takes values of other kinds than its own and stores them in its own
form. What it stored it reads, and what it reads it stores in the same form
again, so that a record can be read and written back any number of times. Only
dates are cut off when they are stored, and only a text column with a document
needs a reader that takes back what was written.

- `Converter.Keeps`, `Converter.Stores`: stored values that are kept, and values
  whose stored form is.
- `Converter.fixed_of_toStored`, `Converter.keeps_jsonText`: why it is.
- `Store.exists_writtenValues`: the cells of a row that is read and written back.
- `Converter.reading_does_not_drift`: all of this.
-/

namespace EntitySql

/-! ## Stored values -/

namespace Converter

/-- A stored value is kept: it can be read, and what is read of it is stored as it again. -/
def Keeps (c : Converter) (stored : Value) : Prop :=
  ∃ b, c.ofStored stored = .ok b ∧ c.toStored b = .ok stored

/-- A value is stored, and neither as a date, which is cut off, nor as the text of a document that
is not read as it was written: of such a document each float by itself is read as it was written,
and it nests no deeper than documents may. -/
structure Stores (c : Converter) (v stored : Value) : Prop where
  stored : c.toStored v = .ok stored
  not_date : c ≠ .date
  document : c = .jsonText → v.toJson.HasReadableFloats ∧ v.toJson.nesting ≤ Json.depthLimit

variable {c : Converter} {v stored : Value}

/-- What is found for a value is made of something. -/
theorem exists_of_orMismatch {α : Type} {wanted : String} {v w : Value} {found : Option α}
    {make : α → Value} (h : orMismatch wanted v (found.map make) = .ok w) : ∃ a, w = make a := by
  cases found with
  | none => cases h
  | some a =>
    cases h
    exact ⟨a, rfl⟩

theorem toInteger_fixed (h : toInteger v = .ok stored) : toInteger stored = .ok stored := by
  cases v with
  | float x =>
    obtain ⟨n, rfl⟩ := exists_of_orMismatch h
    rfl
  | text s =>
    obtain ⟨n, rfl⟩ := exists_of_orMismatch h
    rfl
  | _ => cases h <;> rfl

theorem toNumber_fixed (h : toNumber v = .ok stored) : toNumber stored = .ok stored := by
  cases v with
  | text s =>
    obtain ⟨n, rfl⟩ := exists_of_orMismatch h
    rfl
  | _ => cases h <;> rfl

theorem toText_fixed (h : toText v = .ok stored) : toText stored = .ok stored := by
  cases v <;> cases h <;> rfl

theorem toBoolean_fixed (h : toBoolean v = .ok stored) : toBoolean stored = .ok stored := by
  cases v with
  | text s =>
    obtain ⟨n, rfl⟩ := exists_of_orMismatch h
    rfl
  | _ => cases h <;> rfl

/-- What is stored without being written as a text is read and stored as it is. -/
theorem fixed_of_toStored (hdate : c ≠ .date) (htext : c ≠ .jsonText)
    (h : c.toStored v = .ok stored) :
    c.ofStored stored = .ok stored ∧ c.toStored stored = .ok stored := by
  cases c with
  | integer => exact ⟨toInteger_fixed h, toInteger_fixed h⟩
  | number => exact ⟨toNumber_fixed h, toNumber_fixed h⟩
  | text => exact ⟨toText_fixed h, toText_fixed h⟩
  | boolean => exact ⟨toBoolean_fixed h, toBoolean_fixed h⟩
  | date => exact absurd rfl hdate
  | json => cases v <;> cases h <;> exact ⟨rfl, rfl⟩
  | jsonText => exact absurd rfl htext
  | plain => exact ⟨rfl, rfl⟩

/-- The text of a document is read as the document, which has that text. -/
theorem keeps_jsonText (hfloats : v.toJson.HasReadableFloats)
    (hdepth : v.toJson.nesting ≤ Json.depthLimit) (h : jsonText.toStored v = .ok stored) :
    jsonText.Keeps stored := by
  by_cases hv : v = .null
  · subst hv
    cases h
    exact ⟨.null, rfl, rfl⟩
  · cases (toStored_jsonText hv).symm.trans h
    have hempty : v.toJson.compact.isEmpty = false := isEmpty_compact (d := v.document) hfloats
    have hread : v.toJson.ReadsBack := (Json.readsBack_iff (d := v.document) hfloats).mpr hdepth
    exact ⟨.json v.document, (readDocument_text hempty).mpr hread, rfl⟩

theorem Stores.keeps (h : c.Stores v stored) : c.Keeps stored := by
  by_cases htext : c = .jsonText
  · obtain ⟨hfloats, hdepth⟩ := h.document htext
    subst htext
    exact keeps_jsonText hfloats hdepth h.stored
  · obtain ⟨hread, hwritten⟩ := fixed_of_toStored h.not_date htext h.stored
    exact ⟨stored, hread, hwritten⟩

theorem toStored_null (c : Converter) : c.toStored .null = .ok .null := by
  cases c <;> rfl

theorem ofStored_null (c : Converter) : c.ofStored .null = .ok .null := by
  cases c <;> rfl

/-- What was read of a stored value that is kept is stored as it. -/
theorem Keeps.toStored_of_ofStored (h : c.Keeps stored) {b : Value}
    (hb : c.ofStored stored = .ok b) : c.toStored b = .ok stored := by
  obtain ⟨b', hread, hwritten⟩ := h
  cases hread.symm.trans hb
  exact hwritten

end Converter

/-! ## Rows -/

/-- Among pairs with keys of their own, each gives its key its value. -/
theorem Record.get?_ofPairs_of_mem {pairs : List (String × Value)}
    (hkeys : (pairs.map Prod.fst).Nodup) {p : String × Value} (hp : p ∈ pairs) :
    (ofPairs pairs).get? p.1 = some p.2 := by
  let value (key : String) : Option Value := (pairs.find? fun a => a.1 == key).map Prod.snd
  have hfind : ∀ q ∈ pairs, value q.1 = some q.2 := by
    intro q hq
    show (pairs.find? fun a => a.1 == q.1).map Prod.snd = some q.2
    cases hfound : pairs.find? fun a => a.1 == q.1 with
    | none => exact absurd (by simp) (List.find?_eq_none.1 hfound q hq)
    | some a =>
      have hkey : a.1 = q.1 := by simpa using List.find?_some hfound
      rw [List.inj_on_of_nodup_map hkeys (List.mem_of_find?_eq_some hfound) hq hkey]
      rfl
  have hget := get?_ofPairs hfind p.1
  rw [if_pos (List.mem_map_of_mem hp)] at hget
  exact hget.trans (hfind p hp)

namespace Store

variable {e : Entity} {row : List Value}

/-- Cells that are kept are read as values of their fields that are stored as the cells again. -/
theorem exists_decodeCells_of_keeps {fs : List Field} {place : Nat}
    (hlength : place + fs.length ≤ row.length)
    (hkept : ∀ p ∈ fs.zip (row.drop place), p.1.converter.Keeps p.2) :
    ∃ pairs, decodeCells e row place fs = .ok pairs ∧ pairs.map Prod.fst = fs.map Field.key ∧
      ∀ p ∈ fs.zip (row.drop place), ∃ b, (p.1.key, b) ∈ pairs ∧
        p.1.converter.toStored b = .ok p.2 := by
  induction fs generalizing place with
  | nil => exact ⟨[], rfl, rfl, by simp⟩
  | cons f fs ih =>
    rw [List.length_cons] at hlength
    have hplace : place < row.length := by omega
    rw [List.drop_eq_getElem_cons hplace, List.zip_cons_cons] at hkept ⊢
    obtain ⟨⟨b, hread, hwritten⟩, hkept⟩ := List.forall_mem_cons.mp hkept
    obtain ⟨pairs, hpairs, hkeys, hcells⟩ := ih (by omega) hkept
    refine ⟨(f.key, b) :: pairs, ?_, ?_, ?_⟩
    · rw [decodeCells, decodeCell, List.getElem?_eq_getElem hplace]
      simp only [hread, hpairs, ok_bind]
    · rw [List.map_cons, List.map_cons, hkeys]
    · intro p hp
      rcases List.mem_cons.mp hp with rfl | hp
      · exact ⟨b, List.mem_cons_self, hwritten⟩
      · obtain ⟨b', hmem, hb'⟩ := hcells p hp
        exact ⟨b', List.mem_cons_of_mem _ hmem, hb'⟩

/-- Fields that a record gives values to that are stored in given forms are written in these. -/
theorem storedValues_map {r : Record} {skipNulls : Bool} : ∀ {cells : List (Field × Value)},
    (∀ p ∈ cells, ∃ b, r.get? p.1.key = some b ∧ p.1.converter.toStored b = .ok p.2) →
    storedValues r skipNulls (cells.map Prod.fst) =
      .ok (cells.filter fun p => !(skipNulls && p.2.isNull))
  | [], _ => rfl
  | p :: cells, h => by
    obtain ⟨⟨b, hget, hstored⟩, h⟩ := List.forall_mem_cons.mp h
    rw [List.map_cons, storedValues, hget]
    simp only [hstored, storedValues_map h, ok_bind, List.filter_cons]
    cases skipNulls && p.2.isNull <;> rfl

/-- The fields that statements may write are fields that are read. -/
theorem filter_selected (e : Entity) : e.selected.filter (fun f => !f.isReadOnly) = e.writable := by
  rw [Entity.selected, Entity.writable, List.filter_filter]
  refine List.filter_congr fun f _ => ?_
  cases hserver : f.isServerExpression <;> simp [Field.isReadOnly, Field.hasColumn, hserver]

/-- A row is read as a record that gives each field a value that is stored as the cell again. -/
theorem exists_decodeRow_of_keeps (he : e.IsSound) (hlength : e.selected.length ≤ row.length)
    (hkept : ∀ p ∈ e.selected.zip row, p.1.converter.Keeps p.2) :
    ∃ r, decodeRow e row = .ok r ∧ ∀ p ∈ e.selected.zip row,
      ∃ b, r.get? p.1.key = some b ∧ p.1.converter.toStored b = .ok p.2 := by
  rw [← row.drop_zero] at hkept
  obtain ⟨pairs, hpairs, hkeys, hcells⟩ :=
    exists_decodeCells_of_keeps (e := e) ((Nat.zero_add _).symm ▸ hlength) hkept
  have hnodup : (pairs.map Prod.fst).Nodup := by
    rw [hkeys]
    exact List.pairwise_map.mpr (he.keys.sublist List.filter_sublist)
  refine ⟨.ofPairs pairs, by rw [decodeRow, hpairs, ok_bind], fun p hp => ?_⟩
  rw [← row.drop_zero] at hp
  obtain ⟨b, hmem, hstored⟩ := hcells p hp
  exact ⟨b, Record.get?_ofPairs_of_mem hnodup hmem, hstored⟩

/-- Of a record that was read of a row and is written back, statements write the cells of the row,
or those of them that are not NULL. -/
theorem exists_writtenValues (he : e.IsSound) (hlength : e.selected.length ≤ row.length)
    (hkept : ∀ p ∈ e.selected.zip row, p.1.converter.Keeps p.2) :
    ∃ r, decodeRow e row = .ok r ∧ ∀ skipNulls, writtenValues e r skipNulls =
      .ok ((e.selected.zip row).filter fun p =>
        !p.1.isReadOnly && !(skipNulls && p.2.isNull)) := by
  obtain ⟨r, hread, hcells⟩ := exists_decodeRow_of_keeps he hlength hkept
  refine ⟨r, hread, fun skipNulls => ?_⟩
  have hfields : ((e.selected.zip row).filter fun p => !p.1.isReadOnly).map Prod.fst =
      e.writable := by
    have hmap : (e.selected.zip row).map Prod.fst = e.selected := List.map_fst_zip hlength
    conv_rhs => rw [← filter_selected, ← hmap, List.filter_map]
    rfl
  rw [writtenValues, ← hfields, storedValues_map fun p hp => hcells p (List.mem_of_mem_filter hp),
    List.filter_filter]
  simp only [Bool.and_comm]

end Store

/-! ## Filters -/

/-- Values that were read of stored values that are kept are stored as these. -/
theorem Converter.map_stored_of_forall₂ {c : Converter} {read stored : List Value}
    (h : List.Forall₂ (fun b s => c.toStored b = .ok s) read stored) :
    read.map c.stored = stored := by
  induction h with
  | nil => rfl
  | cons hb _ ih => rw [List.map_cons, stored_of_toStored hb, ih]

/-- What the converters store does not change by being read and written back. This says nothing of
dates, and of documents in text columns only what holds of those that are read as they were written.
NULL stays NULL in both directions, and no other value becomes NULL; a stored value can be read, and
what is read of it is stored as it again. So of a row that is read as a record and written back,
statements write the same cells, and a filter with values that were read binds the values that are
stored. -/
theorem Converter.reading_does_not_drift :
    (∀ c : Converter, c.toStored .null = .ok .null ∧ c.ofStored .null = .ok .null ∧
        ∀ v stored, c.toStored v = .ok stored → stored.isNull = v.isNull) ∧
      (∀ (c : Converter) (v stored : Value), c.Stores v stored → c.Keeps stored) ∧
      (∀ (e : BuiltEntity) (db : Database) (row : List Value),
        (db.stored e).selected.length ≤ row.length →
        (∀ p ∈ (db.stored e).selected.zip row, p.1.converter.Keeps p.2) →
        ∃ r, Store.decodeRow (db.stored e) row = .ok r ∧
          ∀ skipNulls, Store.writtenValues (db.stored e) r skipNulls =
            .ok (((db.stored e).selected.zip row).filter fun p =>
              !p.1.isReadOnly && !(skipNulls && p.2.isNull))) ∧
      ∀ (e : Entity) (names : EntityNames) (key column : String) (field : Field) (f : Filter)
        (read stored : List Value), Condition.lookUp e names key = .ok (field, column) →
        List.Forall₂ (fun b s => field.converter.ofStored s = .ok b ∧ field.converter.Keeps s)
          read stored →
        f.AsksFor key read →
        ∃ template, f.compile e names = .ok (some template) ∧
          template.values = stored.filter fun s => !s.isNull := by
  refine ⟨fun c => ⟨c.toStored_null, c.ofStored_null, fun _ _ => isNull_of_toStored⟩,
    fun _ _ _ => Stores.keeps, ?_, ?_⟩
  · intro e db row hlength hkept
    exact Store.exists_writtenValues (e.isSound.storedAs _) hlength hkept
  · intro e names key column field f read stored hlook hread hasks
    have hstored := hread.imp fun b s h => h.2.toStored_of_ofStored h.1
    rw [← map_stored_of_forall₂ hstored]
    refine hasks.exists_template hlook fun v hv => ?_
    obtain ⟨s, -, hs⟩ := exists_of_forall₂ hstored v hv
    exact ⟨s, hs⟩

/-- A page is read from a database without columns for documents and written back, and its title is
looked for. -/
theorem Converter.reading_does_not_drift_page :
    let db : Database := .root .sqlite .off
    let row : List Value := [.integer 5, .text "[true,null]", .text "a"]
    ∃ r, Store.decodeRow (db.stored page) row = .ok r ∧
      Store.writtenValues (db.stored page) r false = .ok ((db.stored page).selected.zip row) ∧
      ∃ template, (Filter.compare "title" .eq (.text "a")).compile (db.stored page)
          (.resolve (db.stored page) .bare) = .ok (some template) ∧
        template.values = [.text "a"] := by
  intro db row
  obtain ⟨-, hkeeps, hrows, hfilters⟩ := reading_does_not_drift
  have hinteger : integer.Keeps (.integer 5) :=
    hkeeps .integer (.text " 5 ") _ ⟨rfl, nofun, nofun⟩
  have htext : text.Keeps (.text "a") := hkeeps .text (.text "a") _ ⟨rfl, nofun, nofun⟩
  have hdocument : jsonText.Keeps (.text "[true,null]") := by
    refine hkeeps .jsonText (.ofJson (.array [.bool true, .null])) _
      ⟨rfl, nofun, fun _ => ⟨?_, ?_⟩⟩
    · intro x finite hx
      simp [Value.ofJson, Value.toJson, Json.keyed, Json.keyedItems, Json.parts, Json.itemParts]
        at hx
    · decide
  have hkept : ∀ p ∈ (db.stored page).selected.zip row, p.1.converter.Keeps p.2 := by
    intro p hp
    have hp : p ∈ [(Field.ofType "id" .integer, Value.integer 5),
      ({ Field.ofType "settings" .json with converter := .jsonText }, .text "[true,null]"),
      (Field.ofType "title" .text, .text "a")] := hp
    simp only [List.mem_cons, List.not_mem_nil, or_false] at hp
    rcases hp with rfl | rfl | rfl
    · exact hinteger
    · exact hdocument
    · exact htext
  obtain ⟨r, hread, hwritten⟩ :=
    hrows builtPage db row (by decide) hkept
  obtain ⟨template, hcompile, hvalues⟩ := hfilters (db.stored page)
    (.resolve (db.stored page) .bare) "title" "title" (.ofType "title" .text) _ [.text "a"]
    [.text "a"] rfl (.cons ⟨rfl, htext⟩ .nil) (.compare .eq rfl)
  exact ⟨r, hread, hwritten false, template, hcompile, hvalues⟩

end EntitySql
