import EntitySql.Condition.OfFilter
import EntitySql.Filter.Document
import EntitySql.Proofs.Outcomes
import EntitySql.Proofs.WholeFloats
import Mathlib.Tactic.SplitIfs

/-!
# Filters that travel as documents

A filter is written as a document by one party and read by another. The forms
of documents overlap: a list may be the values that a field is one of, or a
list that the field is compared with, and what is read is decided by the
operator in front of it. There is no form for inequality with a list; what is
written for it says that the field is none of its items.

- `Filter.HasDocument`: filters of which all parts can be written.
- `Filter.asRead`: what is read of the document of a filter.
- `Filter.exists_toJson`: it is read.
- `Filter.asRead_eq_iff`: which filters are read as they were.
- `Filter.reads_own_document`: what becomes of a filter that is written and read.
- `Filter.survives_forwarding`: what was read once stays as it is.
-/

namespace EntitySql

/-! ## Values -/

namespace Value

/-- Documents have the value: it is no instant, it is finite if it is a float, and it is an array or
an object if it is a document of its own. -/
def HasDocument : Value → Prop
  | .float x => finiteFloat x = true
  | .timestamp _ => False
  | .json d => Filter.isScalar d.json = false
  | _ => True

/-- A value that documents have is read as it was written. -/
theorem ofJson_toJson {v : Value} (h : v.HasDocument) : ofJson v.toJson = v := by
  cases v with
  | integer n =>
    have hfits : FitsSigned n.toInt := ⟨Int64.le_toInt n, Int64.toInt_lt n⟩
    show (if FitsSigned n.toInt then integer (Int64.ofInt n.toInt) else _) = integer n
    rw [if_pos hfits, Int64.ofInt_toInt]
  | float x =>
    have hfinite : finiteFloat x = true := h
    rw [toJson, JsonNumber.ofFloat?, dif_pos hfinite]
    rfl
  | timestamp t => exact h.elim
  | json d =>
    have hread := congrArg Value.json d.ofJson_json
    obtain ⟨j, keys⟩ := d
    cases j with
    | array items => exact hread
    | object members => exact hread
    | _ => cases h
  | _ => rfl

/-- A value is the same whether the members of its document are set one after the other or not. -/
theorem ofJson_keyed (j : Json) : ofJson j.keyed = ofJson j := by
  have hread := congrArg Value.json (Document.ofJson_keyed j)
  cases j with
  | array items => exact hread
  | object members => exact hread
  | _ => rfl

/-- Only an array is read as an array. -/
theorem exists_eq_array {j : Json} {items : List Json} (h : (ofJson j).toJson = .array items) :
    ∃ others, j = .array others := by
  cases j with
  | array others => exact ⟨others, rfl⟩
  | number n =>
    have hnumber : ∀ x : Float, (float x).toJson ≠ .array items := by
      intro x hx
      rw [toJson] at hx
      split at hx <;> cases hx
    cases n with
    | float x finite => exact absurd h (hnumber x)
    | int n fits =>
      rw [ofJson, ofJsonNumber] at h
      split at h
      · cases h
      · exact absurd h (hnumber _)
  | _ => cases h

/-- Documents have the values that are read from them. -/
theorem hasDocument_ofJson (j : Json) : (ofJson j).HasDocument := by
  cases j with
  | number n =>
    cases n with
    | float x finite => exact finite
    | int n fits =>
      show (if FitsSigned n then integer (Int64.ofInt n) else float (Float.ofInt n)).HasDocument
      split
      · trivial
      · next hsigned => exact finiteFloat_ofInt fits hsigned
  | array items => rfl
  | object members => rfl
  | _ => trivial

end Value

namespace Filter

/-! ## Written filters -/

mutual

/-- All parts of a filter can be written: fields have no names of operators, documents have the
values, and there is no SQL text. -/
def HasDocument : Filter → Prop
  | .compare field _ v => isOperatorKey field = false ∧ v.HasDocument
  | .among field _ vs => isOperatorKey field = false ∧ ∀ v ∈ vs, v.HasDocument
  | .matching field _ _ => isOperatorKey field = false
  | .and fs => AllHaveDocuments fs
  | .or fs => AllHaveDocuments fs
  | .not f => f.HasDocument
  | .raw _ => False

/-- All parts of all filters can be written. -/
def AllHaveDocuments : List Filter → Prop
  | [] => True
  | f :: fs => f.HasDocument ∧ AllHaveDocuments fs

end

/-- What is read of a comparison: inequality with a list says that the field is none of its
items. -/
def compareAsRead (field : String) : CompareOp → Value → Filter
  | .ne, .json ⟨.array items, _⟩ => .among field true (items.map Value.ofJson)
  | op, v => .compare field op v

mutual

/-- What is read of the document of a filter. -/
def asRead : Filter → Filter
  | .compare field op v => compareAsRead field op v
  | .among field negated vs => .among field negated vs
  | .matching field mode pattern => .matching field mode pattern
  | .and fs => .and (allAsRead fs)
  | .or fs => .or (allAsRead fs)
  | .not f => .not f.asRead
  | .raw parts => .raw parts

/-- What is read of the documents of filters. -/
def allAsRead : List Filter → List Filter
  | [] => []
  | f :: fs => f.asRead :: allAsRead fs

end

mutual

/-- No field is compared with a list for inequality. -/
def ComparesNoList : Filter → Prop
  | .compare _ op v => op = .ne → ∀ items, ¬ v.toJson = .array items
  | .and fs => AllCompareNoList fs
  | .or fs => AllCompareNoList fs
  | .not f => f.ComparesNoList
  | .among .. | .matching .. | .raw _ => True

/-- No field of the filters is compared with a list for inequality. -/
def AllCompareNoList : List Filter → Prop
  | [] => True
  | f :: fs => f.ComparesNoList ∧ AllCompareNoList fs

end

/-- A comparison is read as it was unless it is inequality with a list. -/
theorem compareAsRead_eq_iff (field : String) (op : CompareOp) (v : Value) :
    compareAsRead field op v = .compare field op v ↔
      (op = .ne → ∀ items, ¬ v.toJson = .array items) := by
  rw [compareAsRead.eq_def]
  split
  · next items keys => exact ⟨nofun, fun h => absurd rfl (h rfl items)⟩
  · next hlist =>
    refine ⟨fun _ => ?_, fun _ => rfl⟩
    rintro rfl items heq
    cases v with
    | json d =>
      obtain ⟨j, keys⟩ := d
      cases heq
      exact hlist items keys rfl rfl
    | float x =>
      rw [Value.toJson] at heq
      split at heq <;> cases heq
    | _ => cases heq

/-- Inequality with a list that was read. -/
theorem compareAsRead_array (field : String) (items : List Json) :
    compareAsRead field .ne (Value.ofJson (.array items)) =
      .among field true (items.map Value.ofJson) := by
  have hitems : (Json.keyedItems items).map Value.ofJson = items.map Value.ofJson := by
    rw [Json.keyedItems_eq_map, List.map_map]
    exact List.map_congr_left fun j _ => Value.ofJson_keyed j
  exact congrArg (Filter.among field true) hitems

mutual

/-- Filters that compare no field with a list for inequality are read as they were. -/
theorem asRead_eq_iff : ∀ f : Filter, f.asRead = f ↔ f.ComparesNoList
  | .compare field op v => by
    rw [asRead, ComparesNoList]
    exact compareAsRead_eq_iff field op v
  | .among field negated vs => by simp [asRead, ComparesNoList]
  | .matching field mode pattern => by simp [asRead, ComparesNoList]
  | .and fs => by
    rw [asRead, ComparesNoList, ← allAsRead_eq_iff fs, Filter.and.injEq]
  | .or fs => by
    rw [asRead, ComparesNoList, ← allAsRead_eq_iff fs, Filter.or.injEq]
  | .not f => by
    rw [asRead, ComparesNoList, ← asRead_eq_iff f, Filter.not.injEq]
  | .raw parts => by simp [asRead, ComparesNoList]

theorem allAsRead_eq_iff : ∀ fs : List Filter, allAsRead fs = fs ↔ AllCompareNoList fs
  | [] => by simp [allAsRead, AllCompareNoList]
  | f :: fs => by
    rw [allAsRead, AllCompareNoList, ← asRead_eq_iff f, ← allAsRead_eq_iff fs, List.cons.injEq]

end

/-! ## Reading what was written -/

/-- The operand of a comparison is read like any value. -/
theorem operand_eq (j : Json) : operand j = Value.ofJson j := by
  cases j <;> rfl

/-- The test of a comparison is read. -/
theorem ofOperator_compare (field : String) (op : CompareOp) (j : Json) :
    ofOperator field op.name j = .ok (compareAsRead field op (Value.ofJson j)) := by
  rw [← operand_eq]
  cases op with
  | ne =>
    by_cases hlist : ∃ items, j = .array items
    · obtain ⟨items, rfl⟩ := hlist
      exact congrArg Except.ok (compareAsRead_array field items).symm
    · have hread := (compareAsRead_eq_iff field .ne (Value.ofJson j)).2 fun _ items heq =>
        hlist (Value.exists_eq_array heq)
      rw [operand_eq, hread]
      cases j with
      | array items => exact absurd ⟨items, rfl⟩ hlist
      | _ => rfl
  | _ => rfl

/-- A member whose key is no operator is about a field. -/
theorem ofJson_member {field : String} (h : isOperatorKey field = false) (value : Json) :
    ofJson (member field value) = (do .ok (ofConditions (← ofField field value))) := by
  have hne : ∀ key, isOperatorKey key = true → ¬ field = key := by
    rintro key hkey rfl
    rw [h] at hkey
    cases hkey
  rw [member, ofJson, conditionsOf, if_neg (hne "$and" rfl), if_neg (hne "$or" rfl),
    if_neg (hne "$not" rfl), if_neg (by rw [h]; exact Bool.false_ne_true), conditionsOf]
  cases ofField field value with
  | error failure => rfl
  | ok conditions =>
    show Except.ok (ofConditions (conditions ++ [])) = _
    rw [List.append_nil]
    rfl

/-- An operator with its operand is a test of its field. -/
theorem ofJson_operator {field op : String} (h : isOperatorKey field = false)
    (hop : isOperatorKey op = true) {j : Json} {f : Filter} (hf : ofOperator field op j = .ok f) :
    ofJson (member field (member op j)) = .ok f := by
  have hobject : isOperatorObject [(op, j)] = true := by simp [isOperatorObject, hop]
  rw [ofJson_member h, member, ofField, if_pos hobject, List.mapM_cons, List.mapM_nil]
  show (do .ok (ofConditions (← (do let f ← ofOperator field op j; .ok [f])))) = _
  rw [hf]
  rfl

/-- A comparison is read. -/
theorem ofJson_compareDocument {field : String} (h : isOperatorKey field = false) (op : CompareOp)
    {v : Value} (hv : v.HasDocument) :
    ofJson (compareDocument field op v.toJson) = .ok (compareAsRead field op v) := by
  have hread := Value.ofJson_toJson hv
  rw [compareDocument]
  split
  · next hscalar =>
    obtain ⟨rfl, hscalar⟩ := hscalar
    have hfield : ofField field v.toJson = .ok [.compare field .eq (Value.ofJson v.toJson)] := by
      generalize v.toJson = j at hscalar
      cases j with
      | array items => cases hscalar
      | object members => cases hscalar
      | _ => rfl
    rw [ofJson_member h, hfield, hread]
    rfl
  · have hname : isOperatorKey op.name = true := by cases op <;> rfl
    refine ofJson_operator h hname ?_
    rw [ofOperator_compare, hread]

theorem ofJson_among {field : String} (h : isOperatorKey field = false) (negated : Bool)
    {vs : List Value} (hvs : ∀ v ∈ vs, v.HasDocument) :
    ofJson (member field (if negated then member "$nin" (.array (vs.map Value.toJson))
      else .array (vs.map Value.toJson))) = .ok (.among field negated vs) := by
  have hread : (vs.map Value.toJson).map Value.ofJson = vs := by
    rw [List.map_map]
    exact (List.map_congr_left fun v hv => Value.ofJson_toJson (hvs v hv)).trans (List.map_id' vs)
  cases negated with
  | true =>
    refine ofJson_operator h rfl ?_
    show Except.ok (Filter.among field true ((vs.map Value.toJson).map Value.ofJson)) = _
    rw [hread]
  | false =>
    rw [if_neg Bool.false_ne_true, ofJson_member h]
    show Except.ok (Filter.among field false ((vs.map Value.toJson).map Value.ofJson)) = _
    rw [hread]

mutual

/-- A filter that can be written is written, and its document is read. -/
theorem exists_toJson : ∀ {f : Filter}, f.HasDocument →
    ∃ j, f.toJson = .ok j ∧ ofJson j = .ok f.asRead
  | .compare field op v, h => by
    rw [HasDocument] at h
    rw [toJson, asRead]
    exact ⟨_, rfl, ofJson_compareDocument h.1 op h.2⟩
  | .among field negated vs, h => by
    rw [HasDocument] at h
    rw [toJson, asRead]
    exact ⟨_, rfl, ofJson_among h.1 negated h.2⟩
  | .matching field mode pattern, h => by
    rw [HasDocument] at h
    have hname : isOperatorKey mode.name = true := by cases mode <;> rfl
    rw [toJson, asRead]
    exact ⟨_, rfl, ofJson_operator h hname (by cases mode <;> rfl)⟩
  | .and fs, h => by
    rw [HasDocument] at h
    obtain ⟨js, hjs, hread⟩ := exists_documentsOf h
    rw [toJson, hjs, asRead]
    refine ⟨_, rfl, ?_⟩
    rw [member, ofJson, conditionsOf, if_pos rfl, listOf, hread]
    rfl
  | .or fs, h => by
    rw [HasDocument] at h
    obtain ⟨js, hjs, hread⟩ := exists_documentsOf h
    rw [toJson, hjs, asRead]
    refine ⟨_, rfl, ?_⟩
    rw [member, ofJson, conditionsOf, if_neg (by decide), if_pos rfl, listOf, hread]
    rfl
  | .not f, h => by
    rw [HasDocument] at h
    obtain ⟨j, hj, hread⟩ := exists_toJson h
    rw [toJson, hj, asRead]
    refine ⟨_, rfl, ?_⟩
    rw [member, ofJson, conditionsOf, if_neg (by decide), if_neg (by decide), if_pos rfl, hread]
    rfl
  | .raw parts, h => by
    rw [HasDocument] at h
    exact h.elim

theorem exists_documentsOf : ∀ {fs : List Filter}, AllHaveDocuments fs →
    ∃ js, documentsOf fs = .ok js ∧ filtersOf js = .ok (allAsRead fs)
  | [], _ => ⟨[], by rw [documentsOf], by rw [filtersOf, allAsRead]⟩
  | f :: fs, h => by
    rw [AllHaveDocuments] at h
    obtain ⟨j, hj, hfirst⟩ := exists_toJson h.1
    obtain ⟨js, hjs, hrest⟩ := exists_documentsOf h.2
    refine ⟨j :: js, ?_, ?_⟩
    · rw [documentsOf, hj, hjs]
      rfl
    · rw [filtersOf, hfirst, hrest, allAsRead]
      rfl

end

/-- A filter that can be written is written, and its document is read. It is read as it was exactly
if the filter compares no field with a list for inequality; otherwise each such comparison is read
as a list test. -/
theorem reads_own_document {f : Filter} (h : f.HasDocument) :
    ∃ j, f.toJson = .ok j ∧ ofJson j = .ok f.asRead ∧
      (ofJson j = .ok f ↔ f.ComparesNoList) := by
  obtain ⟨j, hj, hread⟩ := exists_toJson h
  refine ⟨j, hj, hread, ?_⟩
  rw [hread, Except.ok.injEq]
  exact asRead_eq_iff f

/-- Documents to compare with, list tests and matches stay apart. -/
def openTasks : Filter :=
  .and [.compare "tags" .eq (.ofJson (.array [.text "a"])), .among "id" true [.integer 1, .null],
    .not (.or [.compare "meta" .gte (.ofJson (.object [("$in", .null)])),
      .matching "title" .startsWith "x", .compare "done" .eq (.boolean true)])]

theorem reads_own_document_tasks :
    openTasks.HasDocument ∧ openTasks.ComparesNoList ∧
      ∃ j, openTasks.toJson = .ok j ∧ ofJson j = .ok openTasks := by
  have hdocument : openTasks.HasDocument := by
    have htests : (Filter.not (.or [.compare "meta" .gte (.ofJson (.object [("$in", .null)])),
        .matching "title" .startsWith "x", .compare "done" .eq (.boolean true)])).HasDocument :=
      ⟨⟨rfl, Value.hasDocument_ofJson _⟩, rfl, ⟨rfl, trivial⟩, trivial⟩
    exact ⟨⟨rfl, Value.hasDocument_ofJson _⟩, ⟨rfl, by simp [Value.HasDocument]⟩, htests, trivial⟩
  have hlists : openTasks.ComparesNoList := by
    simp [openTasks, ComparesNoList, AllCompareNoList]
  obtain ⟨j, hj, -, hread⟩ := reads_own_document hdocument
  exact ⟨hdocument, hlists, j, hj, hread.2 hlists⟩

/-- Tags that are not the list of one tag. -/
def otherTags : Filter := .compare "tags" .ne (.ofJson (.array [.text "a"]))

/-- Inequality with a list is written, but no filter like it is read. -/
theorem inequality_becomes_list_test :
    otherTags.HasDocument ∧ ¬ ∃ j, otherTags.toJson = .ok j ∧ ofJson j = .ok otherTags := by
  refine ⟨⟨rfl, rfl⟩, ?_⟩
  rintro ⟨j, hj, hread⟩
  cases hj
  cases hread

/-! ## Reading and writing again -/

/-- A filter can be written, and is read as it was. -/
def IsStable (f : Filter) : Prop := f.HasDocument ∧ f.asRead = f

/-- Filters of a list that are stable one by one. -/
theorem stable_list : ∀ {fs : List Filter}, (∀ f ∈ fs, f.IsStable) →
    AllHaveDocuments fs ∧ allAsRead fs = fs
  | [], _ => ⟨trivial, rfl⟩
  | f :: fs, h => by
    obtain ⟨hdocument, hread⟩ := h f List.mem_cons_self
    obtain ⟨hdocuments, hreads⟩ := stable_list fun g hg => h g (List.mem_cons_of_mem f hg)
    rw [AllHaveDocuments, allAsRead, hread, hreads]
    exact ⟨⟨hdocument, hdocuments⟩, rfl⟩

/-- Combinations of stable filters are stable. -/
theorem isStable_and {fs : List Filter} (h : ∀ f ∈ fs, f.IsStable) : (Filter.and fs).IsStable := by
  obtain ⟨hdocuments, hreads⟩ := stable_list h
  exact ⟨hdocuments, congrArg Filter.and hreads⟩

theorem isStable_or {fs : List Filter} (h : ∀ f ∈ fs, f.IsStable) : (Filter.or fs).IsStable := by
  obtain ⟨hdocuments, hreads⟩ := stable_list h
  exact ⟨hdocuments, congrArg Filter.or hreads⟩

theorem isStable_not {f : Filter} (h : f.IsStable) : (Filter.not f).IsStable :=
  ⟨h.1, congrArg Filter.not h.2⟩

theorem isStable_ofConditions : ∀ {fs : List Filter}, (∀ f ∈ fs, f.IsStable) →
    (ofConditions fs).IsStable
  | [f], h => h f List.mem_cons_self
  | [], h => isStable_and h
  | _ :: _ :: _, h => isStable_and h

/-- A list test that was read. -/
theorem isStable_among {field : String} (h : isOperatorKey field = false) (negated : Bool)
    (items : List Json) : (Filter.among field negated (items.map Value.ofJson)).IsStable := by
  refine ⟨⟨h, fun v hv => ?_⟩, rfl⟩
  obtain ⟨item, -, rfl⟩ := List.mem_map.1 hv
  exact Value.hasDocument_ofJson item

/-- A comparison that was read: inequality with a list has become a list test. -/
theorem isStable_compareAsRead {field : String} (h : isOperatorKey field = false) (op : CompareOp)
    (j : Json) : (compareAsRead field op (Value.ofJson j)).IsStable := by
  by_cases hlist : op = .ne ∧ ∃ items, j = .array items
  · obtain ⟨rfl, items, rfl⟩ := hlist
    rw [compareAsRead_array]
    exact isStable_among h true items
  · have hread : compareAsRead field op (Value.ofJson j) = .compare field op (Value.ofJson j) :=
      (compareAsRead_eq_iff field op _).2 fun hop items heq =>
        hlist ⟨hop, Value.exists_eq_array heq⟩
    rw [hread]
    exact ⟨⟨h, Value.hasDocument_ofJson j⟩, hread⟩

/-- The operators that there are. -/
theorem ofOperator_eq_ok {field op : String} {j : Json} {f : Filter}
    (h : ofOperator field op j = .ok f) :
    (∃ compare, f = compareAsRead field compare (Value.ofJson j)) ∨
      (∃ (negated : Bool) (items : List Json),
        f = .among field negated (items.map Value.ofJson)) ∨
      ∃ mode pattern, f = .matching field mode pattern := by
  have hlist : ∀ {negated}, (do .ok (.among field negated (← listOperand field op j))) =
      (.ok f : Except Failure Filter) → ∃ (negated : Bool) (items : List Json),
        f = .among field negated (items.map Value.ofJson) := by
    intro negated hf
    obtain ⟨vs, hvs, hf⟩ := bind_eq_ok.1 hf
    cases hf
    cases j with
    | array items =>
      cases hvs
      exact ⟨negated, items, rfl⟩
    | _ => cases hvs
  have htext : ∀ {mode}, (do .ok (.matching field mode (← textOperand field op j))) =
      (.ok f : Except Failure Filter) → ∃ mode pattern, f = .matching field mode pattern := by
    intro mode hf
    obtain ⟨pattern, -, hf⟩ := bind_eq_ok.1 hf
    cases hf
    exact ⟨mode, pattern, rfl⟩
  have hcompare : ∀ compare : CompareOp, ofOperator field compare.name j = .ok f →
      ∃ compare, f = compareAsRead field compare (Value.ofJson j) := by
    intro compare hf
    rw [ofOperator_compare] at hf
    cases hf
    exact ⟨compare, rfl⟩
  rw [ofOperator.eq_def] at h
  split at h
  · exact .inl (hcompare .eq h)
  · exact .inl (hcompare .ne h)
  · exact .inl (hcompare .gt h)
  · exact .inl (hcompare .gte h)
  · exact .inl (hcompare .lt h)
  · exact .inl (hcompare .lte h)
  · exact .inr (.inl (hlist h))
  · exact .inr (.inl (hlist h))
  · exact .inr (.inr (htext h))
  · exact .inr (.inr (htext h))
  · exact .inr (.inr (htext h))
  · exact .inr (.inr (htext h))
  · cases h

/-- Tests that were read are stable. -/
theorem isStable_ofOperator {field op : String} (hfield : isOperatorKey field = false) {j : Json}
    {f : Filter} (h : ofOperator field op j = .ok f) : f.IsStable := by
  rcases ofOperator_eq_ok h with ⟨compare, rfl⟩ | ⟨negated, items, rfl⟩ | ⟨mode, pattern, rfl⟩
  · exact isStable_compareAsRead hfield compare j
  · exact isStable_among hfield negated items
  · exact ⟨hfield, rfl⟩

theorem isStable_ofOperators {field : String} (hfield : isOperatorKey field = false) :
    ∀ {members : List (String × Json)} {fs : List Filter},
      (members.mapM fun m => ofOperator field m.1 m.2) = .ok fs → ∀ f ∈ fs, f.IsStable
  | [], fs, h => by
    cases h
    exact nofun
  | m :: members, fs, h => by
    rw [List.mapM_cons] at h
    obtain ⟨f, hf, h⟩ := bind_eq_ok.1 h
    obtain ⟨rest, hrest, h⟩ := bind_eq_ok.1 h
    cases h
    exact List.forall_mem_cons.2 ⟨isStable_ofOperator hfield hf, isStable_ofOperators hfield hrest⟩

/-- The tests of a field are stable. -/
theorem isStable_ofField {field : String} (hfield : isOperatorKey field = false) {j : Json}
    {fs : List Filter} (h : ofField field j = .ok fs) : ∀ f ∈ fs, f.IsStable := by
  have hequal : (compareAsRead field .eq (Value.ofJson j)).IsStable :=
    isStable_compareAsRead hfield .eq j
  cases j with
  | array items =>
    cases h
    exact List.forall_mem_singleton.2 (isStable_among hfield false items)
  | object members =>
    rw [ofField] at h
    split at h
    · exact isStable_ofOperators hfield h
    · cases h
      exact List.forall_mem_singleton.2 hequal
  | _ =>
    cases h
    exact List.forall_mem_singleton.2 hequal

/-- The conditions of one member. -/
def memberConditions (key : String) (value : Json) : Except Failure (List Filter) :=
  if key = "$and" then do .ok [.and (← listOf key value)]
  else if key = "$or" then do .ok [.or (← listOf key value)]
  else if key = "$not" then do .ok [.not (← ofJson value)]
  else if isOperatorKey key then .error (.invalidFilter s!"unknown operator '{key}'")
  else ofField key value

/-- The conditions of an object are those of its members. -/
theorem conditionsOf_cons (key : String) (value : Json) (members : List (String × Json)) :
    conditionsOf ((key, value) :: members) = (do
      let conditions ← memberConditions key value
      .ok (conditions ++ (← conditionsOf members))) := by
  rw [conditionsOf, memberConditions]
  split_ifs
  · rw [bind_assoc]
  · rw [bind_assoc]
  · rw [bind_assoc]
  · rfl
  · rfl

mutual

/-- Filters that are read are stable. -/
theorem ofJson_isStable : ∀ {j : Json} {f : Filter}, ofJson j = .ok f → f.IsStable
  | .object members, f, h => by
    rw [ofJson] at h
    obtain ⟨conditions, hconditions, h⟩ := bind_eq_ok.1 h
    cases h
    exact isStable_ofConditions (conditionsOf_isStable hconditions)
  | .null, f, h | .bool _, f, h | .number _, f, h | .text _, f, h | .array _, f, h => by
    rw [ofJson.eq_def] at h
    cases h

theorem conditionsOf_isStable : ∀ {members : List (String × Json)} {fs : List Filter},
    conditionsOf members = .ok fs → ∀ f ∈ fs, f.IsStable
  | [], fs, h => by
    rw [conditionsOf] at h
    cases h
    exact nofun
  | (key, value) :: members, fs, h => by
    rw [conditionsOf_cons] at h
    obtain ⟨first, hfirst, h⟩ := bind_eq_ok.1 h
    obtain ⟨rest, hrest, h⟩ := bind_eq_ok.1 h
    cases h
    refine List.forall_mem_append.2 ⟨?_, conditionsOf_isStable hrest⟩
    rw [memberConditions] at hfirst
    split at hfirst
    · obtain ⟨fs, hfs, hfirst⟩ := bind_eq_ok.1 hfirst
      cases hfirst
      exact List.forall_mem_singleton.2 (isStable_and (listOf_isStable hfs))
    split at hfirst
    · obtain ⟨fs, hfs, hfirst⟩ := bind_eq_ok.1 hfirst
      cases hfirst
      exact List.forall_mem_singleton.2 (isStable_or (listOf_isStable hfs))
    split at hfirst
    · obtain ⟨f, hf, hfirst⟩ := bind_eq_ok.1 hfirst
      cases hfirst
      exact List.forall_mem_singleton.2 (isStable_not (ofJson_isStable hf))
    split at hfirst
    · cases hfirst
    · next hkey => exact isStable_ofField (Bool.not_eq_true _ ▸ hkey) hfirst

theorem listOf_isStable : ∀ {key : String} {j : Json} {fs : List Filter},
    listOf key j = .ok fs → ∀ f ∈ fs, f.IsStable
  | key, .array items, fs, h => by
    rw [listOf] at h
    exact filtersOf_isStable h
  | key, .null, fs, h | key, .bool _, fs, h | key, .number _, fs, h | key, .text _, fs, h
  | key, .object _, fs, h => by
    rw [listOf.eq_def] at h
    cases h

theorem filtersOf_isStable : ∀ {js : List Json} {fs : List Filter},
    filtersOf js = .ok fs → ∀ f ∈ fs, f.IsStable
  | [], fs, h => by
    rw [filtersOf] at h
    cases h
    exact nofun
  | j :: js, fs, h => by
    rw [filtersOf] at h
    obtain ⟨f, hf, h⟩ := bind_eq_ok.1 h
    obtain ⟨rest, hrest, h⟩ := bind_eq_ok.1 h
    cases h
    exact List.forall_mem_cons.2 ⟨ofJson_isStable hf, filtersOf_isStable hrest⟩

end

/-! ## Forwarding -/

/-- A document that is read, and written again. -/
def forwarded (j : Json) : Except Failure Json := do
  let f ← ofJson j
  f.toJson

/-- A document that is forwarded a number of times. -/
def forwardedTimes : Nat → Json → Except Failure Json
  | 0, j => .ok j
  | n + 1, j => do forwardedTimes n (← forwarded j)

/-- The condition of a document. -/
def compileDocument (j : Json) (e : Entity) (names : EntityNames) :
    Except Failure (Option Template) := do
  let f ← ofJson j
  f.compile e names

/-- What was read of a document is read of any document that it is forwarded as. -/
theorem forwardedTimes_ofJson {f : Filter} : ∀ (n : Nat) {j : Json}, ofJson j = .ok f →
    ∃ k, forwardedTimes n j = .ok k ∧ ofJson k = .ok f
  | 0, j, h => ⟨j, rfl, h⟩
  | n + 1, j, h => by
    obtain ⟨hdocument, hread⟩ := ofJson_isStable h
    obtain ⟨k, hk, hagain⟩ := exists_toJson hdocument
    obtain ⟨l, hl, hlast⟩ := forwardedTimes_ofJson n (hagain.trans (congrArg Except.ok hread))
    refine ⟨l, ?_, hlast⟩
    rw [forwardedTimes, forwarded, h, ok_bind, hk, ok_bind]
    exact hl

/-- A filter that was read of a document can be written, and is read of what is written. However
often its document is forwarded, the filter stays the same, and with it the condition, its values
and its failures for every entity. -/
theorem survives_forwarding {j : Json} {f : Filter} (h : ofJson j = .ok f) :
    (∃ k, f.toJson = .ok k ∧ ofJson k = .ok f) ∧
      ∀ n, ∃ k, forwardedTimes n j = .ok k ∧ ofJson k = .ok f ∧
        ∀ e names, compileDocument k e names = f.compile e names := by
  obtain ⟨hdocument, hread⟩ := ofJson_isStable h
  refine ⟨?_, fun n => ?_⟩
  · obtain ⟨k, hk, hagain⟩ := exists_toJson hdocument
    exact ⟨k, hk, hagain.trans (congrArg Except.ok hread)⟩
  · obtain ⟨k, hk, hagain⟩ := forwardedTimes_ofJson n h
    refine ⟨k, hk, hagain, fun e names => ?_⟩
    rw [compileDocument, hagain, ok_bind]

/-- A document with a number that no integer of an application can be, a list that a field is not,
an empty condition and a document to compare with. -/
def nestedDocument : Json :=
  .object [("size", .object [("$gt", .number (.int 18446744073709551615 (by decide))),
      ("$ne", .array [.number (.int 1 (by decide))])]),
    ("$or", .array [.object [], .object [("meta", .object [("deep", .null)])]])]

theorem survives_forwarding_nested :
    ∃ f, ofJson nestedDocument = .ok f ∧ ∃ k, f.toJson = .ok k ∧ ofJson k = .ok f := by
  refine ⟨.and [.compare "size" .gt (.float (Float.ofInt 18446744073709551615)),
    .among "size" true [.integer 1],
    .or [.and [], .compare "meta" .eq (.ofJson (.object [("deep", .null)]))]], rfl, ?_⟩
  exact (survives_forwarding (j := nestedDocument) rfl).1

end Filter

end EntitySql
