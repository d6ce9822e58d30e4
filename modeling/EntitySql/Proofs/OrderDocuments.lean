import EntitySql.Proofs.Built
import EntitySql.Proofs.Sorting
import Mathlib.Data.List.Nodup

/-!
# Orders in documents

An order lists its fields, and a field may be listed again. Then only its first
segment sorts: the later ones decide between rows that have the same cell for
the field. A document has one member for each field. It keeps the place of the
first segment, but the direction of the last one. So an order that is read back
from its document sorts as before unless the first and the last segment of a
field have different directions.

- `RowOrder.firsts`: the segments that sort.
- `RowOrder.collapse`: what a document keeps of an order.
- `RowOrder.ofJson_toJson`: the order that is read back.
- `Collation.compareRows_firsts`: repeated fields do not sort.
- `RowOrder.decoded_orders_alike_iff`: when an order that is read back is the same one,
  and when it sorts alike.
-/

namespace EntitySql

namespace RowOrder

/-! ## Repeated fields -/

/-- The first segment for a field. -/
def first? (s : RowOrder) (field : String) : Option OrderSegment :=
  s.find? fun t => t.field == field

/-- The last segment for a field. -/
def last? (s : RowOrder) (field : String) : Option OrderSegment :=
  s.reverse.find? fun t => t.field == field

/-- The segments for all fields but one. -/
def without (field : String) (s : RowOrder) : RowOrder := s.filter fun t => t.field != field

/-- The first segment for each field. -/
def firsts : RowOrder → RowOrder
  | [] => []
  | t :: s => t :: without t.field (firsts s)

/-- The segment that comes last for the field of a segment, if one comes after it. -/
def settle (s : RowOrder) (t : OrderSegment) : OrderSegment := (last? s t.field).getD t

/-- One segment for each field: in the place of its first one, with the direction of its last. -/
def collapse : RowOrder → RowOrder
  | [] => []
  | t :: s => settle s t :: without t.field (collapse s)

section

variable {s : RowOrder} {t u : OrderSegment} {field : String}

theorem mem_without : t ∈ without field s ↔ t ∈ s ∧ t.field ≠ field := by
  simp [without]

theorem first?_eq_some (h : first? s field = some t) : t ∈ s ∧ t.field = field :=
  ⟨List.mem_of_find?_eq_some h, by simpa using List.find?_some h⟩

theorem last?_eq_some (h : last? s field = some t) : t ∈ s ∧ t.field = field := by
  obtain ⟨hmem, hfield⟩ := first?_eq_some (s := s.reverse) h
  exact ⟨List.mem_reverse.1 hmem, hfield⟩

theorem first?_cons (t : OrderSegment) (s : RowOrder) (field : String) :
    first? (t :: s) field = if t.field = field then some t else first? s field := by
  by_cases h : t.field = field <;> simp [first?, h]

/-- The first segment of a list is the last one of its field if no other one is. -/
theorem last?_cons (t : OrderSegment) (s : RowOrder) (field : String) :
    last? (t :: s) field = (last? s field).or (if t.field = field then some t else none) := by
  rw [last?, List.reverse_cons, List.find?_append, List.find?_singleton]
  by_cases h : t.field = field <;> simp [last?, h]

theorem first?_without (field field' : String) (s : RowOrder) :
    first? (without field' s) field = if field = field' then none else first? s field := by
  induction s with
  | nil => simp [without, first?]
  | cons t s ih =>
    by_cases ht : t.field = field'
    · have hcons : without field' (t :: s) = without field' s :=
        List.filter_cons_of_neg (by simp [ht])
      rw [hcons, ih, first?_cons, ht]
      by_cases h : field = field'
      · rw [if_pos h, if_pos h]
      · rw [if_neg h, if_neg h, if_neg (Ne.symm h)]
    · have hcons : without field' (t :: s) = t :: without field' s :=
        List.filter_cons_of_pos (by simp [ht])
      rw [hcons, first?_cons, first?_cons, ih]
      by_cases h : t.field = field
      · have hne : field ≠ field' := h ▸ ht
        simp [h, hne]
      · simp [h]

theorem map_field_without (field : String) (s : RowOrder) :
    (without field s).map OrderSegment.field =
      (s.map OrderSegment.field).filter fun f => f != field := by
  rw [without, List.filter_map]
  rfl

@[simp] theorem settle_field (s : RowOrder) (t : OrderSegment) : (settle s t).field = t.field := by
  rw [settle]
  cases h : last? s t.field with
  | none => rfl
  | some u => exact (last?_eq_some h).2

/-- The fields of an order are listed in the order of their first segments. -/
theorem map_field_collapse (s : RowOrder) :
    (collapse s).map OrderSegment.field = (firsts s).map OrderSegment.field := by
  induction s with
  | nil => rfl
  | cons t s ih =>
    rw [collapse, firsts, List.map_cons, List.map_cons, settle_field, map_field_without,
      map_field_without, ih]

/-- No field is left twice. -/
theorem nodup_firsts (s : RowOrder) : ((firsts s).map OrderSegment.field).Nodup := by
  induction s with
  | nil => exact .nil
  | cons t s ih =>
    rw [firsts, List.map_cons, List.nodup_cons, map_field_without]
    exact ⟨fun hmem => by simpa using (List.mem_filter.1 hmem).2, ih.filter _⟩

theorem first?_firsts (s : RowOrder) (field : String) :
    first? (firsts s) field = first? s field := by
  induction s with
  | nil => rfl
  | cons t s ih =>
    rw [firsts, first?_cons, first?_cons, first?_without, ih]
    by_cases h : t.field = field
    · rw [if_pos h, if_pos h]
    · rw [if_neg h, if_neg h, if_neg (Ne.symm h)]

/-- What a document keeps for a field is the direction of its last segment. -/
theorem first?_collapse (s : RowOrder) (field : String) :
    first? (collapse s) field = last? s field := by
  induction s with
  | nil => rfl
  | cons t s ih =>
    rw [collapse, first?_cons, settle_field, first?_without, ih, last?_cons]
    by_cases h : t.field = field
    · subst h
      rw [if_pos rfl, if_pos rfl, settle]
      cases last? s t.field <;> rfl
    · rw [if_neg h, if_neg h, if_neg (Ne.symm h), Option.or_none]

/-- Orders of the same distinct fields are equal if they have the same segment for each field. -/
theorem eq_of_first? : ∀ {s s' : RowOrder},
    s.map OrderSegment.field = s'.map OrderSegment.field → (s.map OrderSegment.field).Nodup →
      (∀ field, first? s field = first? s' field) → s = s'
  | [], s', hfields, _, _ => (List.map_eq_nil_iff.1 hfields.symm).symm
  | t :: s, [], hfields, _, _ => nomatch hfields
  | t :: s, u :: s', hfields, hnodup, hfirst => by
    obtain ⟨hfield, hrest⟩ := List.cons_eq_cons.1 hfields
    obtain ⟨hnew, hnodup⟩ := List.nodup_cons.1 hnodup
    have hhead : t = u := by
      have h := hfirst t.field
      rw [first?_cons, first?_cons, if_pos rfl, if_pos hfield.symm] at h
      exact Option.some.inj h
    subst hhead
    refine congrArg (t :: ·) (eq_of_first? hrest hnodup fun field => ?_)
    by_cases h : t.field = field
    · -- neither of the rests mentions the field of the first segment
      subst h
      have hnone : ∀ r : RowOrder, t.field ∉ r.map OrderSegment.field → first? r t.field = none :=
        fun r hr => List.find?_eq_none.2 fun v hv hfield =>
          hr (List.mem_map.2 ⟨v, hv, by simpa using hfield⟩)
      rw [hnone s hnew, hnone s' (hrest ▸ hnew)]
    · simpa [first?_cons, h] using hfirst field

/-- An order whose fields are distinct is kept as it is. -/
theorem collapse_eq_self_iff : collapse s = s ↔ (s.map OrderSegment.field).Nodup := by
  constructor
  · intro h
    rw [← h, map_field_collapse]
    exact nodup_firsts s
  · intro h
    induction s with
    | nil => rfl
    | cons t s ih =>
      obtain ⟨hnew, hnodup⟩ := List.nodup_cons.1 h
      have hlast : last? s t.field = none := List.find?_eq_none.2 fun u hu hfield =>
        hnew (List.mem_map.2 ⟨u, List.mem_reverse.1 hu, by simpa using hfield⟩)
      have hwithout : without t.field s = s := List.filter_eq_self.2 fun u hu => by
        simpa using fun hfield => hnew (List.mem_map.2 ⟨u, hu, hfield⟩)
      rw [collapse, ih hnodup, hwithout, settle, hlast, Option.getD_none]

end

/-! ## The document of an order -/

/-- The member of a document for a segment. -/
def memberOf (t : OrderSegment) : String × Json := (t.field, .text t.direction)

theorem mentions_iff {s : RowOrder} {field : String} :
    mentions s field = true ↔ field ∈ s.map OrderSegment.field := by
  simp [mentions]

/-- The order with a segment in the place of those for its field. -/
def replace (t : OrderSegment) (s : RowOrder) : RowOrder :=
  s.map fun u => if u.field = t.field then t else u

theorem map_field_replace (t : OrderSegment) (s : RowOrder) :
    (replace t s).map OrderSegment.field = s.map OrderSegment.field := by
  rw [replace, List.map_map]
  refine List.map_congr_left fun u _ => ?_
  by_cases hu : u.field = t.field <;> simp [hu]

theorem mentions_replace (t : OrderSegment) (s : RowOrder) (field : String) :
    mentions (replace t s) field = mentions s field := by
  rw [Bool.eq_iff_iff, mentions_iff, mentions_iff, map_field_replace]

/-- A segment is settled by the last one of a list or by one before it. -/
theorem settle_cons (t : OrderSegment) (s : RowOrder) (u : OrderSegment) :
    settle (t :: s) u = settle s (if u.field = t.field then t else u) := by
  rw [settle, last?_cons]
  by_cases hu : u.field = t.field
  · rw [if_pos hu.symm, if_pos hu, settle, ← hu]
    cases last? s u.field <;> rfl
  · rw [if_neg (Ne.symm hu), if_neg hu, Option.or_none, settle]

theorem map_settle_replace (t : OrderSegment) (s before : RowOrder) :
    (replace t before).map (settle s) = before.map (settle (t :: s)) := by
  rw [replace, List.map_map]
  exact List.map_congr_left fun u _ => (settle_cons t s u).symm

/-- The segments of an order for fields that another one does not mention. -/
def unmentioned (before s : RowOrder) : RowOrder := s.filter fun t => !mentions before t.field

/-- A field that is mentioned may be left out before. -/
theorem unmentioned_without {before : RowOrder} {field : String}
    (h : mentions before field = true) (s : RowOrder) :
    unmentioned before (without field s) = unmentioned before s := by
  rw [unmentioned, unmentioned, without, List.filter_filter]
  refine List.filter_congr fun u _ => ?_
  by_cases hu : u.field = field <;> simp [hu, h]

theorem unmentioned_append (before : RowOrder) (t : OrderSegment) (s : RowOrder) :
    unmentioned (before ++ [t]) s = unmentioned before (without t.field s) := by
  rw [unmentioned, unmentioned, without, List.filter_filter]
  refine List.filter_congr fun u _ => ?_
  simp [mentions, bne, Bool.beq_comm (a := t.field)]

/-- The member for a field is set in its place, or is put at the end. -/
theorem setMember_memberOf (t : OrderSegment) : ∀ {s : RowOrder},
    (s.map OrderSegment.field).Nodup →
      Json.setMember (memberOf t).1 (memberOf t).2 (s.map memberOf) =
        (if mentions s t.field then replace t s else s ++ [t]).map memberOf
  | [], _ => rfl
  | u :: s, h => by
    obtain ⟨hnew, hnodup⟩ := List.nodup_cons.1 h
    have ih := setMember_memberOf t hnodup
    by_cases hfield : u.field = t.field
    · -- the segments after this one are for other fields
      have hrest : replace t s = s := by
        refine (List.map_congr_left fun v hv => if_neg fun (hsame : v.field = t.field) => ?_).trans
          (List.map_id s)
        exact hnew (List.mem_map.2 ⟨v, hv, hsame.trans hfield.symm⟩)
      have hcons : replace t (u :: s) = t :: replace t s := by
        rw [replace, List.map_cons, if_pos hfield, replace]
      simp [mentions, memberOf, Json.setMember, hfield, hcons, hrest]
    · have hmentions : mentions (u :: s) t.field = mentions s t.field := by
        simp [mentions, hfield]
      have hcons : replace t (u :: s) = u :: replace t s := by
        rw [replace, List.map_cons, if_neg hfield, replace]
      rw [hmentions, List.map_cons, Json.setMember]
      cases hmem : mentions s t.field <;> simp_all [memberOf]

/-- Segments set one after the other: those for fields that are mentioned already settle these,
and the others are collapsed after them. -/
theorem foldl_setMember_memberOf : ∀ {s before : RowOrder},
    (before.map OrderSegment.field).Nodup →
      (s.map memberOf).foldl (fun ms m => Json.setMember m.1 m.2 ms) (before.map memberOf) =
        (before.map (settle s) ++ unmentioned before (collapse s)).map memberOf
  | [], before, _ => by
    have hsettle : settle [] = id := funext fun t => rfl
    rw [hsettle, List.map_id, collapse, unmentioned, List.filter_nil, List.append_nil]
    rfl
  | t :: s, before, h => by
    rw [List.map_cons, List.foldl_cons, setMember_memberOf t h]
    cases hmem : mentions before t.field with
    | true =>
      have hsame : unmentioned (replace t before) = unmentioned before := by
        funext r
        simp only [unmentioned, mentions_replace]
      have hskip : unmentioned before (settle s t :: without t.field (collapse s)) =
          unmentioned before (collapse s) := by
        rw [← unmentioned_without hmem (collapse s)]
        exact List.filter_cons_of_neg (by simp [hmem])
      rw [if_pos rfl, foldl_setMember_memberOf (by rwa [map_field_replace]), map_settle_replace,
        hsame, collapse, hskip]
    | false =>
      have hnew : t.field ∉ before.map OrderSegment.field := by
        rw [← mentions_iff, hmem]
        exact Bool.false_ne_true
      have hnodup : ((before ++ [t]).map OrderSegment.field).Nodup := by
        rw [List.map_append, List.map_singleton, List.nodup_append_comm, List.singleton_append]
        exact List.nodup_cons.2 ⟨hnew, h⟩
      have hsettled : before.map (settle (t :: s)) = before.map (settle s) := by
        refine List.map_congr_left fun u hu => ?_
        rw [settle_cons, if_neg fun hsame => hnew (List.mem_map.2 ⟨u, hu, hsame⟩)]
      have hkeep : unmentioned before (settle s t :: without t.field (collapse s)) =
          settle s t :: unmentioned (before ++ [t]) (collapse s) := by
        rw [unmentioned_append]
        exact List.filter_cons_of_pos (by simp [hmem])
      rw [if_neg Bool.false_ne_true, foldl_setMember_memberOf hnodup, hsettled, collapse, hkeep]
      simp

/-- The document of an order has its collapsed segments as members. -/
theorem toJson_eq (s : RowOrder) : toJson s = .object ((collapse s).map memberOf) := by
  have hfold := @foldl_setMember_memberOf s [] .nil
  rw [List.map_nil, List.map_nil, List.nil_append] at hfold
  rw [toJson, Json.ofMembers]
  refine congrArg Json.object (hfold.trans (congrArg (List.map memberOf) ?_))
  exact List.filter_eq_self.2 fun t _ => rfl

theorem segment_memberOf (t : OrderSegment) :
    segment (memberOf t).1 (memberOf t).2 = .ok t := by
  obtain ⟨field, descending⟩ := t
  cases descending <;> simp [segment, memberOf, OrderSegment.direction]

/-- What is read of the document of an order is the collapsed order. -/
theorem ofJson_toJson (s : RowOrder) : ofJson (toJson s) = .ok (collapse s) := by
  have hmembers : ∀ r : RowOrder,
      (r.map memberOf).mapM (fun m => segment m.1 m.2) = (.ok r : Except Failure RowOrder) := by
    intro r
    induction r with
    | nil => rfl
    | cons t r ih =>
      rw [List.map_cons, List.mapM_cons, segment_memberOf, ih]
      rfl
  rw [toJson_eq, ofJson]
  exact hmembers (collapse s)

end RowOrder

/-! ## The segments that sort -/

namespace Collation

variable {c : Collation} [hc : ∀ column, Std.TransCmp (c column)] {row row' : Row}

/-- A place for NULL leaves cells in the same place if both or none of them are NULL. -/
theorem compareNulls_some_eq_eq_iff {p : NullPlace} {v w : Value} :
    compareNulls (some p) v w = .eq ↔ v.isNull = w.isNull := by
  rw [compareNulls, compareOn, Nat.compare_eq_eq]
  cases p <;> simp only [NullPlace.rank] <;> cases v.isNull <;> cases w.isNull <;> decide

/-- A term leaves rows in the same place if they have the same cell in its column, as far as the
database tells, and if NULL has a place of its own it is NULL in both or in none of them. -/
theorem compareAt_eq_eq_iff {column : String} {nullsSmallest : Bool} (t : OrderSegment) :
    c.compareAt (t.term column nullsSmallest) row row' = .eq ↔
      (nullsSmallest = true → (row column).isNull = (row' column).isNull) ∧
        c column (row column) (row' column) = .eq := by
  have hvalues : c.compareValues (t.term column nullsSmallest) (row column) (row' column) = .eq ↔
      c column (row column) (row' column) = .eq := by
    cases hdescending : t.descending with
    | false => simp [compareValues, OrderSegment.term, hdescending]
    | true =>
      simp only [compareValues, OrderSegment.term, hdescending, if_true]
      exact Std.OrientedCmp.eq_comm
  have hnulls : compareNulls (t.term column nullsSmallest).nulls (row column) (row' column) = .eq ↔
      (nullsSmallest = true → (row column).isNull = (row' column).isNull) := by
    cases nullsSmallest with
    | false => simp [compareNulls, OrderSegment.term]
    | true =>
      rw [OrderSegment.term, if_pos rfl, compareNulls_some_eq_eq_iff]
      exact ⟨fun h _ => h, fun h => h rfl⟩
  rw [compareAt, compareLex_eq_eq]
  exact and_congr hnulls hvalues

variable (column : String → String) (nullsSmallest : Bool)

/-- A later segment for a field decides nothing. -/
theorem compareRows_without (t : OrderSegment) (s : RowOrder) :
    c.compareRows
        ((t :: RowOrder.without t.field s).map fun u => u.term (column u.field) nullsSmallest)
        row row' =
      c.compareRows ((t :: s).map fun u => u.term (column u.field) nullsSmallest) row row' := by
  rw [List.map_cons, List.map_cons, compareRows, compareRows, compareLex, compareLex]
  cases hfirst : c.compareAt (t.term (column t.field) nullsSmallest) row row' with
  | lt => rfl
  | gt => rfl
  | eq =>
    rw [Ordering.eq_then, Ordering.eq_then]
    induction s with
    | nil => rfl
    | cons u s ih =>
      by_cases hu : u.field = t.field
      · have hsame : c.compareAt (u.term (column u.field) nullsSmallest) row row' = .eq := by
          rw [hu]
          exact (compareAt_eq_eq_iff u).2 ((compareAt_eq_eq_iff t).1 hfirst)
        have hcons : RowOrder.without t.field (u :: s) = RowOrder.without t.field s :=
          List.filter_cons_of_neg (by simp [hu])
        rw [hcons, ih, List.map_cons, compareRows, compareLex, hsame, Ordering.eq_then]
      · have hcons : RowOrder.without t.field (u :: s) = u :: RowOrder.without t.field s :=
          List.filter_cons_of_pos (by simp [hu])
        rw [hcons, List.map_cons, List.map_cons, compareRows, compareRows, compareLex, compareLex,
          ih]

/-- Only the first segment for each field sorts. -/
theorem compareRows_firsts (s : RowOrder) :
    c.compareRows ((RowOrder.firsts s).map fun u => u.term (column u.field) nullsSmallest)
        row row' =
      c.compareRows (s.map fun u => u.term (column u.field) nullsSmallest) row row' := by
  induction s with
  | nil => rfl
  | cons t s ih =>
    rw [RowOrder.firsts, compareRows_without, List.map_cons, List.map_cons, compareRows,
      compareRows, compareLex, compareLex, ih]

/-- Rows that only differ in the column of one field are in the order of its first segment. -/
theorem compareRows_eq_first {field : String}
    (hsame : ∀ column, column ≠ field → c column (row column) (row' column) = .eq)
    (hlt : c field (row field) (row' field) = .lt) {s : RowOrder} {t : OrderSegment}
    (h : s.first? field = some t) :
    c.compareRows (s.map fun u => u.term u.field false) row row' =
      if t.descending then .gt else .lt := by
  induction s with
  | nil => cases h
  | cons u s ih =>
    rw [RowOrder.first?_cons] at h
    rw [List.map_cons, compareRows, compareLex]
    by_cases hu : u.field = field
    · rw [if_pos hu] at h
      obtain rfl := Option.some.inj h
      have hfirst : c.compareAt (u.term u.field false) row row' =
          if u.descending then .gt else .lt := by
        rw [hu, compareAt, compareLex]
        cases hdescending : u.descending with
        | false => simpa [compareNulls, compareValues, OrderSegment.term, hdescending] using hlt
        | true =>
          simpa [compareNulls, compareValues, OrderSegment.term, hdescending] using
            Std.OrientedCmp.gt_of_lt hlt
      rw [hfirst]
      cases u.descending <;> rfl
    · rw [if_neg hu] at h
      have hequal : c.compareAt (u.term u.field false) row row' = .eq :=
        (compareAt_eq_eq_iff u).2 ⟨fun hfalse => absurd hfalse Bool.false_ne_true, hsame _ hu⟩
      rw [hequal, Ordering.eq_then, ih h]

end Collation

/-! ## Orders that are read back -/

namespace RowOrder

/-- The first and the last segment for a field are the same. -/
def KeepsDirections (s : RowOrder) : Prop := ∀ field, first? s field = last? s field

/-- An order sorts the rows of every entity as another one does, wherever that one has a clause:
a database that is asked for either may give the same results. -/
def OrdersLike (s' s : RowOrder) : Prop :=
  ∀ (e : BuiltEntity) (wrap : String → String) (nullsSmallest : Bool) (ts : List OrderTerm),
    s.terms (.resolveBy e wrap) nullsSmallest = .ok ts →
      ∃ ts', s'.terms (.resolveBy e wrap) nullsSmallest = .ok ts' ∧
        ∀ c : Collation, (∀ column, Std.TransCmp (c column)) → ∀ rows result,
          c.IsOrdered ts' rows result ↔ c.IsOrdered ts rows result

variable {s : RowOrder}

/-- What a document keeps are the segments that sort if it keeps their directions. -/
theorem collapse_eq_firsts_iff : collapse s = firsts s ↔ s.KeepsDirections := by
  have hnodup : ((collapse s).map OrderSegment.field).Nodup :=
    map_field_collapse s ▸ nodup_firsts s
  constructor
  · intro h field
    rw [← first?_firsts, ← first?_collapse, h]
  · intro h
    refine eq_of_first? (map_field_collapse s) hnodup fun field => ?_
    rw [first?_firsts, first?_collapse, h field]

theorem mem_of_mem_firsts {t : OrderSegment} (h : t ∈ firsts s) : t ∈ s := by
  induction s with
  | nil => cases h
  | cons u s ih =>
    rcases List.mem_cons.1 h with rfl | h
    · exact List.mem_cons_self
    · exact List.mem_cons_of_mem u (ih (mem_without.1 h).1)

/-- The segments that sort put rows in the order of all segments. -/
theorem ordersLike_firsts (s : RowOrder) : (firsts s).OrdersLike s := by
  intro e wrap nullsSmallest ts hts
  have hknown := exists_columnOf hts
  obtain rfl : _ = ts := Except.ok.inj ((@terms_eq_map _ nullsSmallest _ hknown).symm.trans hts)
  refine ⟨_, terms_eq_map fun t ht => hknown t (mem_of_mem_firsts ht), fun c hc rows result => ?_⟩
  rw [c.isOrdered_iff_allows, c.isOrdered_iff_allows]
  exact Collation.allows_congr (fun _ _ => Collation.compareRows_firsts _ _ s) rows result

/-- An entity with a field of numbers for each field of an order. -/
def entityOf (s : RowOrder) : Entity :=
  ⟨"rows", "rows", (firsts s).map fun t => .ofType t.field .integer,
    Entity.declaredIdentity ((firsts s).map fun t => .ofType t.field .integer) []⟩

/-- The entity of an order can be built unless the order is empty. -/
theorem build_entityOf (h : s ≠ []) :
    Entity.build "rows" none (entityOf s).fields [] = .ok (entityOf s) := by
  have hkeys : (entityOf s).fields.map Field.key = (firsts s).map OrderSegment.field := by
    rw [entityOf, List.map_map]
    rfl
  have hcolumns : ((entityOf s).fields.filter Field.hasColumn).map Field.column =
      (firsts s).map OrderSegment.field := by
    rw [entityOf, List.filter_map, List.map_map]
    exact congrArg _ (List.filter_eq_self.2 fun t _ => rfl)
  cases s with
  | nil => exact absurd rfl h
  | cons t s =>
    refine Entity.build_eq_ok_iff.2 ⟨⟨List.cons_ne_nil _ _, hkeys ▸ nodup_firsts _,
      hcolumns ▸ nodup_firsts _, fun id hid => ?_⟩, rfl⟩
    obtain rfl : id = t.field := List.mem_singleton.1 hid
    exact ⟨.ofType t.field .integer, List.mem_cons_self, rfl, rfl⟩

/-- The names of the entity of an order, with names as they are. -/
def namesOf (s : RowOrder) : EntityNames := .resolveBy (entityOf s) id

theorem exists_columnOf_namesOf {t : OrderSegment} (h : t ∈ s) :
    ∃ text, (namesOf s).columnOf t.field = .ok text := by
  have hsound := Entity.isSound_of_build (build_entityOf (List.ne_nil_of_mem h))
  obtain ⟨u, hu⟩ : ∃ u, first? (firsts s) t.field = some u := by
    rw [first?_firsts, first?, ← Option.isSome_iff_exists, List.find?_isSome]
    exact ⟨t, h, beq_self_eq_true _⟩
  obtain ⟨hmem, hfield⟩ := first?_eq_some hu
  have hselected : Field.ofType t.field .integer ∈ (entityOf s).selected :=
    List.mem_filter.2 ⟨List.mem_map.2 ⟨u, hmem, by rw [hfield]⟩, rfl⟩
  exact ⟨_, hsound.columnOf_resolveBy id hselected⟩

/-- A field that the entity of an order knows stands for itself. -/
theorem columnText_namesOf {field : String}
    (h : ∃ text, (namesOf s).columnOf field = .ok text) : (namesOf s).columnText field = field := by
  obtain ⟨text, htext⟩ := h
  rw [EntityNames.columnText, htext]
  rw [EntityNames.columnOf, namesOf, EntityNames.find?_resolveBy] at htext
  cases hfound : (entityOf s).selected.find? fun f => f.key == field with
  | none =>
    rw [hfound] at htext
    cases htext
  | some f =>
    obtain ⟨t, -, rfl⟩ :=
      List.mem_map.1 (List.mem_filter.1 (List.mem_of_find?_eq_some hfound)).1
    have hfield : t.field = field := by simpa [Field.ofType] using List.find?_some hfound
    rw [hfound] at htext
    exact (Except.ok.inj htext).symm.trans hfield

/-- The terms of an order whose fields the entity of another one knows. -/
theorem terms_namesOf {r : RowOrder}
    (h : ∀ t ∈ r, ∃ text, (namesOf s).columnOf t.field = .ok text) :
    r.terms (namesOf s) false = .ok (r.map fun t => t.term t.field false) := by
  rw [terms_eq_map h]
  exact congrArg _ (List.map_congr_left fun t ht => by rw [columnText_namesOf (h t ht)])

/-- Orders that sort alike have the same first segment for each field. -/
theorem OrdersLike.first?_eq {s' : RowOrder} (h : s'.OrdersLike s) {field : String}
    {t u : OrderSegment} (ht : first? s field = some t) (hu : first? s' field = some u) :
    t = u := by
  obtain ⟨hmem, hfield⟩ := first?_eq_some ht
  obtain ⟨-, hfield'⟩ := first?_eq_some hu
  have hterms := terms_namesOf fun v (hv : v ∈ s) => exists_columnOf_namesOf hv
  obtain ⟨ts', hterms', hsame⟩ :=
    h ⟨_, _, _, _, _, build_entityOf (List.ne_nil_of_mem hmem)⟩ id false _ hterms
  obtain rfl : _ = ts' :=
    Except.ok.inj ((terms_namesOf (exists_columnOf hterms')).symm.trans hterms')
  -- two rows whose cells are the same but for the field, which is NULL in the first one
  let c : Collation := fun _ => compareOn NullPlace.first.rank
  have hc (column : String) : Std.TransCmp (c column) :=
    inferInstanceAs (Std.TransCmp (compareOn _))
  let row : Row := fun _ => .null
  let row' : Row := fun column => if column = field then .integer 0 else .null
  have hdiffer (column : String) (hne : column ≠ field) :
      c column (row column) (row' column) = .eq := by
    simp only [row, row', if_neg hne]
    rfl
  have hlt : c field (row field) (row' field) = .lt := by
    simp only [row, row', if_true]
    rfl
  have hordered (r : RowOrder) {v : OrderSegment} (hv : first? r field = some v) :
      c.IsOrdered (r.map fun t => t.term t.field false) [row, row'] [row, row'] ↔
        v.descending = false := by
    rw [Collation.isOrdered_pair, Collation.compareRows_eq_first hdiffer hlt hv]
    cases v.descending <;> simp
  have hdescending : t.descending = u.descending := by
    have := (hordered s' hu).symm.trans ((hsame c hc [row, row'] [row, row']).trans (hordered s ht))
    cases hdescending : t.descending <;> cases hdescending' : u.descending <;> simp_all
  cases t
  cases u
  simp_all

theorem first?_eq_none_iff {field : String} : first? s field = none ↔ last? s field = none := by
  simp [first?, last?]

/-- An order can be read back from its document. What is read is the same order if no field is
repeated, and exactly then. It sorts the rows of every entity as before if the first and the last
segment of each field have the same direction, and exactly then. -/
theorem decoded_orders_alike_iff (s : RowOrder) :
    ∃ s', ofJson (toJson s) = .ok s' ∧ (s' = s ↔ (s.map OrderSegment.field).Nodup) ∧
      (s'.OrdersLike s ↔ s.KeepsDirections) := by
  refine ⟨collapse s, ofJson_toJson s, collapse_eq_self_iff, fun h field => ?_, fun h => ?_⟩
  · cases hfirst : first? s field with
    | none => exact (first?_eq_none_iff.1 hfirst).symm
    | some t =>
      cases hlast : last? s field with
      | none => rw [← hfirst, first?_eq_none_iff.2 hlast]
      | some u => rw [h.first?_eq hfirst (first?_collapse s field ▸ hlast)]
  · rw [collapse_eq_firsts_iff.2 h]
    exact ordersLike_firsts s

/-- An ascending segment that a descending one follows for the same field: what is read back is the
descending one alone, and sorts the other way round. -/
theorem descending_wins_in_document :
    ofJson (toJson [⟨"a", false⟩, ⟨"a", true⟩]) = .ok [⟨"a", true⟩] ∧
      ¬ OrdersLike [⟨"a", true⟩] [⟨"a", false⟩, ⟨"a", true⟩] := by
  refine ⟨ofJson_toJson _, fun h => ?_⟩
  have hfirst : first? [⟨"a", false⟩, ⟨"a", true⟩] "a" = some ⟨"a", false⟩ := rfl
  cases h.first?_eq hfirst rfl

end RowOrder

end EntitySql
