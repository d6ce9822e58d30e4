import EntitySql.Proofs.Truth
import EntitySql.RowOrder
import Mathlib.Data.List.Pairwise

/-!
# The order of rows

An `order by` clause is a list of terms, the first of which counts most: a
later term only decides between rows that all terms before it leave in the
same place. A database that is asked for rows in such an order may give rows
of the same place in any order, and in another one the next time. Only where
no two rows share a place is there one order to give.

- `OrderTerm`, `RowOrder.terms`: the terms of a clause, and those of an order.
- `Collation.compareRows`: what a list of terms asks of two rows.
- `RowOrder.exists_unique_eq`: the order with the rest of the identity after it.
- `Collation.compareRows_ne_eq`: rows that differ in a column of the list do not
  share a place.
- `Collation.IsOrdered`: what a database may give, and that it is one list of
  rows if no two rows share a place.
-/

namespace EntitySql

/-! ## Terms -/

/-- Where a term puts the rows with NULL. -/
inductive NullPlace where
  | first
  | last

/-- The text for the place of NULL. -/
def NullPlace.text : NullPlace → String
  | .first => " nulls first"
  | .last => " nulls last"

/-- A term of an `order by` list. -/
structure OrderTerm where
  column : String
  descending : Bool
  /-- The place of NULL, if the term names one. -/
  nulls : Option NullPlace

/-- The text of a term. -/
def OrderTerm.text (t : OrderTerm) : String :=
  t.column ++ (if t.descending then " desc" else "") ++ t.nulls.elim "" NullPlace.text

/-- The term of a segment. -/
def OrderSegment.term (s : OrderSegment) (column : String) (nullsSmallest : Bool) : OrderTerm :=
  ⟨column, s.descending,
    if nullsSmallest then some (if s.descending then .last else .first) else none⟩

theorem OrderSegment.text_term (s : OrderSegment) (column : String) (nullsSmallest : Bool) :
    (s.term column nullsSmallest).text = s.text column nullsSmallest := by
  rw [OrderTerm.text, term, OrderSegment.text]
  cases nullsSmallest <;> cases s.descending <;> rfl

/-- The text that stands for a field, if there is one. -/
def EntityNames.columnText (names : EntityNames) (field : String) : String :=
  match names.columnOf field with
  | .ok text => text
  | .error _ => ""

namespace RowOrder

variable {names : EntityNames} {nullsSmallest : Bool}

/-- The terms of an order. -/
def terms (names : EntityNames) (nullsSmallest : Bool) :
    RowOrder → Except Failure (List OrderTerm)
  | [] => .ok []
  | s :: rest => do
    let column ← names.columnOf s.field
    .ok (s.term column nullsSmallest :: (← terms names nullsSmallest rest))

/-- The text of an order lists its terms. -/
theorem orderBy_eq (order : RowOrder) : order.orderBy names nullsSmallest = (do
    .ok (String.intercalate ", " ((← order.terms names nullsSmallest).map OrderTerm.text))) := by
  have htexts : ∀ order : RowOrder, segmentTexts names nullsSmallest order = (do
      .ok ((← order.terms names nullsSmallest).map OrderTerm.text)) := by
    intro order
    induction order with
    | nil => rfl
    | cons s order ih =>
      rw [segmentTexts, terms, ih]
      cases names.columnOf s.field with
      | error failure => rfl
      | ok column =>
        cases terms names nullsSmallest order with
        | error failure => rfl
        | ok ts => simp only [ok_bind, List.map_cons, OrderSegment.text_term]
  rw [orderBy, htexts]
  cases order.terms names nullsSmallest <;> rfl

/-- The terms of an order with a first segment. -/
theorem terms_cons_eq_ok {s : OrderSegment} {order : RowOrder} {ts : List OrderTerm} :
    terms names nullsSmallest (s :: order) = .ok ts ↔ ∃ column rest,
      names.columnOf s.field = .ok column ∧ order.terms names nullsSmallest = .ok rest ∧
        ts = s.term column nullsSmallest :: rest := by
  simp only [terms, bind_eq_ok]
  constructor
  · rintro ⟨column, hcolumn, rest, hrest, heq⟩
    cases heq
    exact ⟨column, rest, hcolumn, hrest, rfl⟩
  · rintro ⟨column, rest, hcolumn, hrest, rfl⟩
    exact ⟨column, hcolumn, rest, hrest, rfl⟩

/-- One order after the other has the terms of both. -/
theorem terms_append {order order' : RowOrder} {ts ts' : List OrderTerm}
    (h : order.terms names nullsSmallest = .ok ts)
    (h' : order'.terms names nullsSmallest = .ok ts') :
    terms names nullsSmallest (order ++ order') = .ok (ts ++ ts') := by
  induction order generalizing ts with
  | nil =>
    cases h
    exact h'
  | cons s order ih =>
    obtain ⟨column, rest, hcolumn, hrest, rfl⟩ := terms_cons_eq_ok.1 h
    exact terms_cons_eq_ok.2 ⟨column, rest ++ ts', hcolumn, ih hrest, rfl⟩

/-- The terms of an order of known fields are those of its segments. -/
theorem terms_eq_map : ∀ {s : RowOrder},
    (∀ t ∈ s, ∃ text, names.columnOf t.field = .ok text) → s.terms names nullsSmallest =
      .ok (s.map fun t => t.term (names.columnText t.field) nullsSmallest)
  | [], _ => rfl
  | t :: s, h => by
    obtain ⟨⟨text, htext⟩, hrest⟩ := List.forall_mem_cons.1 h
    refine terms_cons_eq_ok.2 ⟨text, _, htext, terms_eq_map hrest, ?_⟩
    rw [List.map_cons, EntityNames.columnText, htext]

/-- The fields of an order that has terms are known. -/
theorem exists_columnOf : ∀ {s : RowOrder}
    {ts : List OrderTerm}, s.terms names nullsSmallest = .ok ts →
      ∀ t ∈ s, ∃ text, names.columnOf t.field = .ok text
  | [], _, _ => fun _ ht => nomatch ht
  | t :: s, ts, h => by
    obtain ⟨text, rest, htext, hrest, -⟩ := terms_cons_eq_ok.1 h
    exact List.forall_mem_cons.2 ⟨⟨text, htext⟩, exists_columnOf hrest⟩

theorem exists_terms {order : RowOrder}
    (h : ∀ s ∈ order, ∃ column, names.columnOf s.field = .ok column) :
    ∃ ts, order.terms names nullsSmallest = .ok ts :=
  ⟨_, terms_eq_map h⟩

theorem exists_segment {order : RowOrder} {ts : List OrderTerm}
    (h : order.terms names nullsSmallest = .ok ts) {t : OrderTerm} (ht : t ∈ ts) :
    ∃ s ∈ order, t.descending = s.descending ∧ names.columnOf s.field = .ok t.column := by
  induction order generalizing ts with
  | nil =>
    cases h
    cases ht
  | cons s order ih =>
    obtain ⟨column, rest, hcolumn, hrest, rfl⟩ := terms_cons_eq_ok.1 h
    rcases List.mem_cons.1 ht with rfl | ht
    · exact ⟨s, List.mem_cons_self, rfl, hcolumn⟩
    · obtain ⟨s', hs', hterm⟩ := ih hrest ht
      exact ⟨s', List.mem_cons_of_mem s hs', hterm⟩

theorem exists_term {order : RowOrder} {ts : List OrderTerm}
    (h : order.terms names nullsSmallest = .ok ts) {s : OrderSegment} (hs : s ∈ order) :
    ∃ t ∈ ts, names.columnOf s.field = .ok t.column := by
  induction order generalizing ts with
  | nil => cases hs
  | cons s' order ih =>
    obtain ⟨column, rest, hcolumn, hrest, rfl⟩ := terms_cons_eq_ok.1 h
    rcases List.mem_cons.1 hs with rfl | hs
    · exact ⟨_, List.mem_cons_self, hcolumn⟩
    · obtain ⟨t, ht, hterm⟩ := ih hrest hs
      exact ⟨t, List.mem_cons_of_mem _ ht, hterm⟩

/-- What comes after an order that is extended by keys: one ascending segment for each key that
is not mentioned yet. Then all of them are mentioned. -/
theorem exists_foldl_withField (keys : List String) (order : RowOrder) :
    ∃ rest : RowOrder, keys.foldl withField order = order ++ rest ∧
      (∀ s ∈ rest, s.descending = false ∧ s.field ∈ keys ∧ order.mentions s.field = false) ∧
      ∀ key ∈ keys, mentions (order ++ rest) key = true := by
  induction keys generalizing order with
  | nil => exact ⟨[], (List.append_nil _).symm, fun s hs => (nomatch hs), fun k hk => (nomatch hk)⟩
  | cons key keys ih =>
    rw [List.foldl_cons, withField]
    cases hmentions : order.mentions key with
    | true =>
      obtain ⟨rest, heq, hrest, hall⟩ := ih order
      refine ⟨rest, heq, fun s hs => ?_, fun k hk => ?_⟩
      · obtain ⟨hascending, hmem, hnew⟩ := hrest s hs
        exact ⟨hascending, List.mem_cons_of_mem key hmem, hnew⟩
      · rcases List.mem_cons.1 hk with rfl | hk
        · rw [mentions] at hmentions ⊢
          rw [List.any_append, hmentions, Bool.true_or]
        · exact hall k hk
    | false =>
      obtain ⟨rest, heq, hrest, hall⟩ := ih (order ++ [⟨key, false⟩])
      rw [List.append_assoc] at heq hall
      refine ⟨⟨key, false⟩ :: rest, heq, fun s hs => ?_, fun k hk => ?_⟩
      · rcases List.mem_cons.1 hs with rfl | hs
        · exact ⟨rfl, List.mem_cons_self, hmentions⟩
        · obtain ⟨hascending, hmem, hnew⟩ := hrest s hs
          rw [mentions, List.any_append, Bool.or_eq_false_iff] at hnew
          exact ⟨hascending, List.mem_cons_of_mem key hmem, hnew.1⟩
      · rcases List.mem_cons.1 hk with rfl | hk
        · simp [mentions]
        · exact hall k hk

/-- The order with the rest of the identity after it. -/
theorem exists_unique_eq (e : Entity) (order : RowOrder) :
    ∃ rest : RowOrder, unique e order = order ++ rest ∧
      (∀ s ∈ rest, s.descending = false ∧ s.field ∈ e.identity ∧
        order.mentions s.field = false) ∧
      ∀ key ∈ e.identity, mentions (order ++ rest) key = true :=
  exists_foldl_withField e.identity order

/-- The terms of an order with the rest of the identity after it: those of the order come first,
then ascending ones, and there is one for each identity field. -/
theorem exists_terms_unique {e : Entity} {order : RowOrder}
    (horder : ∀ s ∈ order, ∃ column, names.columnOf s.field = .ok column)
    (hidentity : ∀ key ∈ e.identity, ∃ column, names.columnOf key = .ok column) :
    ∃ first rest, order.terms names nullsSmallest = .ok first ∧
      terms names nullsSmallest (unique e order) = .ok (first ++ rest) ∧
      (∀ t ∈ rest, t.descending = false ∧
        ∃ key ∈ e.identity, names.columnOf key = .ok t.column) ∧
      ∀ key ∈ e.identity, ∃ t ∈ first ++ rest, names.columnOf key = .ok t.column := by
  obtain ⟨added, heq, hadded, hmentions⟩ := exists_unique_eq e order
  obtain ⟨first, hfirst⟩ : ∃ first, order.terms names nullsSmallest = .ok first :=
    exists_terms horder
  obtain ⟨rest, hrest⟩ : ∃ rest, added.terms names nullsSmallest = .ok rest :=
    exists_terms fun s hs => hidentity s.field (hadded s hs).2.1
  have hall := terms_append hfirst hrest
  refine ⟨first, rest, hfirst, heq ▸ hall, fun t ht => ?_, fun key hkey => ?_⟩
  · obtain ⟨s, hs, hdescending, hcolumn⟩ := exists_segment hrest ht
    obtain ⟨hascending, hkey, _⟩ := hadded s hs
    exact ⟨hdescending.trans hascending, s.field, hkey, hcolumn⟩
  · have hmention := hmentions key hkey
    rw [mentions, List.any_eq_true] at hmention
    obtain ⟨s, hs, hfield⟩ := hmention
    rw [← beq_iff_eq.1 hfield]
    exact exists_term hall hs

end RowOrder

/-! ## Rows -/

/-- How a database puts the cells of columns in order, by the text that stands for a column. -/
abbrev Collation := String → Value → Value → Ordering

/-- The rank of a cell where NULL has a place of its own. -/
def NullPlace.rank (p : NullPlace) (cell : Value) : Nat :=
  match p, cell.isNull with
  | .first, true => 0
  | .first, false => 1
  | .last, true => 1
  | .last, false => 0

namespace Collation

variable (c : Collation)

/-- What a term asks of two cells before it looks at their values. -/
def compareNulls : Option NullPlace → Value → Value → Ordering
  | none => fun _ _ => .eq
  | some p => compareOn p.rank

/-- What a term asks of the values of two cells. -/
def compareValues (t : OrderTerm) : Value → Value → Ordering :=
  if t.descending then fun v w => c t.column w v else c t.column

/-- What a term asks of two rows. -/
def compareAt (t : OrderTerm) (row row' : Row) : Ordering :=
  compareLex (compareNulls t.nulls) (c.compareValues t) (row t.column) (row' t.column)

/-- What a list of terms asks of two rows: the first term that does not leave them in the same
place decides. -/
def compareRows : List OrderTerm → Row → Row → Ordering
  | [] => fun _ _ => .eq
  | t :: ts => compareLex (c.compareAt t) (compareRows ts)

section

variable {c} [hc : ∀ column, Std.TransCmp (c column)]

instance (nulls : Option NullPlace) : Std.TransCmp (compareNulls nulls) := by
  cases nulls with
  | none => exact { eq_swap := rfl, isLE_trans := fun _ _ => rfl }
  | some p => exact inferInstanceAs (Std.TransCmp (compareOn p.rank))

instance (t : OrderTerm) : Std.TransCmp (c.compareValues t) := by
  rw [compareValues]
  split
  · exact Std.TransCmp.opposite
  · exact hc t.column

instance (t : OrderTerm) : Std.TransCmp (c.compareAt t) :=
  have hcells : Std.TransCmp (compareLex (compareNulls t.nulls) (c.compareValues t)) :=
    inferInstance
  { eq_swap := hcells.eq_swap, isLE_trans := hcells.isLE_trans }

instance (ts : List OrderTerm) : Std.TransCmp (c.compareRows ts) := by
  induction ts with
  | nil => exact { eq_swap := rfl, isLE_trans := fun _ _ => rfl }
  | cons t ts ih =>
    exact inferInstanceAs (Std.TransCmp (compareLex (c.compareAt t) (c.compareRows ts)))

/-- Two rows that differ in the column of a term are not in the same place. -/
theorem compareRows_ne_eq {ts : List OrderTerm} {t : OrderTerm} (ht : t ∈ ts) {row row' : Row}
    (h : c t.column (row t.column) (row' t.column) ≠ .eq) : c.compareRows ts row row' ≠ .eq := by
  induction ts with
  | nil => cases ht
  | cons u ts ih =>
    rw [compareRows, Ne, compareLex_eq_eq]
    rintro ⟨hfirst, hrest⟩
    rcases List.mem_cons.1 ht with rfl | ht
    · rw [compareAt, compareLex_eq_eq, compareValues] at hfirst
      split at hfirst
      · exact h (Std.OrientedCmp.eq_symm hfirst.2)
      · exact h hfirst.2
    · exact ih ht hrest

end

/-! ## Results -/

/-- Rows in an order that a list of terms allows. -/
structure IsOrdered (ts : List OrderTerm) (rows result : List Row) : Prop where
  perm : result.Perm rows
  pairwise : result.Pairwise fun row row' => (c.compareRows ts row row').isLE = true

/-- The same for things that a database holds as rows, as `held` says. -/
structure Allows {α : Type} (ts : List OrderTerm) (held : α → Row) (rows result : List α) :
    Prop where
  perm : result.Perm rows
  pairwise : result.Pairwise fun a b => (c.compareRows ts (held a) (held b)).isLE = true

theorem isOrdered_iff_allows {ts : List OrderTerm} {rows result : List Row} :
    c.IsOrdered ts rows result ↔ c.Allows ts id rows result :=
  ⟨fun ⟨hperm, hpairwise⟩ => ⟨hperm, hpairwise⟩, fun ⟨hperm, hpairwise⟩ => ⟨hperm, hpairwise⟩⟩

/-- What a database may give only depends on what is asked of two rows. -/
theorem allows_congr {α : Type} {c c' : Collation} {ts ts' : List OrderTerm} {held held' : α → Row}
    (h : ∀ a b, c.compareRows ts (held a) (held b) = c'.compareRows ts' (held' a) (held' b))
    (rows result : List α) : c.Allows ts held rows result ↔ c'.Allows ts' held' rows result :=
  ⟨fun ⟨hperm, hpairwise⟩ => ⟨hperm, hpairwise.imp fun hle => h _ _ ▸ hle⟩,
    fun ⟨hperm, hpairwise⟩ => ⟨hperm, hpairwise.imp fun hle => (h _ _).symm ▸ hle⟩⟩

/-- Two rows may be given as they are unless the second one comes first. -/
theorem isOrdered_pair {ts : List OrderTerm} {row row' : Row} :
    c.IsOrdered ts [row, row'] [row, row'] ↔ (c.compareRows ts row row').isLE = true :=
  ⟨fun h => List.rel_of_pairwise_cons h.pairwise List.mem_cons_self,
    fun h => ⟨.refl _, List.pairwise_pair.2 h⟩⟩

section

variable {c} [∀ column, Std.TransCmp (c column)] {ts : List OrderTerm} {rows : List Row}

/-- All rows can be put in an order that the terms allow. -/
theorem exists_isOrdered (ts : List OrderTerm) (rows : List Row) :
    ∃ result, c.IsOrdered ts rows result := by
  refine ⟨rows.mergeSort fun row row' => (c.compareRows ts row row').isLE,
    List.mergeSort_perm _ _, List.pairwise_mergeSort ?_ ?_ rows⟩
  · exact fun _ _ _ => Std.TransCmp.isLE_trans
  · intro row row'
    have hswap : c.compareRows ts row' row = (c.compareRows ts row row').swap :=
      Std.OrientedCmp.eq_swap
    rw [Bool.or_eq_true, hswap]
    cases c.compareRows ts row row' <;> simp

variable (h : rows.Pairwise fun row row' => c.compareRows ts row row' ≠ .eq)

include h

/-- Among rows of which no two share a place, only a row itself has its place. -/
theorem eq_of_compareRows {row row' : Row} (hrow : row ∈ rows) (hrow' : row' ∈ rows)
    (heq : c.compareRows ts row row' = .eq) : row = row' := by
  have : Std.Symm fun row row' : Row => c.compareRows ts row row' ≠ .eq :=
    ⟨fun _ _ hne heq => hne (Std.OrientedCmp.eq_symm heq)⟩
  exact Classical.byContradiction fun hne => List.Pairwise.forall h hrow hrow' hne heq

/-- If no two rows share a place there is one order to give. -/
theorem IsOrdered.eq {result result' : List Row} (hresult : c.IsOrdered ts rows result)
    (hresult' : c.IsOrdered ts rows result') : result = result' := by
  refine List.Perm.eq_of_pairwise (fun row row' hrow hrow' hle hge => ?_) hresult.pairwise
    hresult'.pairwise (hresult.perm.trans hresult'.perm.symm)
  refine eq_of_compareRows h (hresult.perm.subset hrow) (hresult'.perm.subset hrow') ?_
  exact Std.OrientedCmp.isLE_antisymm hle hge

/-- If no two rows share a place, every row is strictly before those that come after it. -/
theorem IsOrdered.strict {result : List Row} (hresult : c.IsOrdered ts rows result) :
    result.Pairwise fun row row' => c.compareRows ts row row' = .lt := by
  have hdistinct : result.Pairwise fun row row' => c.compareRows ts row row' ≠ .eq :=
    hresult.perm.symm.pairwise h fun hne heq => hne (Std.OrientedCmp.eq_symm heq)
  refine (hresult.pairwise.and hdistinct).imp ?_
  rintro row row' ⟨hle, hne⟩
  cases horder : c.compareRows ts row row' <;> simp_all

end

end Collation

end EntitySql
