import EntitySql.Proofs.Queries
import EntitySql.Proofs.Sorting

/-!
# Results in pages

A caller who reads a result in pages sends one statement for each of them, and
the database sorts the rows anew each time. If two rows shared a place it could
put them one way for one page and the other way for the next, and a row would
be read twice or never. So the order of a page ends with the identity of the
entity, whatever the caller has asked for.

- `Collation.IsPage`, `Collation.Paginates`: what a database may give for a page,
  and pages that are parts of one result.
- `Store.AsksForPage`: a statement that asks for a page.
- `Store.find_page`: when a page is asked for, and when it is refused.
- `Store.pages_partition_rows`: what searches with a limit send, and that their
  pages are parts of one result.
-/

namespace EntitySql

/-! ## Pages -/

/-- At most `limit` rows after the first `offset`. -/
def pageOf (limit offset : Nat) (result : List Row) : List Row := (result.drop offset).take limit

/-- The pages of a result up to a number make up its beginning. -/
theorem flatMap_pageOf (limit : Nat) (result : List Row) (n : Nat) :
    (List.range n).flatMap (fun p => pageOf limit (p * limit) result) =
      result.take (n * limit) := by
  induction n with
  | zero => simp
  | succ n ih =>
    rw [List.range_succ, List.flatMap_append, ih, Nat.succ_mul, List.take_add,
      List.flatMap_singleton]
    rfl

/-- Different pages of a result without repetitions have no row in common. -/
theorem disjoint_pageOf {result : List Row} (h : result.Nodup) {limit p q : Nat} (hpq : p < q) :
    (pageOf limit (p * limit) result).Disjoint (pageOf limit (q * limit) result) := by
  have hfirst : pageOf limit (p * limit) result ⊆ result.take ((p + 1) * limit) := by
    rw [Nat.succ_mul, List.take_add]
    exact List.subset_append_right _ _
  have hle : (p + 1) * limit ≤ q * limit := Nat.mul_le_mul_right limit hpq
  intro row hrow hrow'
  exact List.disjoint_take_drop h hle (hfirst hrow) (List.take_subset _ _ hrow')

namespace Collation

variable (c : Collation)

/-- What a database may give for a page of the rows that a list of terms sorts. -/
def IsPage (ts : List OrderTerm) (rows : List Row) (limit offset : Nat) (page : List Row) : Prop :=
  ∃ result, c.IsOrdered ts rows result ∧ page = pageOf limit offset result

/-- The pages of some rows are parts of one result. -/
structure Paginates (ts : List OrderTerm) (rows : List Row) (limit : Nat) : Prop where
  /-- No two rows share a place. -/
  strict : rows.Pairwise fun row row' => c.compareRows ts row row' ≠ .eq
  /-- Whatever the database gives for the pages, those up to a number make up the beginning of the
  result, in its order, and no row is on two of them. -/
  parts : ∃ result, c.IsOrdered ts rows result ∧
    result.Pairwise (fun row row' => c.compareRows ts row row' = .lt) ∧
    ∀ pages : Nat → List Row, (∀ p, 1 ≤ p → c.IsPage ts rows limit ((p - 1) * limit) (pages p)) →
      (∀ n, (List.range' 1 n).flatMap pages = result.take (n * limit)) ∧
      (∀ n, rows.length ≤ n * limit → (List.range' 1 n).flatMap pages = result) ∧
      ∀ p q, 1 ≤ p → p < q → (pages p).Disjoint (pages q)

/-- If no two rows share a place, the pages of the rows are parts of one result. -/
theorem paginates {c : Collation} [∀ column, Std.TransCmp (c column)] {ts : List OrderTerm}
    {rows : List Row} (h : rows.Pairwise fun row row' => c.compareRows ts row row' ≠ .eq)
    (limit : Nat) : c.Paginates ts rows limit := by
  obtain ⟨result, hresult⟩ := c.exists_isOrdered ts rows
  have hstrict := hresult.strict h
  have hnodup : result.Nodup := hstrict.imp fun {row row'} hlt heq => by
    have hself : c.compareRows ts row row = .eq := Std.ReflCmp.compare_self
    rw [← heq, hself] at hlt
    cases hlt
  refine ⟨h, result, hresult, hstrict, fun pages hpages => ?_⟩
  -- each page is cut from a result of its own, and all of these are the same one
  have hpage : ∀ p, pages (p + 1) = pageOf limit (p * limit) result := by
    intro p
    obtain ⟨result', hresult', heq⟩ := hpages (p + 1) (Nat.succ_pos p)
    rw [heq, hresult'.eq h hresult, Nat.add_sub_cancel]
  have hbeginning : ∀ n, (List.range' 1 n).flatMap pages = result.take (n * limit) := by
    intro n
    rw [← flatMap_pageOf, List.range'_eq_map_range, List.flatMap_map]
    simp only [Nat.add_comm 1, hpage]
  refine ⟨hbeginning, fun n hn => ?_, fun p q hp hpq => ?_⟩
  · rw [hbeginning, List.take_of_length_le]
    rwa [hresult.perm.length_eq]
  · obtain ⟨p, rfl⟩ := Nat.exists_eq_add_of_le' hp
    obtain ⟨q, rfl⟩ := Nat.exists_eq_add_of_le' (Nat.le_of_lt (Nat.lt_of_le_of_lt hp hpq))
    rw [hpage, hpage]
    exact disjoint_pageOf hnodup (Nat.lt_of_succ_lt_succ hpq)

end Collation

/-! ## Statements for pages -/

/-- The fields that the database knows have the same keys however documents are stored. -/
theorem Entity.exists_selected_storedAs {e : Entity} {key : String}
    (h : ∃ f ∈ e.selected, f.key = key) (hasJsonColumns : Bool) :
    ∃ f ∈ (e.storedAs hasJsonColumns).selected, f.key = key := by
  cases hasJsonColumns with
  | true => exact h
  | false =>
    obtain ⟨f, hf, rfl⟩ := h
    obtain ⟨hmem, hknown⟩ := List.mem_filter.1 hf
    rw [storedAs_false]
    refine ⟨storeField e.documentKeys f, List.mem_filter.2 ⟨List.mem_map_of_mem hmem, ?_⟩,
      (storeField_key _ f).1⟩
    rw [storeField]
    split <;> exact hknown

section

variable {db : Database} {e : Entity} (he : (db.store e).entity.IsSound)

include he

/-- The fields of an order have columns if the database knows them. -/
theorem Database.exists_columnOf_segment {order : RowOrder}
    (horder : ∀ segment ∈ order, ∃ f ∈ e.selected, f.key = segment.field) :
    ∀ segment ∈ order, ∃ column,
      (EntityNames.resolve (db.store e).entity db.dialect.quoting).columnOf segment.field =
        .ok column := by
  intro segment hsegment
  obtain ⟨f, hf, hkey⟩ := Entity.exists_selected_storedAs (horder segment hsegment)
    db.dialect.capabilities.jsonColumns
  exact ⟨_, hkey ▸ EntityNames.columnOf_selected he db.dialect.quoting hf⟩

theorem Database.exists_columnOf_identity :
    ∀ key ∈ (db.store e).entity.identity, ∃ column,
      (EntityNames.resolve (db.store e).entity db.dialect.quoting).columnOf key = .ok column := by
  intro key hkey
  obtain ⟨f, -, hcolumn⟩ := EntityNames.columnOf_resolve he db.dialect.quoting hkey
  exact ⟨_, hcolumn⟩

end

/-- Rows differ in a column of the identity, as far as a database tells their cells apart. -/
def Entity.Distinguishes (e : Entity) (names : EntityNames) (c : Collation) (row row' : Row) :
    Prop :=
  ∃ key ∈ e.identity, ∃ column, names.columnOf key = .ok column ∧
    c column (row column) (row' column) ≠ .eq

namespace FindOptions

variable {o : FindOptions} {limit : Nat}

/-- The order of a page ends with the identity. -/
theorem rowOrder_of_limit (h : o.pageSize? = some limit) (e : Entity) :
    o.rowOrder e = RowOrder.unique e (o.order.getD []) := by
  rw [rowOrder, h]
  cases o.order <;> rfl

/-- The clause for a page whose first row can be told, and what is wrong with the others. -/
theorem pageText_of_limit (h : o.pageSize? = some limit) (d : Dialect) :
    o.pageText d = if FitsUnsigned ((max (o.page.getD 1) 1 - 1) * limit) then
        .ok (" " ++ d.limitText limit ((max (o.page.getD 1) 1 - 1) * limit))
      else .error (.invalidFilter
        s!"page {max (o.page.getD 1) 1} of {limit} rows is out of range") := by
  rw [pageText, h]
  dsimp only
  rw [offset]
  split <;> rfl

end FindOptions

namespace Store

/-- A statement asks for a page: for all columns of the rows that pass the filter, in the order of
a list of terms, and of these for at most `limit` after the first `offset`. -/
structure AsksForPage (st : Store) (names : EntityNames) (filter : Option Filter)
    (ts : List OrderTerm) (limit offset : Nat) (x : Statement) : Prop where
  asks : ∃ columns clause, selectList st.entity names = .ok columns ∧
    optionalClause st.entity names filter = .ok clause ∧
    x.sql = "select " ++ columns ++ " from " ++ names.table ++
      clause.sql st.database.dialect.style ++
      " order by " ++ String.intercalate ", " (ts.map OrderTerm.text) ++
      " " ++ st.database.dialect.limitText limit offset ∧
    x.params = clause.values

variable {st : Store} {names : EntityNames} {o : FindOptions} {columns : String}
  {clause : Template} {ts : List OrderTerm} {limit offset : Nat}

section

variable (hcolumns : selectList st.entity names = .ok columns)
  (hclause : optionalClause st.entity names o.filter = .ok clause)
  (hlimit : o.pageSize? = some limit)
  (hterms : RowOrder.terms names st.database.dialect.capabilities.nullsFirst
    (RowOrder.unique st.entity (o.order.getD [])) = .ok ts)
  (hoffset : offset = (max (o.page.getD 1) 1 - 1) * limit)

include hcolumns hclause hlimit hterms hoffset

/-- A page whose first row has no number of 64 bits is refused. -/
theorem findStatement_of_not_fits (h : ¬ FitsUnsigned offset) :
    ∃ detail, findStatement st.entity names st.database.dialect o =
      .error (.invalidFilter detail) := by
  rw [findStatement, hcolumns, hclause, FindOptions.rowOrder_of_limit hlimit, RowOrder.orderBy_eq,
    hterms, FindOptions.pageText_of_limit hlimit, ← hoffset, if_neg h]
  exact ⟨_, rfl⟩

/-- For any other page there is a statement that asks for it. -/
theorem findStatement_of_fits (h : FitsUnsigned offset) :
    ∃ t, findStatement st.entity names st.database.dialect o = .ok t ∧
      st.AsksForPage names o.filter ts limit offset (t.statement st.database.dialect.style) := by
  rw [findStatement, hcolumns, hclause, FindOptions.rowOrder_of_limit hlimit, RowOrder.orderBy_eq,
    hterms, FindOptions.pageText_of_limit hlimit, ← hoffset, if_pos h]
  refine ⟨_, rfl, columns, clause, hcolumns, hclause, ?_, ?_⟩
  · simp [Template.statement, Template.sql, Template.render, Template.render_append,
      String.append_assoc]
  · simp [Template.statement, Template.values]

/-- What a search for a page sends and when it is refused, where its filter compiles and its order
is known. -/
theorem find_page {s named : Session}
    (hnames : st.database.names st.entity s = (.ok names, named)) :
    ((∃ detail, (st.find o s).1 = .error (.invalidFilter detail)) ↔ ¬ FitsUnsigned offset) ∧
    (¬ FitsUnsigned offset → (st.find o s).2.statements = s.statements) ∧
    (FitsUnsigned offset → ∃ x, st.AsksForPage names o.filter ts limit offset x ∧
      (st.find o s).2.statements =
        s.statements ++ if s.isOpen st.database.scope then [x] else []) := by
  rw [find_eq_query]
  by_cases hfits : FitsUnsigned offset
  · obtain ⟨t, ht, hasks⟩ := findStatement_of_fits hcolumns hclause hlimit hterms hoffset hfits
    refine ⟨iff_of_false ?_ (not_not_intro hfits), absurd hfits, fun _ => ?_⟩
    · rintro ⟨detail, hfailed⟩
      exact query_failsLater hnames ht (fun _ => decodeRows_failsLater _ _) _ hfailed rfl
    · exact ⟨_, hasks, statements_query hnames ht⟩
  · obtain ⟨detail, hrefused⟩ :=
      findStatement_of_not_fits hcolumns hclause hlimit hterms hoffset hfits
    rw [query_of_error hnames hrefused]
    exact ⟨iff_of_true ⟨detail, rfl⟩ hfits, fun _ => (Database.quiet_names hnames).1,
      (absurd · hfits)⟩

end

/-- A search with a limit asks for the rows in an order that begins with what the caller has asked
for and goes on with the identity fields that this does not mention, so that there is a term for
each of them. The page is the given one, counted from one, or the first; a page whose first row has
no number of 64 bits is refused as an invalid filter before anything is sent, and no other one is.
However a database compares the cells of a column, no two rows of a table share a place unless they
have the same identity, and the pages are parts of one result. -/
theorem pages_partition_rows {e : BuiltEntity}
    {db : Database} {s named : Session} {names : EntityNames}
    (hown : db.KnowsOwn (db.store e).entity s)
    (hnames : db.names (db.store e).entity s = (.ok names, named)) {filter : Option Filter}
    (hfilter : ∀ f ∈ filter, ∃ compiled, f.compile (db.store e).entity names = .ok compiled)
    {order : Option RowOrder}
    (horder : ∀ segment ∈ order.getD [], ∃ f ∈ e.selected, f.key = segment.field) {limit : Nat}
    (hlimit : 0 < limit) :
    ∃ first rest : List OrderTerm,
      RowOrder.terms names db.dialect.capabilities.nullsFirst (order.getD []) = .ok first ∧
      (∀ t ∈ rest, t.descending = false ∧
        ∃ key ∈ e.identity, names.columnOf key = .ok t.column) ∧
      first ++ rest ≠ [] ∧
      (∀ key ∈ e.identity, ∃ t ∈ first ++ rest, names.columnOf key = .ok t.column) ∧
      (∀ (page : Option Nat) (offset : Nat), offset = (max (page.getD 1) 1 - 1) * limit →
        ((∃ detail, ((db.store e).find ⟨filter, order, some limit, page⟩ s).1 =
          .error (.invalidFilter detail)) ↔ ¬ FitsUnsigned offset) ∧
        (¬ FitsUnsigned offset →
          ((db.store e).find ⟨filter, order, some limit, page⟩ s).2.statements = s.statements) ∧
        (FitsUnsigned offset →
          ∃ x, (db.store e).AsksForPage names filter (first ++ rest) limit offset x ∧
            ((db.store e).find ⟨filter, order, some limit, page⟩ s).2.statements =
              s.statements ++ if s.isOpen db.scope then [x] else [])) ∧
      ∀ (c : Collation) (rows : List Row) (passes : Row → Bool),
        (∀ column, Std.TransCmp (c column)) → rows.Pairwise (e.Distinguishes names c) →
          c.Paginates (first ++ rest) (rows.filter passes) limit := by
  have he : (db.store e).entity.IsSound := e.isSound.storedAs _
  obtain ⟨-, hidentity⟩ : (db.store e).entity.key = e.key ∧
      (db.store e).entity.identity = e.identity := e.storedAs_same _
  obtain rfl := hown.eq_resolve hnames
  have hknown := Database.exists_columnOf_segment he horder
  have hcolumn := Database.exists_columnOf_identity he
  obtain ⟨clause, hclause⟩ : ∃ clause,
      optionalClause (db.store e).entity (.resolve (db.store e).entity db.dialect.quoting) filter =
        .ok clause := by
    cases filter with
    | none => exact ⟨[], rfl⟩
    | some f =>
      obtain ⟨compiled, hcompiled⟩ := hfilter f rfl
      exact ⟨Filter.clauseOf compiled, by rw [optionalClause, Filter.whereClause, hcompiled]; rfl⟩
  obtain ⟨first, rest, hfirst, hterms, hrest, hall⟩ :
      ∃ first rest, RowOrder.terms (.resolve (db.store e).entity db.dialect.quoting)
        db.dialect.capabilities.nullsFirst _ = .ok first ∧ _ :=
    RowOrder.exists_terms_unique hknown hcolumn
  rw [hidentity] at hrest hall
  refine ⟨first, rest, hfirst, hrest, ?_, hall, fun page offset hoffset => ?_,
    fun c rows passes hc hrows => ?_⟩
  · intro hnil
    obtain ⟨key, hkey⟩ := e.isSound.exists_identity
    obtain ⟨t, ht, -⟩ := hall key hkey
    exact List.not_mem_nil (hnil ▸ ht)
  · have hcolumns := selectList_resolve he db.dialect.quoting
    have hpage : (FindOptions.mk filter order (some limit) page).pageSize? = some limit := by
      simp [FindOptions.pageSize?, hlimit]
    exact find_page hcolumns hclause hpage hterms hoffset hnames
  · refine Collation.paginates ((hrows.imp fun hdiffer => ?_).filter passes) limit
    obtain ⟨key, hkey, column, hcolumn, hne⟩ := hdiffer
    obtain ⟨t, ht, hterm⟩ := hall key hkey
    cases hcolumn.symm.trans hterm
    exact Collation.compareRows_ne_eq ht hne

/-- A row of the table of lines. -/
def lineRow (orderId lineNo : Int64) : Row := fun column =>
  if column = "orderId" then .integer orderId
  else if column = "lineNo" then .integer lineNo else .null

/-- Columns of numbers, by their size. -/
def byNumber : Collation := fun _ => compareOn fun cell => (cell.toInt64?.getD 0).toInt

/-- The lines of two orders by their numbers, the highest first, two on a page: the orders decide
between lines of the same number. The second page is what is asked for; a page far beyond the last
one is refused. -/
theorem pages_partition_rows_lines :
    (∃ ts, (lineDatabase.store line).AsksForPage (.resolve line .bare) none ts 2 2
        ⟨"select orderId, lineNo, sku from lines order by lineNo desc, orderId limit 2 offset 2",
          []⟩ ∧
      byNumber.Paginates ts [lineRow 1 1, lineRow 2 1, lineRow 1 2] 2) ∧
    ∃ detail, ((lineDatabase.store line).find ⟨none, some [⟨"lineNo", true⟩], some 2,
      some 9223372036854775809⟩ Session.fresh).1 = .error (.invalidFilter detail) := by
  obtain ⟨first, rest, -, -, -, -, hpages, hpaginates⟩ :=
    @pages_partition_rows builtLine lineDatabase Session.fresh _ (.resolve line .bare)
      (fun n hn => nomatch hn) rfl none (fun f hf => nomatch hf) (some [⟨"lineNo", true⟩])
      (fun segment hsegment => by
        cases List.mem_singleton.1 hsegment
        exact ⟨.ofType "lineNo" .integer, by decide, rfl⟩) 2 (by decide)
  refine ⟨⟨first ++ rest, ?_, ?_⟩, ?_⟩
  · obtain ⟨x, hx, hsent⟩ := (hpages (some 2) 2 rfl).2.2 (by decide)
    have hx' : [_] = [x] := hsent
    cases hx'
    exact hx
  · have hdistinct : [lineRow 1 1, lineRow 2 1, lineRow 1 2].Pairwise
        (line.Distinguishes (.resolve line .bare) byNumber) := by
      simp only [List.pairwise_cons, List.mem_cons, List.not_mem_nil, or_false, forall_eq_or_imp,
        forall_eq, false_imp_iff, implies_true, List.Pairwise.nil, and_true]
      exact ⟨⟨⟨"orderId", by decide, "orderId", rfl, by decide⟩,
        ⟨"lineNo", by decide, "lineNo", rfl, by decide⟩⟩,
        ⟨"lineNo", by decide, "lineNo", rfl, by decide⟩⟩
    exact hpaginates byNumber _ (fun _ => true)
      (fun _ => inferInstanceAs (Std.TransCmp (compareOn _))) hdistinct
  · exact (hpages (some 9223372036854775809) _ rfl).1.2 (by decide)

end Store

end EntitySql
