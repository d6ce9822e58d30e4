import EntitySql.Proofs.Built
import EntitySql.Proofs.CommaLists
import EntitySql.Proofs.Meaning
import EntitySql.Proofs.Sorting

/-!
# The order that a text asks for

Databases do not agree on the place of NULL: some take it for the smallest
value of a column, others for the largest. For the latter the text of an order
names the place of NULL in every term, first where the column ascends and last
where it descends. So rows are in the same order everywhere.

- `OrderTerm.read?`: the term of a text.
- `RowOrder.AsksFor`: the terms that are read of the text of an order.
- `Collation.PutsNulls`: databases that take NULL for the smallest or the
  largest value.
- `Collation.compareRows_places`: both ask the same of two rows.
- `Collation.compareRows_reversed`: the reversed order asks the reverse.
- `RowOrder.orderBy_allows_same_results`: the whole way from an order to its results.
-/

namespace EntitySql

open Mark (ofText)

/-! ## Terms as texts -/

/-- The symbols of the place of NULL. -/
def NullPlace.symbols : NullPlace → List Symbol
  | .first => [.other "nulls".toList, .other "first".toList]
  | .last => [.other "nulls".toList, .other "last".toList]

/-- The text of the place of NULL is read as its symbols. -/
theorem NullPlace.readsAs : ∀ p : NullPlace, Mark.ReadsAs (ofText p.text) p.symbols
  | .first => .of_word [.other "nulls".toList] "first".toList fun ms =>
    (rfl : scanFrom .nothing (ofText " nulls first" ++ ms) = _)
  | .last => .of_word [.other "nulls".toList] "last".toList fun ms =>
    (rfl : scanFrom .nothing (ofText " nulls last" ++ ms) = _)

theorem NullPlace.stops (ms : List Mark) : ∀ p : NullPlace, Stops (ofText p.text ++ ms)
  | .first => (stops_char (.inl rfl) _ : Stops (ofText " nulls first" ++ ms))
  | .last => (stops_char (.inl rfl) _ : Stops (ofText " nulls last" ++ ms))

/-- The place of NULL that the end of a term names, if it is the end of one. -/
def NullPlace.read? : List Symbol → Option (Option NullPlace)
  | [] => some none
  | [.other w, .other p] =>
    if w ≠ "nulls".toList then none
    else if p = "first".toList then some (some .first)
    else if p = "last".toList then some (some .last)
    else none
  | _ => none

namespace OrderTerm

/-- The text of a term with its column set apart. -/
def marks (t : OrderTerm) : List Mark :=
  .column t.column ::
    (ofText (if t.descending then " desc" else "") ++ ofText (t.nulls.elim "" NullPlace.text))

/-- The symbols of a term. -/
def symbols (t : OrderTerm) : List Symbol :=
  .column t.column ::
    ((if t.descending then [.other "desc".toList] else []) ++ t.nulls.elim [] NullPlace.symbols)

/-- The term of symbols: a column, ascending unless it is said to descend, and the place of NULL if
there is one. -/
def read? : List Symbol → Option OrderTerm
  | .column column :: .other w :: rest =>
    if w = "desc".toList then (NullPlace.read? rest).map (⟨column, true, ·⟩)
    else (NullPlace.read? (.other w :: rest)).map (⟨column, false, ·⟩)
  | [.column column] => some ⟨column, false, none⟩
  | _ => none

/-- A term has the text of its marks. -/
theorem spells_marks (t : OrderTerm) : Mark.Spells t.marks t.text := by
  rw [text, String.append_assoc]
  exact ((Mark.spells_ofText _).append (Mark.spells_ofText _)).column t.column

/-- A term is read as its symbols. -/
theorem readsAs_marks (t : OrderTerm) : Mark.ReadsAs t.marks t.symbols := by
  obtain ⟨column, descending, nulls⟩ := t
  have hdirection : Mark.ReadsAs (ofText (if descending then " desc" else ""))
      (if descending then [.other "desc".toList] else []) := by
    cases descending with
    | false => exact .nil
    | true => exact .of_word [] "desc".toList fun _ => rfl
  refine .column (.append hdirection ?_ ?_) column
  · intro ms hms
    cases nulls with
    | none => exact hms
    | some p => exact p.stops ms
  · cases nulls with
    | none => exact .nil
    | some p => exact p.readsAs

theorem itemOf_marks (t : OrderTerm) : Mark.ItemOf read? t.marks t := by
  refine ⟨t.symbols, List.cons_ne_nil _ _, t.readsAs_marks, .of_forall_isPlain ?_, ?_⟩
  · obtain ⟨column, descending, nulls⟩ := t
    cases descending <;> rcases nulls with _ | _ | _ <;>
      simp [symbols, Symbol.isPlain, NullPlace.symbols]
  · obtain ⟨column, descending, nulls⟩ := t
    cases descending <;> rcases nulls with _ | _ | _ <;> rfl

/-- The terms of a list are read of it. -/
theorem readItems?_marks (ts : List OrderTerm) :
    readItems? read? (scan ((ofText ", ").intercalate (ts.map marks))) = some ts := by
  obtain ⟨symbols, hreads, hread⟩ := exists_readItems?
    (List.forall₂_map_left_iff.2 (List.forall₂_same.2 fun t (_ : t ∈ ts) => t.itemOf_marks))
  rw [hreads.scan, hread]

end OrderTerm

/-- An order has these terms, and its text, in which the columns are those of known fields, is read
as them. -/
structure RowOrder.AsksFor (names : EntityNames) (nullsSmallest : Bool) (s : RowOrder)
    (ts : List OrderTerm) : Prop where
  terms : s.terms names nullsSmallest = .ok ts
  read : ∃ text ms, s.orderBy names nullsSmallest = .ok text ∧
    (∀ style, (Mark.template ms).sql style = text) ∧ Mark.AllKnown names.Knows ms ∧
    readItems? OrderTerm.read? (scan ms) = some ts

/-- The text of an order of known fields is read as the terms of its segments. -/
theorem RowOrder.asksFor_of_known {names : EntityNames} (nullsSmallest : Bool) {s : RowOrder}
    (h : ∀ t ∈ s, ∃ text, names.columnOf t.field = .ok text) :
    s.AsksFor names nullsSmallest
      (s.map fun t => t.term (names.columnText t.field) nullsSmallest) := by
  have hterms := @terms_eq_map names nullsSmallest s h
  refine ⟨hterms, _, _, by rw [orderBy_eq, hterms]; rfl, Mark.Spells.sql (.intercalate ", "
    (forall₂_map_map fun t _ => OrderTerm.spells_marks t)), ?_, OrderTerm.readItems?_marks _⟩
  refine Mark.allKnown_intercalate ", " fun ms hms => ?_
  obtain ⟨t, ht, rfl⟩ := List.mem_map.1 hms
  obtain ⟨segment, -, -, hcolumn⟩ := exists_segment hterms ht
  simpa [OrderTerm.marks] using ⟨segment.field, hcolumn⟩

/-! ## The place of NULL -/

namespace NullPlace

/-- The rank of a cell only depends on whether it is NULL. -/
theorem rank_congr (p : NullPlace) {v w : Value} (h : v.isNull = w.isNull) :
    p.rank v = p.rank w := by
  rw [rank.eq_def, rank.eq_def, h]

/-- NULL is last where it would be first the other way round. -/
theorem compareOn_rank_last (v w : Value) :
    compareOn NullPlace.last.rank v w = compareOn NullPlace.first.rank w v := by
  simp only [compareOn, rank]
  cases v.isNull <;> cases w.isNull <;> rfl

end NullPlace

/-- An order with all its directions reversed. -/
def RowOrder.reversed (s : RowOrder) : RowOrder := s.map OrderSegment.reverse

namespace Collation

variable (c : Collation)

/-- A term that is reversed asks the reverse. -/
theorem compareAt_reverse (segment : OrderSegment) (text : String) (nullsSmallest : Bool)
    (row row' : Row) :
    c.compareAt (segment.reverse.term text nullsSmallest) row row' =
      c.compareAt (segment.term text nullsSmallest) row' row := by
  obtain ⟨field, descending⟩ := segment
  cases descending <;> cases nullsSmallest <;>
    simp [compareAt, compareLex, compareNulls, compareValues, OrderSegment.term,
      OrderSegment.reverse, NullPlace.compareOn_rank_last]

theorem compareRows_reversed (text : String → String) (nullsSmallest : Bool) (s : RowOrder)
    (row row' : Row) :
    c.compareRows (s.reversed.map fun t => t.term (text t.field) nullsSmallest) row row' =
      c.compareRows (s.map fun t => t.term (text t.field) nullsSmallest) row' row := by
  induction s with
  | nil => rfl
  | cons t s ih =>
    rw [RowOrder.reversed] at ih
    simp only [RowOrder.reversed, List.map_cons, compareRows, compareLex, ih]
    rw [compareAt_reverse]
    rfl

/-- A database takes NULL for the smallest value of a column, or for the largest one. -/
def PutsNulls (p : NullPlace) : Prop :=
  ∀ column v w, v.isNull = true ∨ w.isNull = true → c column v w = compareOn p.rank v w

/-- Two databases hold the same rows under their names: the cells of a field are NULL in both or in
neither, and those that are not NULL are put in the same order. -/
structure SameRows {α : Type} (names names' : EntityNames) (c c' : Collation)
    (held held' : α → Row) :
    Prop where
  nulls : ∀ {key text text'}, names.columnOf key = .ok text → names'.columnOf key = .ok text' →
    ∀ a, (held a text).isNull = (held' a text').isNull
  values : ∀ {key text text'}, names.columnOf key = .ok text → names'.columnOf key = .ok text' →
    ∀ a b, (held a text).isNull = false → (held b text).isNull = false →
      c text (held a text) (held b text) = c' text' (held' a text') (held' b text')

section

variable {c} {α : Type} {names names' : EntityNames} {large small : Collation}
  {held held' : α → Row}

/-- A term that names the place of NULL asks the same of a database that takes it for the largest
value as one that does not of a database that takes it for the smallest. -/
theorem compareAt_places (hlarge : large.PutsNulls .last) (hsmall : small.PutsNulls .first)
    (hsame : SameRows names names' large small held held') {segment : OrderSegment}
    {text text' : String} (htext : names.columnOf segment.field = .ok text)
    (htext' : names'.columnOf segment.field = .ok text') (a b : α) :
    large.compareAt (segment.term text true) (held a) (held b) =
      small.compareAt (segment.term text' false) (held' a) (held' b) := by
  have hascending : ∀ a b, large.compareAt ⟨text, false, some .first⟩ (held a) (held b) =
      small.compareAt ⟨text', false, none⟩ (held' a) (held' b) := by
    intro a b
    have hleft : large.compareAt ⟨text, false, some .first⟩ (held a) (held b) =
        (compareOn NullPlace.first.rank (held a text) (held b text)).then
          (large text (held a text) (held b text)) := rfl
    have hright : small.compareAt ⟨text', false, none⟩ (held' a) (held' b) =
        small text' (held' a text') (held' b text') := rfl
    have hrank : compareOn NullPlace.first.rank (held a text) (held b text) =
        compareOn NullPlace.first.rank (held' a text') (held' b text') := by
      rw [compareOn, compareOn, NullPlace.rank_congr _ (hsame.nulls htext htext' a),
        NullPlace.rank_congr _ (hsame.nulls htext htext' b)]
    rw [hleft, hright]
    by_cases hnull : (held a text).isNull = true ∨ (held b text).isNull = true
    · have hnull' : (held' a text').isNull = true ∨ (held' b text').isNull = true := by
        rwa [← hsame.nulls htext htext', ← hsame.nulls htext htext']
      have hswap : compareOn NullPlace.first.rank (held b text) (held a text) =
          (compareOn NullPlace.first.rank (held a text) (held b text)).swap :=
        Std.OrientedCmp.eq_swap
      rw [hlarge _ _ _ hnull, hsmall _ _ _ hnull', ← hrank, NullPlace.compareOn_rank_last, hswap]
      cases compareOn NullPlace.first.rank (held a text) (held b text) <;> rfl
    · rw [not_or, Bool.not_eq_true, Bool.not_eq_true] at hnull
      have hequal : compareOn NullPlace.first.rank (held a text) (held b text) = .eq := by
        rw [compareOn, NullPlace.rank_congr _ (hnull.1.trans hnull.2.symm)]
        exact Std.ReflCmp.compare_self
      rw [hequal, Ordering.eq_then, hsame.values htext htext' a b hnull.1 hnull.2]
  obtain ⟨field, descending⟩ := segment
  cases descending with
  | false => exact hascending a b
  | true =>
    -- a descending term is the reverse of an ascending one, for both databases
    have hreverse : (⟨field, true⟩ : OrderSegment) = OrderSegment.reverse ⟨field, false⟩ := rfl
    rw [hreverse, compareAt_reverse, compareAt_reverse]
    exact hascending b a

theorem compareRows_places (hlarge : large.PutsNulls .last) (hsmall : small.PutsNulls .first)
    (hsame : SameRows names names' large small held held') {s : RowOrder}
    (hknown : ∀ t ∈ s, ∃ text, names.columnOf t.field = .ok text)
    (hknown' : ∀ t ∈ s, ∃ text, names'.columnOf t.field = .ok text) (a b : α) :
    large.compareRows (s.map fun t => t.term (names.columnText t.field) true) (held a) (held b) =
      small.compareRows (s.map fun t => t.term (names'.columnText t.field) false)
        (held' a) (held' b) := by
  induction s with
  | nil => rfl
  | cons t s ih =>
    obtain ⟨⟨text, htext⟩, hknown⟩ := List.forall_mem_cons.1 hknown
    obtain ⟨⟨text', htext'⟩, hknown'⟩ := List.forall_mem_cons.1 hknown'
    have hfirst := compareAt_places hlarge hsmall hsame htext htext' a b
    rw [List.map_cons, List.map_cons, compareRows, compareRows, compareLex, compareLex,
      ih hknown hknown', EntityNames.columnText, htext, EntityNames.columnText, htext', hfirst]

/-- What a database may give for the reverse of what is asked is the reverse of what it may give. -/
theorem allows_reverse {ts ts' : List OrderTerm}
    (h : ∀ row row', c.compareRows ts' row row' = c.compareRows ts row' row)
    {rows result : List α} :
    c.Allows ts' held rows result ↔ c.Allows ts held rows result.reverse := by
  constructor
  · rintro ⟨hperm, hpairwise⟩
    refine ⟨(List.reverse_perm _).trans hperm, List.pairwise_reverse.2 (hpairwise.imp ?_)⟩
    exact fun hle => h _ _ ▸ hle
  · rintro ⟨hperm, hpairwise⟩
    refine ⟨(List.reverse_perm _).symm.trans hperm, (List.pairwise_reverse.1 hpairwise).imp ?_⟩
    exact fun hle => (h _ _).symm ▸ hle

end

end Collation

/-! ## The order of rows -/

namespace RowOrder

variable {s : RowOrder}

/-- An order whose field is not known is refused, for every way of wrapping names and whatever the
place of NULL. -/
theorem orderBy_eq_error {e : Entity} (h : ¬ ∀ t ∈ s, ∃ f ∈ e.selected, f.key = t.field) :
    ∃ failure, ∀ wrap nullsSmallest,
      s.orderBy (.resolveBy e wrap) nullsSmallest = .error failure := by
  suffices hterms : ∃ failure, ∀ wrap nullsSmallest,
      s.terms (.resolveBy e wrap) nullsSmallest = .error failure by
    obtain ⟨failure, hfailure⟩ := hterms
    exact ⟨failure, fun wrap nullsSmallest => by rw [orderBy_eq, hfailure]; rfl⟩
  induction s with
  | nil => exact absurd (fun t ht => nomatch ht) h
  | cons t s ih =>
    rcases EntityNames.columnOf_resolveBy_cases e t.field with ⟨f, hf, hkey, hcolumn⟩ | ⟨-, hcolumn⟩
    · obtain ⟨failure, hfailure⟩ := ih fun hall =>
        h (List.forall_mem_cons.2 ⟨⟨f, hf, hkey⟩, hall⟩)
      exact ⟨failure, fun wrap nullsSmallest => by rw [terms, hcolumn, ok_bind, hfailure]; rfl⟩
    · exact ⟨_, fun wrap nullsSmallest => by rw [terms, hcolumn]; rfl⟩

/-- The fields of an order that the database knows have a text. -/
theorem exists_columnOf_of_selected {e : Entity} (h : ∀ t ∈ s, ∃ f ∈ e.selected, f.key = t.field)
    (wrap : String → String) :
    ∀ t ∈ s, ∃ text, (EntityNames.resolveBy e wrap).columnOf t.field = .ok text := by
  intro t ht
  rcases EntityNames.columnOf_resolveBy_cases e t.field with ⟨f, -, -, hcolumn⟩ | ⟨hunknown, -⟩
  · exact ⟨_, hcolumn wrap⟩
  · exact absurd (h t ht) hunknown

/-- An order of an entity is asked for by a database that takes NULL for the largest value, with the
place of NULL in its text, and by one that takes NULL for the smallest value, without it. If a field
is not known, both refuse it alike. If not, both texts are read as terms, and for the same rows
these allow the same results, wherever there is NULL. With every direction reversed, both allow the
reverse of these. -/
theorem orderBy_allows_same_results (e : Entity) (json json' : Bool)
    (wrap wrap' : String → String) (s : RowOrder) :
    ((¬ ∀ t ∈ s, ∃ f ∈ e.selected, f.key = t.field) → ∃ failure,
      s.orderBy (.resolveBy (e.storedAs json) wrap) true = .error failure ∧
      s.orderBy (.resolveBy (e.storedAs json') wrap') false = .error failure) ∧
    ((∀ t ∈ s, ∃ f ∈ e.selected, f.key = t.field) → ∃ ts back ts' back',
      s.AsksFor (.resolveBy (e.storedAs json) wrap) true ts ∧
      s.reversed.AsksFor (.resolveBy (e.storedAs json) wrap) true back ∧
      s.AsksFor (.resolveBy (e.storedAs json') wrap') false ts' ∧
      s.reversed.AsksFor (.resolveBy (e.storedAs json') wrap') false back' ∧
      ∀ {α : Type} {large small : Collation} {held held' : α → Row},
        large.PutsNulls .last → small.PutsNulls .first →
        Collation.SameRows (.resolveBy (e.storedAs json) wrap)
          (.resolveBy (e.storedAs json') wrap') large small held held' →
        ∀ rows result : List α,
          (large.Allows ts held rows result ↔ small.Allows ts' held' rows result) ∧
          (large.Allows back held rows result ↔ large.Allows ts held rows result.reverse) ∧
          (small.Allows back' held' rows result ↔ small.Allows ts' held' rows result.reverse)) := by
  simp only [Entity.resolveBy_storedAs]
  refine ⟨fun hunknown => ?_, fun hselected => ?_⟩
  · obtain ⟨failure, hfailure⟩ := orderBy_eq_error hunknown
    exact ⟨failure, hfailure wrap true, hfailure wrap' false⟩
  · have hknown := exists_columnOf_of_selected hselected
    have hback : ∀ wrap, ∀ t ∈ s.reversed, ∃ text,
        (EntityNames.resolveBy e wrap).columnOf t.field = .ok text := fun wrap =>
      List.forall_mem_map.2 (hknown wrap)
    refine ⟨_, _, _, _, asksFor_of_known true (hknown wrap), asksFor_of_known true (hback wrap),
      asksFor_of_known false (hknown wrap'), asksFor_of_known false (hback wrap'),
      fun {α large small held held'} hlarge hsmall hsame rows result => ⟨?_, ?_, ?_⟩⟩
    · exact Collation.allows_congr (Collation.compareRows_places hlarge hsmall hsame (hknown wrap)
        (hknown wrap')) rows result
    · exact Collation.allows_reverse (large.compareRows_reversed _ true s)
    · exact Collation.allows_reverse (small.compareRows_reversed _ false s)

/-- A table of games and the points that were made in them, if any. -/
def games : Entity :=
  { key := "game", table := "game"
    fields := [.ofType "id" .integer, { Field.ofType "points" .integer with allowNull := true }]
    identity := ["id"] }

/-- A database that sorts numbers by their size and has a place for NULL. -/
def byPoints (p : NullPlace) : Collation := fun _ v w =>
  if v.isNull || w.isNull then compareOn p.rank v w
  else compareOn (fun cell : Value => (cell.toInt64?.getD 0).toInt) v w

/-- A way to wrap names. -/
def bracketed (name : String) : String := "[" ++ name ++ "]"

/-- The row of a game with its points, where names are wrapped. -/
def gameRow (wrap : String → String) (game : Int64 × Option Int64) : Row := fun column =>
  if column = wrap "id" then .integer game.1 else game.2.elim .null .integer

/-- A field of a game has the same cell, however names are wrapped. -/
theorem gameRow_eq {key text text' : String}
    (h : (EntityNames.resolveBy games bracketed).columnOf key = .ok text)
    (h' : (EntityNames.resolveBy games id).columnOf key = .ok text') (game : Int64 × Option Int64) :
    gameRow bracketed game text = gameRow id game text' := by
  rcases EntityNames.columnOf_resolveBy_cases games key with ⟨f, hf, rfl, hcolumn⟩ | ⟨-, hcolumn⟩
  · obtain rfl := Except.ok.inj ((hcolumn _).symm.trans h)
    obtain rfl := Except.ok.inj ((hcolumn _).symm.trans h')
    have hfields : f = .ofType "id" .integer ∨
        f = { Field.ofType "points" .integer with allowNull := true } := by
      simpa [games, Entity.selected, Field.ofType] using hf
    rcases hfields with rfl | rfl <;> rfl
  · cases (hcolumn _).symm.trans h

/-- Games by their points, the most points first, and those without points after them: the text says
so where NULL is the largest value, and not where it is the smallest. -/
theorem orderBy_allows_same_results_games :
    RowOrder.orderBy (.resolveBy games bracketed) true [⟨"points", true⟩, ⟨"id", false⟩] =
      .ok "[points] desc nulls last, [id] nulls first" ∧
    RowOrder.orderBy (.resolveBy games id) false [⟨"points", true⟩, ⟨"id", false⟩] =
      .ok "points desc, id" ∧
    ∃ ts ts',
      AsksFor (.resolveBy games bracketed) true [⟨"points", true⟩, ⟨"id", false⟩] ts ∧
      AsksFor (.resolveBy games id) false [⟨"points", true⟩, ⟨"id", false⟩] ts' ∧
      (byPoints .last).Allows ts (gameRow bracketed)
        [(1, none), (2, some 5), (3, some 7), (4, none)]
        [(3, some 7), (2, some 5), (1, none), (4, none)] ∧
      (byPoints .first).Allows ts' (gameRow id) [(1, none), (2, some 5), (3, some 7), (4, none)]
        [(3, some 7), (2, some 5), (1, none), (4, none)] := by
  refine ⟨rfl, rfl, ?_⟩
  obtain ⟨ts, back, ts', back', hasks, -, hasks', -, hallows⟩ :=
    (orderBy_allows_same_results games true true bracketed id
      [⟨"points", true⟩, ⟨"id", false⟩]).2 (by decide)
  have hplaces (p : NullPlace) : (byPoints p).PutsNulls p := fun column v w h => by
    rw [byPoints, if_pos (by simpa using h)]
  have hsame : Collation.SameRows (.resolveBy games bracketed) (.resolveBy games id)
      (byPoints .last) (byPoints .first) (gameRow bracketed) (gameRow id) := by
    refine ⟨fun h h' game => by rw [gameRow_eq h h'], fun h h' game game' hnull hnull' => ?_⟩
    rw [gameRow_eq h h'] at hnull hnull' ⊢
    rw [gameRow_eq h h', byPoints, byPoints, hnull, hnull']
    rfl
  have hsmall : (byPoints .first).Allows ts' (gameRow id)
      [(1, none), (2, some 5), (3, some 7), (4, none)]
      [(3, some 7), (2, some 5), (1, none), (4, none)] := by
    cases hasks'.terms
    exact ⟨by decide, by decide⟩
  exact ⟨ts, ts', hasks, hasks', (hallows (hplaces .last) (hplaces .first) hsame _ _).1.2 hsmall,
    hsmall⟩

end RowOrder

end EntitySql
