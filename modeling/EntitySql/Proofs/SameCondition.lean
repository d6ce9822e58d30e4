import EntitySql.Proofs.Meaning
import EntitySql.Proofs.Pages
import EntitySql.Proofs.Templates

/-!
# One condition for all uses

A filter is used in three ways: its condition is asked for as a text, rows that
pass it are counted, and rows that pass it are searched. Each way looks up the
names of the entity and compiles the filter for itself. They have one condition
in common, with its values as literals in the first case and as parameters in
the others.

- `Condition.isWritten_simplify`, `Template.inlined_ne_empty`: a condition has a
  text with literals.
- `Filter.whereText`, `Filter.inlinedText`: both texts of a compiled filter.
- `Store.IsFramed`: what a search has before and after its condition.
- `Database.UsesOneCondition`: the three ways at a database handle.
-/

namespace EntitySql

/-! ## Literals -/

/-- A decimal is written with some character. -/
theorem Decimal.positional_ne_nil (d : Decimal) (wholeSuffix : String) :
    d.positional wholeSuffix ≠ [] := by
  have hdigits : digitsOf d.digits ≠ [] := Nat.toDigits_ne_nil
  rw [positional]
  split
  · simp [hdigits]
  · dsimp only
    split <;> simp

/-- Every value has a literal. -/
theorem Value.toList_literal_ne_nil (v : Value) : v.literal.toList ≠ [] := by
  have hquoted : ∀ s, (quotedLiteral s).toList ≠ [] := fun s => by simp [quotedLiteral]
  cases v with
  | null => decide
  | integer n =>
    rw [literal, int64Text, String.toList_ofList]
    cases n.toInt with
    | ofNat n => exact Nat.toDigits_ne_nil
    | negSucc n => exact List.cons_ne_nil _ _
  | float x =>
    rw [literal]
    split
    · rw [Layout.write, String.toList_ofList]
      cases Binary.ofFloat x with
      | nan => decide
      | infinite negative => cases negative <;> decide
      | finite negative mantissa exponent =>
        have hdecimal := Decimal.positional_ne_nil (shortest floatLayout.tie mantissa exponent) ""
        cases negative with
        | false => exact hdecimal
        | true => exact List.cons_ne_nil _ _
    · decide
  | text s => exact hquoted s
  | boolean b => cases b <;> decide
  | timestamp t => exact hquoted t.text
  | json j => exact hquoted j.compact

/-! ## Conditions with a text -/

/-- A statement with characters or values has a text with literals. -/
theorem Template.inlined_ne_empty {t : Template} (h : t.flat ≠ []) : t.inlined ≠ "" := by
  intro hempty
  have hspell : spell (fun _ v => v.literal) 1 t.flat = [] := by
    have htext : t.inlined.toList = spell (fun _ v => v.literal) 1 t.flat := by
      rw [inlined, render_eq_spell, String.toList_ofList]
    rw [← htext, hempty]
    rfl
  cases hflat : t.flat with
  | nil => exact h hflat
  | cons x rest =>
    rw [hflat] at hspell
    cases x with
    | inl c => cases hspell
    | inr v => exact v.toList_literal_ne_nil (List.append_eq_nil_iff.1 hspell).1

/-- Raw text that is not blank has characters or values. -/
theorem flat_ne_nil_of_not_blank {t : Template} (h : isBlankTemplate t = false) : t.flat ≠ [] := by
  induction t with
  | nil => cases h
  | cons p t ih =>
    cases p with
    | param v => exact List.cons_ne_nil _ _
    | text s =>
      cases hblank : Text.isBlankText s.toList with
      | true =>
        have hrest : isBlankTemplate t = false := by
          simpa [isBlankTemplate, hblank] using h
        simp [Template.flat, ih hrest]
      | false =>
        have hne : s.toList ≠ [] := by
          intro hnil
          rw [hnil] at hblank
          cases hblank
        simp [Template.flat, hne]

/-- A predicate has characters or values. -/
theorem Predicate.flat_ne_nil (p : Predicate) : p.template.flat ≠ [] := by
  obtain ⟨x, hx, -⟩ := p.saysMore
  exact List.ne_nil_of_mem hx

/-- What is left of a condition has characters or values, if it has a text. -/
def Simplified.IsWritten : Simplified → Prop
  | .clause c => c.template.flat ≠ []
  | _ => True

/-- A conjunction or disjunction has the text of its first member. -/
theorem Clause.flat_group_ne_nil (separator : String) {c : Clause} (h : c.template.flat ≠ [])
    (cs : List Clause) :
    (Template.separated separator (Clause.memberTemplates (c :: cs))).flat ≠ [] := by
  obtain ⟨x, hx⟩ := List.exists_mem_of_ne_nil _ h
  rw [Clause.memberTemplates]
  exact List.ne_nil_of_mem (Template.subset_separated separator _ _ (Clause.subset_enclose _ _ hx))

namespace Simplified

/-- The clauses of a group have characters or values. -/
def AllWritten (ks? : Option (List Clause)) : Prop :=
  ∀ ks, ks? = some ks → ∀ k ∈ ks, k.template.flat ≠ []

/-- A conjunction of written clauses is written. -/
theorem isWritten_ofAll {ks : List Clause} (h : ∀ k ∈ ks, k.template.flat ≠ []) :
    (ofAll ks).IsWritten := by
  cases ks with
  | nil => trivial
  | cons k ks =>
    have hk := h k List.mem_cons_self
    cases ks with
    | nil => exact hk
    | cons l ks =>
      show (Clause.and (k :: l :: ks)).template.flat ≠ []
      rw [Clause.template]
      exact Clause.flat_group_ne_nil " and " hk (l :: ks)

theorem isWritten_ofAny {ks : List Clause} (h : ∀ k ∈ ks, k.template.flat ≠ []) :
    (ofAny ks).IsWritten := by
  cases ks with
  | nil => trivial
  | cons k ks =>
    have hk := h k List.mem_cons_self
    cases ks with
    | nil => exact hk
    | cons l ks =>
      show (Clause.or (k :: l :: ks)).template.flat ≠ []
      rw [Clause.template]
      exact Clause.flat_group_ne_nil " or " hk (l :: ks)

theorem allWritten_cons {c : Clause} (hc : c.template.flat ≠ []) {ks? : Option (List Clause)}
    (h : AllWritten ks?) : AllWritten (ks?.map (c :: ·)) := by
  intro ks hks k hk
  obtain ⟨ks', hks', rfl⟩ := Option.map_eq_some_iff.1 hks
  rcases List.mem_cons.1 hk with rfl | hk
  · exact hc
  · exact h ks' hks' k hk

end Simplified

namespace Condition

open Simplified

mutual

/-- What is left of a condition is written. -/
theorem isWritten_simplify : ∀ c : Condition Template, c.simplify.IsWritten
  | .always | .never => trivial
  | .predicate p => p.flat_ne_nil
  | .raw t => by
    rw [simplify]
    split
    · trivial
    · next hblank =>
      have hflat : t.flat ≠ [] := flat_ne_nil_of_not_blank (by simpa using hblank)
      rwa [IsWritten, Clause.template]
  | .and cs => by
    rw [simplify]
    split
    · next ks hks => exact isWritten_ofAll (allWritten_conjuncts cs ks hks)
    · trivial
  | .or cs => by
    rw [simplify]
    split
    · next ks hks => exact isWritten_ofAny (allWritten_disjuncts cs ks hks)
    · trivial
  | .not c => by
    rw [simplify]
    cases c.simplify with
    | everything => trivial
    | nothing => trivial
    | clause k =>
      rw [negate, IsWritten, Clause.template]
      simp [Template.flat]

/-- The members left in a conjunction are written. -/
theorem allWritten_conjuncts : ∀ cs : List (Condition Template), AllWritten (conjuncts cs)
  | [] => fun ks hks k hk => by
    cases hks
    cases hk
  | c :: cs => by
    have hc := isWritten_simplify c
    have hrest := allWritten_conjuncts cs
    rw [conjuncts]
    cases hsimplify : c.simplify with
    | everything => exact hrest
    | nothing => exact fun ks hks => nomatch hks
    | clause k =>
      rw [hsimplify] at hc
      exact allWritten_cons hc hrest

theorem allWritten_disjuncts : ∀ cs : List (Condition Template), AllWritten (disjuncts cs)
  | [] => fun ks hks k hk => by
    cases hks
    cases hk
  | c :: cs => by
    have hc := isWritten_simplify c
    have hrest := allWritten_disjuncts cs
    rw [disjuncts]
    cases hsimplify : c.simplify with
    | everything => exact fun ks hks => nomatch hks
    | nothing => exact hrest
    | clause k =>
      rw [hsimplify] at hc
      exact allWritten_cons hc hrest

end

end Condition

/-! ## Both texts of a condition -/

namespace Filter

/-- The text of the `where` clause for what a filter compiles to: the condition has a token in the
place of each value. -/
def whereText (style : TokenStyle) : Option Template → String
  | none => ""
  | some t => " where " ++ weave t.texts ((List.range' 1 t.values.length).map style.token)

/-- The text of what a filter compiles to with a literal in the place of each value. -/
def inlinedText : Option Template → String
  | none => ""
  | some t => weave t.texts (t.values.map Value.literal)

/-- The values in what a filter compiles to. -/
def valuesOf : Option Template → List Value
  | none => []
  | some t => t.values

/-- The clause for what a filter compiles to. -/
theorem clauseOf_eq (compiled : Option Template) (style : TokenStyle) :
    (clauseOf compiled).sql style = whereText style compiled ∧
      (clauseOf compiled).values = valuesOf compiled := by
  cases compiled with
  | none => exact ⟨rfl, rfl⟩
  | some t =>
    refine ⟨?_, rfl⟩
    rw [whereText, ← Template.sql_eq_weave]
    rfl

theorem inlined_eq (compiled : Option Template) :
    Template.inlined (compiled.getD []) = inlinedText compiled := by
  cases compiled with
  | none => rfl
  | some t => exact t.inlined_eq_weave

/-- Only a filter that holds for every row has an empty text. -/
theorem inlinedText_eq_empty_iff {f : Filter} {e : Entity} {names : EntityNames}
    {compiled : Option Template} (h : f.compile e names = .ok compiled) :
    inlinedText compiled = "" ↔ compiled = none := by
  constructor
  · intro hempty
    cases compiled with
    | none => rfl
    | some t =>
      simp only [compile, bind_eq_ok] at h
      obtain ⟨c, _, d, _, heq⟩ := h
      have hflat : t.flat ≠ [] := by
        have hwritten := Condition.isWritten_simplify d
        cases hsimplify : d.simplify with
        | everything =>
          rw [hsimplify] at heq
          cases heq
        | nothing =>
          rw [hsimplify] at heq
          cases heq
          decide
        | clause k =>
          rw [hsimplify] at heq hwritten
          cases heq
          exact hwritten
      rw [← inlined_eq] at hempty
      exact absurd hempty (Template.inlined_ne_empty hflat)
  · rintro rfl
    rfl

end Filter

/-! ## Statements with a condition -/

namespace Store

variable {e : Entity} {names : EntityNames} {f : Filter}

theorem exists_countStatement {compiled : Option Template}
    (h : f.compile e names = .ok compiled) (style : TokenStyle) :
    ∃ t, countStatement e names f = .ok t ∧ t.statement style =
      ⟨"select count(*) as count from " ++ names.table ++ Filter.whereText style compiled,
        Filter.valuesOf compiled⟩ := by
  obtain ⟨hsql, hvalues⟩ := Filter.clauseOf_eq compiled style
  refine ⟨_, by rw [countStatement, Filter.whereClause, h]; rfl, ?_⟩
  rw [← hsql, ← hvalues]
  rfl

/-- A search without a filter has the text `head` before the place of a condition and `rest` after
it. -/
def IsFramed (st : Store) (names : EntityNames) (order : Option RowOrder) (limit page : Option Nat)
    (head rest : String) : Prop :=
  findStatement st.entity names st.database.dialect ⟨none, order, limit, page⟩ =
    .ok [.text head, .text rest]

/-- What a search without a filter needs: columns, an order and a page. -/
theorem isFramed_of_ok {st : Store} {order : Option RowOrder} {limit page : Option Nat}
    {columns orderText pageText : String} (hcolumns : selectList st.entity names = .ok columns)
    (horder : (FindOptions.rowOrder ⟨none, order, limit, page⟩ st.entity).orderBy names
      st.database.dialect.capabilities.nullsFirst = .ok orderText)
    (hpage : FindOptions.pageText ⟨none, order, limit, page⟩ st.database.dialect = .ok pageText) :
    st.IsFramed names order limit page ("select " ++ columns ++ " from " ++ names.table)
      (" order by " ++ orderText ++ pageText) := by
  rw [IsFramed, findStatement, hcolumns, optionalClause, horder, hpage]
  rfl

/-- The same search with a filter has the clause of the filter in the place of a condition. What is
wrong with the filter is all that can be wrong. -/
theorem findStatement_of_framed {st : Store} {order : Option RowOrder} {limit page : Option Nat}
    {head rest : String} (h : st.IsFramed names order limit page head rest) (f : Filter) :
    findStatement st.entity names st.database.dialect ⟨some f, order, limit, page⟩ =
      (f.compile st.entity names).map fun compiled =>
        .text head :: Filter.clauseOf compiled ++ [.text rest] := by
  obtain ⟨columns, hcolumns, clause, hclause, text, horder, pageText, hpage, heq⟩ :=
    findStatement_eq_ok.1 h
  cases hclause
  cases heq
  have horder' : (FindOptions.rowOrder ⟨some f, order, limit, page⟩ st.entity).orderBy names
      st.database.dialect.capabilities.nullsFirst = .ok text := horder
  have hpage' : FindOptions.pageText ⟨some f, order, limit, page⟩ st.database.dialect =
      .ok pageText := hpage
  rw [findStatement, hcolumns, optionalClause, Filter.whereClause]
  cases f.compile st.entity names with
  | error failure => rfl
  | ok compiled =>
    rw [horder', hpage']
    rfl

/-- The text and the values of a search with a filter. -/
theorem statement_framed (head rest : String) (compiled : Option Template) (style : TokenStyle) :
    Template.statement style (.text head :: Filter.clauseOf compiled ++ [.text rest]) =
      ⟨head ++ Filter.whereText style compiled ++ rest, Filter.valuesOf compiled⟩ := by
  obtain ⟨hsql, hvalues⟩ := Filter.clauseOf_eq compiled style
  rw [← hsql, ← hvalues]
  simp [Template.statement, Template.sql, Template.render, Template.render_append,
    Template.values, String.append_assoc]

end Store

namespace FindOptions

variable {o : FindOptions}

theorem exists_orderBy {e : Entity} {names : EntityNames} {nullsSmallest : Bool}
    (horder : ∀ segment ∈ o.order.getD [], ∃ column, names.columnOf segment.field = .ok column)
    (hidentity : ∀ key ∈ e.identity, ∃ column, names.columnOf key = .ok column) :
    ∃ text, (o.rowOrder e).orderBy names nullsSmallest = .ok text := by
  obtain ⟨first, rest, hfirst, hall, -, -⟩ :
      ∃ first rest, RowOrder.terms names nullsSmallest (o.order.getD []) = .ok first ∧ _ :=
    RowOrder.exists_terms_unique horder hidentity
  have heq : o.rowOrder e = o.order.getD [] ∨
      o.rowOrder e = RowOrder.unique e (o.order.getD []) := by
    rw [rowOrder]
    split
    · next order horder _ =>
      rw [horder, Option.getD_some]
      split
      · exact .inr rfl
      · exact .inl rfl
    · exact .inr rfl
  rw [RowOrder.orderBy_eq]
  rcases heq with heq | heq
  · exact ⟨_, by rw [heq, hfirst]; rfl⟩
  · exact ⟨_, by rw [heq, hall]; rfl⟩

/-- A page whose first row has a number of 64 bits can be written. -/
theorem exists_pageText
    (h : ∀ limit ∈ o.limit, FitsUnsigned ((max (o.page.getD 1) 1 - 1) * limit)) (d : Dialect) :
    ∃ text, o.pageText d = .ok text := by
  cases hsize : o.pageSize? with
  | none => exact ⟨"", by rw [pageText, hsize]⟩
  | some limit =>
    have hfits := h limit (Option.filter_eq_some_iff.1 hsize).1
    rw [pageText_of_limit hsize, if_pos hfits]
    exact ⟨_, rfl⟩

end FindOptions

/-! ## A database handle -/

/-- The three ways to use a filter at a database handle, with the given names of the entity. The
search is one with the text `head` before its condition and `rest` after it. -/
structure Database.UsesOneCondition (db : Database) (e : Entity) (names : EntityNames)
    (order : Option RowOrder) (limit page : Option Nat) (head rest : String) (f : Filter) :
    Prop where
  /-- Without names all fail in the same way. -/
  unnamed : ∀ s t failure, db.names (db.store e).entity s = (.error failure, t) →
    db.filterText e f s = (.error failure, t) ∧ (db.store e).count f s = (.error failure, t) ∧
      (db.store e).find ⟨some f, order, limit, page⟩ s = (.error failure, t)
  /-- If the filter does not compile, all fail in the same way, and nothing is sent. -/
  refused : ∀ failure, f.compile (db.store e).entity names = .error failure →
    ∀ s t, db.names (db.store e).entity s = (.ok names, t) → t.statements = s.statements ∧
      db.filterText e f s = (.error failure, t) ∧ (db.store e).count f s = (.error failure, t) ∧
        (db.store e).find ⟨some f, order, limit, page⟩ s = (.error failure, t)
  /-- If it compiles, the text that is asked for and both statements have what it compiles to: with
  literals in the text, and with tokens and the same parameters in the statements. The text is empty
  exactly if there is no condition. -/
  compiled : ∀ compiled, f.compile (db.store e).entity names = .ok compiled →
    (Filter.inlinedText compiled = "" ↔ compiled = none) ∧
    ∀ s t, db.names (db.store e).entity s = (.ok names, t) →
      db.filterText e f s = (.ok (Filter.inlinedText compiled), t) ∧
      FailsLater ((db.store e).count f s).1 ∧
      ((db.store e).count f s).2.statements = s.statements ++ (if s.isOpen db.scope then
        [⟨"select count(*) as count from " ++ names.table ++
          Filter.whereText db.dialect.style compiled, Filter.valuesOf compiled⟩] else []) ∧
      FailsLater ((db.store e).find ⟨some f, order, limit, page⟩ s).1 ∧
      ((db.store e).find ⟨some f, order, limit, page⟩ s).2.statements =
        s.statements ++ (if s.isOpen db.scope then
          [⟨head ++ Filter.whereText db.dialect.style compiled ++ rest, Filter.valuesOf compiled⟩]
            else [])

namespace Database

variable {db : Database} {e : Entity} {f : Filter}

/-- The text that is asked for is found in two steps. -/
theorem filterText_eq_bind : db.filterText e f = (do
    let names ← db.names (db.store e).entity
    let compiled ← f.compile (db.store e).entity names
    return Template.inlined (compiled.getD []) : Action String) := rfl

/-- The text that is asked for, once the names are found. -/
theorem filterText_of_names {s t : Session} {names : EntityNames}
    (h : db.names (db.store e).entity s = (.ok names, t)) :
    db.filterText e f s = ((f.compile (db.store e).entity names).map Filter.inlinedText, t) := by
  rw [filterText_eq_bind, Action.bind_of_ok h]
  cases hcompiled : f.compile (db.store e).entity names with
  | error failure => exact Action.bind_of_error rfl
  | ok compiled =>
    rw [Except.map, ← Filter.inlined_eq]
    exact Action.bind_of_ok rfl

/-- At a database handle every filter is used in one way. -/
theorem usesOneCondition {names : EntityNames} {order : Option RowOrder} {limit page : Option Nat}
    {head rest : String} (hframed : (db.store e).IsFramed names order limit page head rest)
    (f : Filter) : db.UsesOneCondition e names order limit page head rest f := by
  have hfind := Store.findStatement_of_framed hframed f
  refine ⟨fun s t failure hnames => ?_, ?_, ?_⟩
  · exact ⟨Action.bind_of_error hnames, Store.query_of_names_error hnames,
      Store.query_of_names_error hnames⟩
  · intro failure hfailed s t hnames
    have hcount : Store.countStatement (db.store e).entity names f = .error failure := by
      rw [Store.countStatement, Filter.whereClause, hfailed]
      rfl
    have hsearch : Store.findStatement (db.store e).entity names db.dialect
        ⟨some f, order, limit, page⟩ = .error failure := by
      rw [hfailed] at hfind
      exact hfind
    refine ⟨(quiet_names hnames).1, ?_, Store.query_of_error hnames hcount,
      Store.query_of_error hnames hsearch⟩
    rw [filterText_of_names hnames, hfailed]
    rfl
  · intro compiled hcompiled
    refine ⟨Filter.inlinedText_eq_empty_iff hcompiled, fun s t hnames => ?_⟩
    obtain ⟨count, hcount, hcountText⟩ :=
      Store.exists_countStatement hcompiled db.dialect.style
    have hsearch : Store.findStatement (db.store e).entity names db.dialect
        ⟨some f, order, limit, page⟩ =
          .ok (.text head :: Filter.clauseOf compiled ++ [.text rest]) := by
      rw [hcompiled] at hfind
      exact hfind
    refine ⟨?_, ?_, ?_, ?_, ?_⟩
    · rw [filterText_of_names hnames, hcompiled]
      rfl
    · exact Store.query_failsLater hnames hcount (Store.countOf_failsLater _)
    · rw [← hcountText]
      exact Store.statements_query hnames hcount
    · exact Store.query_failsLater hnames hsearch fun _ => Store.decodeRows_failsLater _ _
    · rw [← Store.statement_framed]
      exact Store.statements_query hnames hsearch

/-- With its own names an entity can be searched in any order of its fields, and for any page whose
first row has a number of 64 bits. -/
theorem exists_framed (he : (db.store e).entity.IsSound) {order : Option RowOrder}
    (horder : ∀ segment ∈ order.getD [], ∃ f ∈ e.selected, f.key = segment.field)
    {limit page : Option Nat}
    (hpage : ∀ size ∈ limit, FitsUnsigned ((max (page.getD 1) 1 - 1) * size)) :
    ∃ head rest, (db.store e).IsFramed (.resolve (db.store e).entity db.dialect.quoting)
      order limit page head rest := by
  have hcolumns := Store.selectList_resolve he db.dialect.quoting
  obtain ⟨orderText, horderText⟩ : ∃ text,
      ((FindOptions.mk none order limit page).rowOrder (db.store e).entity).orderBy
        (.resolve (db.store e).entity db.dialect.quoting) db.dialect.capabilities.nullsFirst =
          .ok text :=
    FindOptions.exists_orderBy (exists_columnOf_segment he horder) (exists_columnOf_identity he)
  obtain ⟨pageText, hpageText⟩ := FindOptions.exists_pageText (o := ⟨none, order, limit, page⟩)
    hpage db.dialect
  exact ⟨_, _, Store.isFramed_of_ok hcolumns horderText hpageText⟩

end Database

end EntitySql
