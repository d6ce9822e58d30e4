import EntitySql.Proofs.ReturningWord
import EntitySql.Proofs.Signals
import EntitySql.Proofs.StatementColumns

/-!
# What is told of a statement by its words

Whether a statement gives rows is told from its first word and from the word
`returning`, wherever it stands. A statement that reads begins with a word of
its own. One that writes has the word `returning` where it asks for the rows
that it writes, and also where the name of its table or of a column has it
between blanks: a name is not told from the words around it.

- `Template.plain`: the text of a statement with the same token for each value.
- `Store.Form.givesRows`: statements that give rows.
- `Store.Form.asksForRows_template`: which statements that write have the word.
- `Store.Purpose.returnsRows_iff`: which statements are told to give rows.
-/

namespace EntitySql

open Text (asksForRows IsEnclosed IsSolid)

/-! ## Names between quotes -/

/-- A part between quotes is enclosed by them. -/
theorem isEnclosed_delimit {q : Char} (hq : IsSolid q) (part : List Char) :
    IsEnclosed (delimit q part) :=
  ⟨⟨q, _, hq, rfl⟩, ⟨q :: doubled q part, q, hq, rfl⟩⟩

/-- Parts with a separator between, as a list. -/
theorem Text.join_eq_intercalate (sep : Char) : ∀ ps : List (List Char),
    Text.join sep ps = [sep].intercalate ps
  | [] => rfl
  | [p] => by rw [Text.join, List.intercalate_singleton]
  | p :: q :: ps => by
    rw [Text.join, List.intercalate_cons_cons, join_eq_intercalate sep (q :: ps), List.append_assoc]
    rfl

/-- A name in quotes is enclosed by them. -/
theorem Quoting.isEnclosed_wrap {q : Char} (hq : IsSolid q) (name : String) :
    IsEnclosed ((Quoting.delimited q).wrap name).toList := by
  rw [wrap, String.toList_ofList, wrapChars, Text.join_eq_intercalate]
  refine IsEnclosed.intercalate _ (by simpa using Text.split_ne_nil '.' name.toList) ?_
  exact List.forall_mem_map.2 fun part _ => isEnclosed_delimit hq part

/-- What stands for a field is enclosed: a name by its quotes, an expression by its parentheses. -/
theorem EntityNames.isEnclosed_of_knows {e : Entity} {q : Char} (hq : IsSolid q) {text : String}
    (h : (EntityNames.resolve e (.delimited q)).Knows text) : IsEnclosed text.toList := by
  obtain ⟨key, hkey⟩ := h
  rcases EntityNames.columnOf_resolveBy_cases e key with ⟨f, -, -, hfound⟩ | ⟨-, hmissing⟩
  · obtain rfl := Except.ok.inj ((hfound _).symm.trans hkey)
    rw [EntityNames.fieldTextBy]
    split
    · next expression _ =>
      rw [String.toList_append, String.toList_append]
      exact ⟨⟨'(', _, by decide, rfl⟩, ⟨'(' :: expression.toList, ')', by decide, rfl⟩⟩
    · exact Quoting.isEnclosed_wrap hq _
  · rw [EntityNames.resolve, hmissing] at hkey
    cases hkey

/-- Names stand between quotes of a kind in the dialects of common databases. -/
theorem Dialect.exists_quote {name : String} {d : Dialect} (h : Dialect.named? name = some d) :
    ∃ q, IsSolid q ∧ d.quoting = .delimited q := by
  simp only [Dialect.named?] at h
  split at h
  · cases h
    exact ⟨'"', by decide, rfl⟩
  · split at h
    · cases h
      exact ⟨'"', by decide, rfl⟩
    · split at h
      · cases h
        exact ⟨Dialect.backtick, by decide, rfl⟩
      · cases h

/-! ## Statements as texts -/

namespace Template

/-- The text of a statement where every token is a question mark. -/
def plain : Template → List Char
  | [] => []
  | .text s :: rest => s.toList ++ plain rest
  | .param _ :: rest => '?' :: plain rest

theorem toList_sql_question (t : Template) : (t.sql .question).toList = t.plain := by
  have hrender : ∀ position,
      (t.render (fun k _ => TokenStyle.token .question k) position).toList = t.plain := by
    induction t with
    | nil => exact fun _ => rfl
    | cons p t ih =>
      intro position
      cases p with
      | text s => rw [render, String.toList_append, ih, plain]
      | param v =>
        rw [render, String.toList_append, ih, plain]
        show "?".toList ++ plain t = '?' :: plain t
        rfl
  exact hrender 1

theorem plain_append (t u : Template) : (t ++ u).plain = t.plain ++ u.plain := by
  induction t with
  | nil => rfl
  | cons p t ih =>
    cases p with
    | text s => rw [List.cons_append, plain, ih, plain, List.append_assoc]
    | param v => rw [List.cons_append, plain, ih, plain, List.cons_append]

theorem plain_separated (separator : String) : ∀ ts : List Template,
    (separated separator ts).plain = separator.toList.intercalate (ts.map plain)
  | [] => rfl
  | [t] => by rw [separated, List.map_singleton, List.intercalate_singleton]
  | t :: u :: ts => by
    have ih := plain_separated separator (u :: ts)
    rw [List.map_cons] at ih
    rw [separated, plain_append, plain, ih, List.map_cons, List.map_cons,
      List.intercalate_cons_cons, List.append_assoc]

/-- A piece of templates one after the other is one of theirs, or the text between. -/
theorem mem_separated {separator : String} {p : Piece} : ∀ {ts : List Template},
    p ∈ separated separator ts → p = .text separator ∨ ∃ t ∈ ts, p ∈ t
  | [t], h => .inr ⟨t, List.mem_cons_self, h⟩
  | t :: u :: ts, h => by
    rw [separated, List.mem_append, List.mem_cons] at h
    rcases h with h | h | h
    · exact .inr ⟨t, List.mem_cons_self, h⟩
    · exact .inl h
    · obtain h | ⟨t', ht', h⟩ := mem_separated h
      · exact .inl h
      · exact .inr ⟨t', List.mem_cons_of_mem t ht', h⟩

/-- A statement does not have the word if none of its texts has one of its letters. -/
theorem asksForRows_plain_of_forall {t : Template}
    (h : ∀ s, .text s ∈ t → ∀ c ∈ s.toList, c.toUpper ≠ 'G') : asksForRows t.plain = false := by
  refine Text.asksForRows_of_forall ?_
  induction t with
  | nil => exact fun c hc => nomatch hc
  | cons p t ih =>
    have hrest := ih fun s hs => h s (List.mem_cons_of_mem p hs)
    cases p with
    | text s => exact List.forall_mem_append.2 ⟨h s List.mem_cons_self, hrest⟩
    | param v => exact List.forall_mem_cons.2 ⟨by decide, hrest⟩

/-- Columns that are set or compared have the word if one of the columns has it. -/
theorem asksForRows_equations {separator : String} (hseparator : separator ∈ [", ", " and "])
    (pairs : List (String × Value)) :
    asksForRows (equationsTemplate separator pairs).plain =
      (pairs.map Prod.fst).any fun column => asksForRows column.toList := by
  have hequation : ∀ p : String × Value,
      plain [.text (p.1 ++ " = "), .param p.2] = p.1.toList ++ ' ' :: "= ?".toList := by
    intro p
    rw [plain, plain, plain, String.toList_append, List.append_assoc]
    rfl
  rw [equationsTemplate, plain_separated, List.map_map, Text.asksForRows_intercalate]
  · rw [List.any_map, List.any_map]
    refine congrArg (pairs.any ·) (funext fun p => ?_)
    rw [Function.comp_apply, Function.comp_apply, Function.comp_apply, hequation,
      Text.asksForRows_append_blank rfl]
    exact Bool.or_false _
  · -- an equation ends in a token
    refine List.forall_mem_map.2 fun p _ ys => ?_
    simp only [List.mem_cons, List.not_mem_nil, or_false] at hseparator
    obtain rfl | rfl := hseparator
    · refine Text.EndsSolid.asksForRows_comma ⟨p.1.toList ++ " = ".toList, '?', by decide, ?_⟩ ys
      rw [Function.comp_apply, hequation, List.append_assoc]
      rfl
    · exact Text.asksForRows_between (m := "and".toList) (by decide) _ ys

end Template

namespace Store

variable {e : Entity} {names : EntityNames} {d : Dialect}

/-! ## Forms -/

/-- Statements of this form give rows: queries, and changes that ask for the rows they write. -/
def Form.givesRows : Form → Bool
  | .count _ | .search _ _ _ _ | .read _ _ => true
  | .insert _ _ returned | .insertDefaults returned | .update _ _ _ returned => returned.isSome
  | .delete _ => false

/-- The clause for rows that are written has the word, and nothing else has it for the clause. -/
theorem asksForRows_returnedClause (xs : List Char) (returned : Option (List String)) :
    asksForRows (xs ++ (returnedClause returned).plain) = (returned.isSome || asksForRows xs) := by
  cases returned with
  | none => rw [returnedClause, Template.plain, List.append_nil, Option.isSome_none, Bool.false_or]
  | some columns =>
    have hclause : (returnedClause (some columns)).plain =
        ' ' :: ("returning".toList ++ ' ' :: (String.intercalate ", " columns).toList) := by
      rw [returnedClause, Template.plain, Template.plain, String.toList_append, List.append_nil]
      rfl
    have hword : asksForRows "returning".toList = true := by decide
    rw [hclause, Text.asksForRows_append_blank rfl, Text.asksForRows_append_blank rfl, hword]
    simp

theorem asksForRows_tuples (tuples : List (List Value)) :
    asksForRows (Template.separated ", " (tuples.map tuple)).plain = false := by
  have hcomma : ∀ c ∈ ", ".toList, c.toUpper ≠ 'G' :=
    List.forall_mem_cons.2 ⟨by decide, List.forall_mem_singleton.2 (by decide)⟩
  have hopening : ∀ c ∈ "(".toList, c.toUpper ≠ 'G' := List.forall_mem_singleton.2 (by decide)
  have hclosing : ∀ c ∈ ")".toList, c.toUpper ≠ 'G' := List.forall_mem_singleton.2 (by decide)
  refine Template.asksForRows_plain_of_forall fun s hs => ?_
  obtain heq | ⟨t, ht, hs⟩ := Template.mem_separated hs
  · cases heq
    exact hcomma
  · obtain ⟨vs, -, rfl⟩ := List.mem_map.1 ht
    rw [tuple, List.mem_append, List.mem_cons, List.mem_singleton] at hs
    obtain (heq | hs) | heq := hs
    · cases heq
      exact hopening
    · obtain heq | ⟨t, ht, hs⟩ := Template.mem_separated hs
      · cases heq
        exact hcomma
      · obtain ⟨v, -, rfl⟩ := List.mem_map.1 ht
        cases List.mem_singleton.1 hs
    · cases heq
      exact hclosing

theorem asksForRows_columns {columns : List String}
    (hcolumns : ∀ column ∈ columns, IsEnclosed column.toList) :
    asksForRows (['('] ++ (String.intercalate ", " columns).toList ++ [')']) =
      columns.any fun column => asksForRows column.toList := by
  rw [String.toList_intercalate]
  by_cases hne : columns = []
  · subst hne
    decide
  · have hall : ∀ xs ∈ columns.map String.toList, IsEnclosed xs := List.forall_mem_map.2 hcolumns
    have hlist : IsEnclosed (", ".toList.intercalate (columns.map String.toList)) :=
      IsEnclosed.intercalate _ (by simpa using hne) hall
    rw [hlist.asksForRows_append (List.forall_mem_singleton.2 rfl)
        (List.forall_mem_singleton.2 rfl),
      Text.asksForRows_intercalate fun xs hxs => (hall xs hxs).ends.asksForRows_comma,
      List.any_map]
    rfl

namespace Form

variable {t : Template}

/-- An insert has the word where it asks for the rows, and where one of its names has it. -/
theorem asksForRows_insert {columns : List String} {tuples : List (List Value)}
    {returned : Option (List String)} (hcolumns : ∀ column ∈ columns, IsEnclosed column.toList)
    (h : template names (.insert columns tuples returned) = .ok t) :
    asksForRows t.plain =
      (returned.isSome || (names.table :: columns).any fun text => asksForRows text.toList) := by
  cases h
  have hplain : Template.plain (.text (insertHead names columns) ::
      Template.separated ", " (tuples.map tuple)) = "insert into".toList ++ ' ' ::
        (names.table.toList ++ ' ' ::
          ((['('] ++ (String.intercalate ", " columns).toList ++ [')']) ++ ' ' ::
            ("values".toList ++ ' ' :: (Template.separated ", " (tuples.map tuple)).plain))) := by
    delta insertHead
    simp only [Template.plain, String.toList_append, List.append_assoc]
    rfl
  have hnames := asksForRows_columns hcolumns
  -- what stands between parentheses is one part
  generalize ['('] ++ (String.intercalate ", " columns).toList ++ [')'] = list at hplain hnames
  have hinto : asksForRows "insert into".toList = false := by decide
  have hvalues : asksForRows "values".toList = false := by decide
  rw [Template.plain_append, asksForRows_returnedClause, hplain,
    Text.asksForRows_append_blank rfl, Text.asksForRows_append_blank rfl,
    Text.asksForRows_append_blank rfl, Text.asksForRows_append_blank rfl,
    hnames, asksForRows_tuples, hinto, hvalues, List.any_cons,
    Bool.false_or, Bool.false_or, Bool.or_false]

theorem asksForRows_insertDefaults {returned : Option (List String)}
    (h : template names (.insertDefaults returned) = .ok t) :
    asksForRows t.plain = (returned.isSome || asksForRows names.table.toList) := by
  cases h
  have hhead : Template.plain [.text ("insert into " ++ names.table ++ " default values")] =
      "insert into".toList ++ ' ' :: (names.table.toList ++ ' ' :: "default values".toList) := by
    rw [Template.plain, Template.plain, String.toList_append, String.toList_append,
      List.append_nil, List.append_assoc]
    rfl
  have hinto : asksForRows "insert into".toList = false := by decide
  have hdefault : asksForRows "default values".toList = false := by decide
  rw [Template.plain_append, asksForRows_returnedClause, hhead,
    Text.asksForRows_append_blank rfl, Text.asksForRows_append_blank rfl, hinto, hdefault,
    Bool.false_or, Bool.or_false]

/-- An update has the word where it asks for the rows, and where one of its names has it. -/
theorem asksForRows_update {columns : List String} {vs : List Value}
    {condition : Condition (List RawPart)} {returned : Option (List String)}
    {pins : List (String × Value)} (hlength : columns.length = vs.length)
    (hcondition : conditionClause names condition = .ok (.text " where " :: pinTemplate pins))
    (h : template names (.update columns vs condition returned) = .ok t) :
    asksForRows t.plain = (returned.isSome ||
      (names.table :: columns ++ pins.map Prod.fst).any fun text => asksForRows text.toList) := by
  rw [template, hcondition] at h
  cases h
  have hset : assignments columns vs = equationsTemplate ", " (columns.zip vs) := rfl
  have hfst : (columns.zip vs).map Prod.fst = columns := List.map_fst_zip (Nat.le_of_eq hlength)
  have hplain : Template.plain (.text ("update " ++ names.table ++ " set ") ::
      equationsTemplate ", " (columns.zip vs) ++
        .text " where " :: equationsTemplate " and " pins) =
      "update".toList ++ ' ' :: (names.table.toList ++ (' ' :: "set".toList ++ [' ']) ++
        ((equationsTemplate ", " (columns.zip vs)).plain ++ (' ' :: "where".toList ++ [' ']) ++
          (equationsTemplate " and " pins).plain)) := by
    simp only [Template.plain, Template.plain_append, String.toList_append, List.append_assoc]
    rfl
  have hupdate : asksForRows "update".toList = false := by decide
  rw [Template.plain_append, asksForRows_returnedClause, hset, pinTemplate_eq, hplain,
    Text.asksForRows_append_blank rfl, Text.asksForRows_between (by decide),
    Text.asksForRows_between (by decide), Template.asksForRows_equations (by decide),
    Template.asksForRows_equations (by decide), hupdate, hfst, List.cons_append, List.any_cons,
    List.any_append, Bool.false_or]

theorem asksForRows_delete {condition : Condition (List RawPart)} {pins : List (String × Value)}
    (hcondition : conditionClause names condition = .ok (.text " where " :: pinTemplate pins))
    (h : template names (.delete condition) = .ok t) :
    asksForRows t.plain =
      (names.table :: pins.map Prod.fst).any fun text => asksForRows text.toList := by
  rw [template, hcondition] at h
  cases h
  have hplain : Template.plain (.text ("delete from " ++ names.table) ::
      .text " where " :: equationsTemplate " and " pins) =
      "delete from".toList ++ ' ' :: (names.table.toList ++ (' ' :: "where".toList ++ [' ']) ++
        (equationsTemplate " and " pins).plain) := by
    simp only [Template.plain, String.toList_append, List.append_assoc]
    rfl
  have hdelete : asksForRows "delete from".toList = false := by decide
  rw [pinTemplate_eq, hplain, Text.asksForRows_append_blank rfl,
    Text.asksForRows_between (by decide), Template.asksForRows_equations (by decide), hdelete,
    List.any_cons, Bool.false_or]

end Form

/-! ## The condition for a row -/

theorem allColumns_pinTests (pins : List (String × Value)) :
    Condition.allColumns names (pins.map fun p => .predicate (pinTest p)) = pins.map Prod.fst := by
  induction pins with
  | nil => rfl
  | cons p pins ih =>
    rw [List.map_cons, Condition.allColumns, ih, Condition.columns]
    rfl

/-- The condition for a row is made of the tests for the entries of its identity. -/
theorem exists_pins_of_identityFilter {r : Record} (hnull : ∀ a ∈ r.entries, a.2.isNull = false)
    {c : Condition (List RawPart)} (hc : Condition.ofFilter e names (identityFilter r) = .ok c) :
    ∃ pins, e.pins names r.entries = .ok pins ∧ c.columns names = pins.map Prod.fst := by
  rw [identityFilter] at hc
  split at hc
  · next f hone =>
    obtain ⟨a, hentries, rfl⟩ : ∃ a, r.entries = [a] ∧ Filter.compare a.1 .eq a.2 = f := by
      simpa [List.map_eq_singleton_iff] using hone
    rw [hentries] at hnull ⊢
    rw [ofFilter_pin (hnull a List.mem_cons_self)] at hc
    obtain ⟨found, hfound, hc⟩ := bind_eq_ok.1 hc
    obtain ⟨w, hw, heq⟩ := bind_eq_ok.1 hc
    cases heq
    refine ⟨[(found.2, w)], ?_, rfl⟩
    simp only [Entity.pins, hfound, hw, ok_bind]
  · rw [Condition.ofFilter, ofFilters_pins hnull] at hc
    obtain ⟨cs, hcs, heq⟩ := bind_eq_ok.1 hc
    obtain ⟨pins, hpins, hmembers⟩ := bind_eq_ok.1 hcs
    cases hmembers
    cases heq
    exact ⟨pins, hpins, allColumns_pinTests pins⟩

/-- The clause for the row of an identity compares the columns of its condition. -/
theorem exists_pins_of_identity (he : e.IsSound) {operation : String} {id : RowId} {r : Record}
    (hr : identityValues e operation id = .ok r) {c : Condition (List RawPart)}
    (hc : Condition.ofFilter e names (identityFilter r) = .ok c) :
    ∃ pins, conditionClause names c = .ok (.text " where " :: pinTemplate pins) ∧
      c.columns names = pins.map Prod.fst := by
  have hidentity := identityValues_complete hr
  obtain ⟨pins, hpins, hcolumns⟩ :=
    exists_pins_of_identityFilter (fun _ ha => hidentity.isNull_of_mem ha) hc
  have hclause : (identityFilter r).whereClause e names =
      .ok (.text " where " :: pinTemplate pins) := by
    rw [whereClause_identityFilter he hidentity, hpins, ok_bind]
  obtain ⟨c', hc', hcondition⟩ := whereClause_eq_ok hclause
  rw [hc] at hc'
  cases hc'
  exact ⟨pins, hcondition, hcolumns⟩

/-! ## What statements are told to give -/

/-- The first word of a statement for a purpose. -/
def Purpose.keyword : Purpose → String
  | .count _ | .find _ | .select _ => "select"
  | .insert _ | .bulk _ => "insert"
  | .update _ _ => "update"
  | .delete _ => "delete"

/-- A statement starts with the word for its purpose. -/
theorem Purpose.startsWith_keyword {p : Purpose} {t : Template}
    (h : p.statement e names d = .ok t) : t.StartsWith p.keyword := by
  cases p with
  | count f => exact startsWith_countStatement h
  | find o => exact startsWith_findStatement h
  | select f => exact startsWith_selectStatement h
  | insert data => exact startsWith_insertStatement h
  | update id data =>
    obtain ⟨identity, -, h⟩ := bind_eq_ok.1 h
    obtain ⟨written, -, h⟩ := bind_eq_ok.1 h
    exact startsWith_updateStatement h
  | delete id =>
    obtain ⟨identity, -, h⟩ := bind_eq_ok.1 h
    exact startsWith_deleteStatement h
  | bulk records =>
    obtain ⟨rows, -, h⟩ := bind_eq_ok.1 h
    exact startsWith_bulkStatement h

/-- Only the first word of queries is one of statements that give rows. -/
theorem Purpose.rowKeywords_contains {p : Purpose} {t : Template}
    (h : p.statement e names d = .ok t) (style : TokenStyle) :
    rowKeywords.contains (leadingKeyword (t.sql style)) = (p.keyword == "select") := by
  have hstart := startsWith_keyword h
  have hkeyword : p.keyword ∈ ["select", "insert", "update", "delete"] := by
    cases p <;> simp [keyword]
  generalize p.keyword = word at hstart hkeyword ⊢
  have hfirst := fun hne hword => hstart.leadingKeyword_eq hne hword style
  rw [Template.statement] at hfirst
  simp only [List.mem_cons, List.not_mem_nil, or_false] at hkeyword
  rcases hkeyword with rfl | rfl | rfl | rfl <;> rw [hfirst (by decide) (by decide)] <;> decide

/-- A statement that is no query has the word where it asks for the rows that it writes, and where
the name of its table or of a column that it writes has it. -/
theorem Purpose.asksForRows_plain (he : e.IsSound)
    (hknown : ∀ text, names.Knows text → IsEnclosed text.toList) {p : Purpose} {t : Template}
    {form : Form} (hform : p.form e names d = .ok form) (htemplate : form.template names = .ok t)
    (hkeyword : p.keyword ≠ "select") :
    asksForRows t.plain = (form.givesRows ||
      (names.table :: form.writes names).any fun text => asksForRows text.toList) := by
  cases Purpose.hasForm_of_form hform with
  | count => exact absurd rfl hkeyword
  | find => exact absurd rfl hkeyword
  | select => exact absurd rfl hkeyword
  | insertDefaults =>
    rw [Form.asksForRows_insertDefaults htemplate, Form.givesRows, Form.writes, List.any_cons,
      List.any_nil, Bool.or_false]
  | insert _ hcolumns =>
    exact Form.asksForRows_insert
      (fun column hmem => hknown column (knows_columnTexts hcolumns column hmem)) htemplate
  | update hidentity _ hcolumns hc =>
    obtain ⟨pins, hcondition, hpins⟩ := exists_pins_of_identity he hidentity hc
    have hlength := length_columnTexts hcolumns
    rw [List.length_map, ← List.length_map Prod.snd] at hlength
    rw [Form.asksForRows_update hlength hcondition htemplate, Form.givesRows, Form.writes, hpins,
      List.cons_append]
  | delete hidentity hc =>
    obtain ⟨pins, hcondition, hpins⟩ := exists_pins_of_identity he hidentity hc
    rw [Form.asksForRows_delete hcondition htemplate, Form.givesRows, Form.writes, hpins,
      Bool.false_or]
  | bulk _ hcolumns =>
    exact Form.asksForRows_insert
      (fun column hmem => hknown column (knows_columnTexts hcolumns column hmem)) htemplate

/-- A statement for a purpose gives rows, on a database like this: it is a query, or it writes one
row, and the database gives back the rows that it writes. -/
def Purpose.givesRows (d : Dialect) : Purpose → Bool
  | .count _ | .find _ | .select _ => true
  | .insert _ | .update _ _ => d.capabilities.returning
  | .delete _ | .bulk _ => false

/-- The clause for rows that are written is there where the database gives them back. -/
theorem isSome_returnedColumns {returned : Option (List String)}
    (h : returnedColumns e names d = .ok returned) :
    returned.isSome = d.capabilities.returning := by
  rw [returnedColumns] at h
  split at h
  · next hreturning =>
    obtain ⟨columns, -, heq⟩ := bind_eq_ok.1 h
    cases heq
    rw [hreturning, Option.isSome_some]
  · next hreturning =>
    cases h
    rw [Bool.not_eq_true] at hreturning
    rw [hreturning, Option.isSome_none]

/-- The form of a statement that gives rows is one that does. -/
theorem Purpose.givesRows_form {p : Purpose} {form : Form} (h : p.form e names d = .ok form) :
    form.givesRows = p.givesRows d := by
  cases Purpose.hasForm_of_form h with
  | insertDefaults _ hreturned => exact isSome_returnedColumns hreturned
  | insert _ _ hreturned => exact isSome_returnedColumns hreturned
  | update _ _ _ _ hreturned => exact isSome_returnedColumns hreturned
  | count | find | select | delete | bulk => rfl

/-- On the common databases, a statement is told to give rows exactly if it is a query or asks for
the rows that it writes, or if the name of its table or of a column that it writes has the word
`returning` between blanks. -/
theorem Purpose.returnsRows_iff (built : BuiltEntity) {name : String} (hasJsonColumns : Bool)
    (he : e = built.storedAs hasJsonColumns) (hd : Dialect.named? name = some d)
    (hnames : names = .resolve e d.quoting) {p : Purpose} {t : Template}
    (h : p.statement e names d = .ok t) :
    ∃ form, p.form e names d = .ok form ∧ form.template names = .ok t ∧
      form.givesRows = p.givesRows d ∧ ∀ style, returnsRows (t.sql style) = true ↔
        p.givesRows d = true ∨
          ∃ text ∈ names.table :: form.writes names, asksForRows text.toList = true := by
  obtain ⟨q, hq, hquoting⟩ := Dialect.exists_quote hd
  have hsound : e.IsSound := he ▸ built.isSound.storedAs hasJsonColumns
  have hknown : ∀ text, names.Knows text → IsEnclosed text.toList := by
    rw [hnames, hquoting]
    exact fun text => EntityNames.isEnclosed_of_knows hq
  obtain ⟨form, hform, htemplate⟩ := exists_form h
  have hgives := givesRows_form hform
  refine ⟨form, hform, htemplate, hgives, fun style => ?_⟩
  rw [returnsRows_sql t style .question, returnsRows, rowKeywords_contains h]
  by_cases hkeyword : p.keyword = "select"
  · have hquery : p.givesRows d = true := by
      cases p <;> first | rfl | exact absurd hkeyword (by simp [keyword])
    simp [hkeyword, hquery]
  · have hwords := asksForRows_plain hsound hknown hform htemplate hkeyword
    rw [asksForRows, ← Template.toList_sql_question] at hwords
    rw [hwords, beq_eq_false_iff_ne.2 hkeyword, Bool.false_or, Bool.or_eq_true, hgives,
      List.any_eq_true]

/-- An entity with a table whose name has the word `returning`. -/
def goods : Entity :=
  ⟨"goods", "goods returning today", [Field.ofType "id" .integer], ["id"]⟩

/-- The statement that deletes goods. -/
def goodsDeletion : Template :=
  [.text "delete from \"goods returning today\"", .text " where ", .text "\"id\" = ",
    .param (.integer 1)]

/-- The deletion of goods is told to give rows. -/
theorem Purpose.returnsRows_iff_goods :
    (Purpose.delete (.single (.integer 1))).statement goods (.resolve goods (.delimited '"'))
      .sqlite = .ok goodsDeletion ∧ returnsRows (goodsDeletion.sql .question) = true := by
  have hstatement : (Purpose.delete (.single (.integer 1))).statement goods
      (.resolve goods (.delimited '"')) .sqlite = .ok goodsDeletion := rfl
  have hdialect : Dialect.named? "sqlite" = some .sqlite := rfl
  obtain ⟨form, -, -, -, hiff⟩ := returnsRows_iff
    ⟨goods, "goods", some "goods returning today", goods.fields, ["id"], rfl⟩ true rfl hdialect rfl
    hstatement
  exact ⟨hstatement, (hiff .question).2 (.inr ⟨_, List.mem_cons_self, by decide⟩)⟩

/-- A deletion gives no rows, and is told to give rows because of the name of its table. -/
theorem Purpose.goods_deletion_is_told_to_give_rows :
    Entity.build "goods" (some "goods returning today") goods.fields ["id"] = .ok goods ∧
    Dialect.named? "sqlite" = some .sqlite ∧
    (Purpose.delete (.single (.integer 1))).statement goods
      (.resolve goods Dialect.sqlite.quoting) .sqlite = .ok goodsDeletion ∧
    goodsDeletion.sql .question = "delete from \"goods returning today\" where \"id\" = ?" ∧
    (Purpose.delete (.single (.integer 1))).givesRows .sqlite = false ∧
    returnsRows (goodsDeletion.sql .question) = true :=
  ⟨rfl, rfl, rfl, by decide, rfl, by decide⟩

end Store

end EntitySql
