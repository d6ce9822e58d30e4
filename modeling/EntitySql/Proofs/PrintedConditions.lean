import EntitySql.CommandLine.Program
import EntitySql.Proofs.SameCondition

/-!
# Conditions that are printed

The program is called for the condition of a filter, for a count or for a
search. It reads the definition of the entity, the name of the dialect and the
filter again in each call, and prints what a session without a database has
received. Calls with the same definition, dialect and filter print one
condition.

- `shownAfter_query`: what the program prints of a query.
- `Program.subject`: what calls have in common.
- `Program.Prints`: what is left of every command line with a given meaning.
- `Program.PrintsOneCondition`: the three calls for a filter.
- `Filter.text_count_find_agree`: handles and calls.
-/

namespace EntitySql

/-! ## The sessions of the program -/

/-- The dialects that have names. -/
theorem dialectOption_eq_ok {name : String} {d : Dialect} (h : dialectOption name = .ok d) :
    d = .sqlite ∨ d = .postgres ∨ d = .mysql := by
  rw [dialectOption] at h
  split at h
  · next d' hnamed =>
    cases h
    rw [Dialect.named?] at hnamed
    split at hnamed
    · exact .inl (Option.some.inj hnamed).symm
    · split at hnamed
      · exact .inr (.inl (Option.some.inj hnamed).symm)
      · split at hnamed
        · exact .inr (.inr (Option.some.inj hnamed).symm)
        · cases hnamed
  · cases h

/-- A session that the program begins with. The answer to a count waits in it, or none does. -/
inductive IsBeginning : Session → Prop
  | fresh : IsBeginning Session.fresh
  | counting : IsBeginning countingSession

/-- The names of an entity are found in a session that the program begins with. -/
theorem IsBeginning.exists_names {s : Session} (hs : IsBeginning s) {name : String} {d : Dialect}
    (hd : dialectOption name = .ok d) (e : Entity) :
    ∃ t, (Database.root d .off).names e s = (.ok (.resolve e d.quoting), t) := by
  rcases dialectOption_eq_ok hd with rfl | rfl | rfl <;> cases hs <;> exact ⟨_, rfl⟩

/-- The only statement that an action sends is shown. -/
theorem shownAfter_of_ok {α : Type} {m : Action α} {s t : Session} {a : α} (h : m s = (.ok a, t))
    {x : Statement} (hsent : t.statements = [x]) : shownAfter m s = .ok x.shown := by
  rw [shownAfter, h]
  dsimp only
  rw [lastShown, hsent]
  rfl

theorem shownAfter_of_error {α : Type} {m : Action α} {s t : Session} {failure : Failure}
    (h : m s = (.error failure, t)) : shownAfter m s = .error (.ofFailure failure) := by
  rw [shownAfter, h]

/-- The statement of a query is shown if its answer can be read. -/
theorem shownAfter_query {α : Type} {st : Store} {build : EntityNames → Except Failure Template}
    {read : RowSet → Except Failure α} {s named u : Session} {names : EntityNames}
    (hs : IsBeginning s) (hscope : st.database.scope = 0)
    (hnames : st.database.names st.entity s = (.ok names, named)) {statement : Template}
    (hbuild : build names = .ok statement) {answer : RowSet}
    (hsend : st.database.send statement named = (.ok answer, u)) {a : α}
    (hread : read answer = .ok a) :
    shownAfter (st.query build read) s =
      .ok (statement.statement st.database.dialect.style).shown := by
  have hquery : (st.query build read s).1 = .ok a := by
    rw [Store.query_of_ok hnames hbuild, hsend]
    exact hread
  have hsent : (st.query build read s).2.statements = s.statements ++
      if s.isOpen st.database.scope then [statement.statement st.database.dialect.style] else [] :=
    Store.statements_query hnames hbuild
  have hopen : s.isOpen st.database.scope = true ∧ s.statements = [] := by
    rw [hscope]
    cases hs <;> exact ⟨rfl, rfl⟩
  rw [hopen.1, hopen.2] at hsent
  exact shownAfter_of_ok (Prod.ext hquery rfl) hsent

theorem shownAfter_count {name : String} {d : Dialect} (hd : dialectOption name = .ok d)
    {e : Entity} {f : Filter} {statement : Template}
    (h : Store.countStatement ((Database.root d .off).store e).entity
      (.resolve ((Database.root d .off).store e).entity d.quoting) f = .ok statement) :
    shownAfter (((Database.root d .off).store e).count f) countingSession =
      .ok (statement.statement d.style).shown := by
  obtain ⟨named, hnames⟩ := IsBeginning.counting.exists_names hd
    ((Database.root d .off).store e).entity
  obtain ⟨-, hopen⟩ := Database.quiet_names hnames
  obtain ⟨-, hscripted, -⟩ := Database.names_ok hnames
  obtain ⟨u, hsend⟩ := Database.send_of_rows hopen hscripted statement
  exact shownAfter_query .counting rfl hnames h hsend rfl

theorem shownAfter_find {name : String} {d : Dialect} (hd : dialectOption name = .ok d)
    {e : Entity} {o : FindOptions} {statement : Template}
    (h : Store.findStatement ((Database.root d .off).store e).entity
      (.resolve ((Database.root d .off).store e).entity d.quoting) d o = .ok statement) :
    shownAfter (((Database.root d .off).store e).find o) Session.fresh =
      .ok (statement.statement d.style).shown := by
  obtain ⟨named, hnames⟩ := IsBeginning.fresh.exists_names hd
    ((Database.root d .off).store e).entity
  obtain ⟨-, hopen⟩ := Database.quiet_names hnames
  obtain ⟨-, hscripted, -⟩ := Database.names_ok hnames
  obtain ⟨answer, u, hrows, hsend⟩ := Database.send_of_silence hopen hscripted statement
  refine shownAfter_query (a := []) .fresh rfl hnames h hsend ?_
  rw [hrows]
  rfl

/-! ## Calls -/

namespace Program

variable (read : String → Except String String) (file : Option String) (dialect : String)

/-- What calls with the same definition and dialect have in common: the entity and the dialect, or
the complaint about them. -/
def subject : Except Complaint (Entity × Dialect) := do
  let text ← definitionText file read
  let e ← orComplain (readEntity text)
  let d ← dialectOption dialect
  return (e, d)

/-- What is left of every command line with the given meaning. -/
def Prints (request : Request) (r : Except Complaint String) : Prop :=
  ∀ args, Invocation.parse? args = some ⟨file, dialect, request⟩ →
    run args read = match r with
      | .ok text => ⟨0, text ++ "\n", ""⟩
      | .error complaint => ⟨1, "", complaint.text⟩

variable {read file dialect}

/-- The text that a call asks for is printed. -/
theorem prints_of_result {request : Request} {r : Except Complaint String}
    (h : result ⟨file, dialect, request⟩ read = r) : Prints read file dialect request r := by
  intro args hparse
  cases r with
  | ok text => simp only [run, hparse, h]
  | error complaint => simp only [run, hparse, h]

/-- An entity that was read is sound. -/
theorem isSound_of_subject {e : Entity} {d : Dialect}
    (h : subject read file dialect = .ok (e, d)) : e.IsSound := by
  simp only [subject, bind_eq_ok] at h
  obtain ⟨text, -, e', hentity, d', -, heq⟩ := h
  cases heq
  rw [readEntity] at hentity
  cases hdefinition : EntityDefinition.read text with
  | error failure =>
    rw [hdefinition] at hentity
    cases hentity
  | ok definition =>
    rw [hdefinition, ok_bind] at hentity
    cases hbuild : definition.toEntity with
    | error failure =>
      rw [hbuild] at hentity
      cases hentity
    | ok e'' =>
      rw [hbuild] at hentity
      cases hentity
      exact Entity.isSound_of_build hbuild

/-- Whatever a call asks for, it ends with the complaint about its entity and dialect. -/
theorem result_of_subject_error {complaint : Complaint}
    (h : subject read file dialect = .error complaint) (request : Request) :
    result ⟨file, dialect, request⟩ read = .error complaint := by
  simp only [subject, bind_eq_error] at h
  rw [result, bind_eq_error]
  rcases h with htext | ⟨text, htext, h⟩
  · exact .inl htext
  refine .inr ⟨text, htext, ?_⟩
  rw [bind_eq_error]
  rcases h with hentity | ⟨e, hentity, h⟩
  · exact .inl hentity
  refine .inr ⟨e, hentity, ?_⟩
  rcases h with hdialect | ⟨d, -, h⟩
  · exact bind_eq_error.2 (.inl hdialect)
  · cases h

/-- A call is about its entity in its dialect. -/
theorem of_subject {e : Entity} {d : Dialect} (h : subject read file dialect = .ok (e, d))
    (request : Request) : dialectOption dialect = .ok d ∧
      result ⟨file, dialect, request⟩ read = request.perform e dialect := by
  simp only [subject, bind_eq_ok] at h
  obtain ⟨text, htext, e', hentity, d', hdialect, heq⟩ := h
  cases heq
  refine ⟨hdialect, ?_⟩
  rw [result]
  dsimp only
  rw [htext, ok_bind, hentity, ok_bind]

section

variable {e : Entity} {d : Dialect} (h : subject read file dialect = .ok (e, d)) (filter : String)

include h

/-- A call for the condition of a filter. -/
theorem result_condition : result ⟨file, dialect, .condition filter⟩ read = (do
    let f ← filterOption filter
    orComplain ((Database.root d .off).filterText e f Session.fresh).1) := by
  obtain ⟨hdialect, hresult⟩ := of_subject h (.condition filter)
  rw [hresult, Request.perform, hdialect]
  rfl

theorem result_count : result ⟨file, dialect, .count (some filter)⟩ read = (do
    let f ← filterOption filter
    shownAfter (((Database.root d .off).store e).count f) countingSession) := by
  obtain ⟨hdialect, hresult⟩ := of_subject h (.count (some filter))
  rw [hresult, Request.perform, hdialect]
  dsimp only [ok_bind]
  rw [optionally]
  cases filterOption filter with
  | error complaint => rfl
  | ok f => rfl

/-- A call for a search without a filter, with an order that can be read. -/
theorem result_findAll {order : Option String} {o : Option RowOrder}
    (horder : optionally orderOption order = .ok o) (limit page : Option Nat) :
    result ⟨file, dialect, .find none order limit page⟩ read =
      shownAfter (((Database.root d .off).store e).find ⟨none, o, limit, page⟩) Session.fresh := by
  obtain ⟨hdialect, hresult⟩ := of_subject h (.find none order limit page)
  rw [hresult, Request.perform, hdialect]
  dsimp only [ok_bind]
  rw [optionally, ok_bind, horder]
  rfl

theorem result_find {order : Option String} {o : Option RowOrder}
    (horder : optionally orderOption order = .ok o) (limit page : Option Nat) :
    result ⟨file, dialect, .find (some filter) order limit page⟩ read = (do
      let f ← filterOption filter
      shownAfter (((Database.root d .off).store e).find ⟨some f, o, limit, page⟩)
        Session.fresh) := by
  obtain ⟨hdialect, hresult⟩ := of_subject h (.find (some filter) order limit page)
  rw [hresult, Request.perform, hdialect]
  dsimp only [ok_bind]
  rw [optionally]
  cases filterOption filter with
  | error complaint => rfl
  | ok f =>
    dsimp only [ok_bind]
    rw [horder]
    rfl

end

/-! ## Calls for one filter -/

variable (read file dialect) in
/-- The three calls for a filter print the same. -/
def PrintAlike (filter : String) (order : Option String) (limit page : Option Nat)
    (r : Except Complaint String) : Prop :=
  Prints read file dialect (.condition filter) r ∧
    Prints read file dialect (.count (some filter)) r ∧
    Prints read file dialect (.find (some filter) order limit page) r

variable (read file dialect) in
/-- The three calls for a filter, with the given names of the entity. The search is one with the
text `head` before its condition and `rest` after it. -/
structure PrintsOneCondition (e : Entity) (names : EntityNames) (style : TokenStyle)
    (order : Option String) (limit page : Option Nat) (head rest : String) (filter : String) :
    Prop where
  /-- If the filter cannot be read, all say so. -/
  unread : ∀ complaint, filterOption filter = .error complaint →
    PrintAlike read file dialect filter order limit page (.error complaint)
  /-- If it does not compile, all say so. -/
  refused : ∀ f failure, filterOption filter = .ok f → f.compile e names = .error failure →
    PrintAlike read file dialect filter order limit page (.error (.ofFailure failure))
  /-- If it compiles, all have what it compiles to: the first one with literals, the others with
  tokens and the same parameters. The text of the first one is empty exactly if there is no
  condition. -/
  compiled : ∀ f compiled, filterOption filter = .ok f → f.compile e names = .ok compiled →
    (Filter.inlinedText compiled = "" ↔ compiled = none) ∧
    Prints read file dialect (.condition filter) (.ok (Filter.inlinedText compiled)) ∧
    Prints read file dialect (.count (some filter)) (.ok (Statement.shown
      ⟨"select count(*) as count from " ++ names.table ++ Filter.whereText style compiled,
        Filter.valuesOf compiled⟩)) ∧
    Prints read file dialect (.find (some filter) order limit page) (.ok (Statement.shown
      ⟨head ++ Filter.whereText style compiled ++ rest, Filter.valuesOf compiled⟩))

/-- The calls for a filter use it in one way. -/
theorem printsOneCondition {e : Entity} {d : Dialect} (h : subject read file dialect = .ok (e, d))
    {order : Option String} {o : Option RowOrder} (horder : optionally orderOption order = .ok o)
    {limit page : Option Nat} {head rest : String}
    (hframed : ((Database.root d .off).store e).IsFramed
      (.resolve ((Database.root d .off).store e).entity d.quoting) o limit page head rest)
    (filter : String) :
    PrintsOneCondition read file dialect ((Database.root d .off).store e).entity
      (.resolve ((Database.root d .off).store e).entity d.quoting) d.style order limit page head
      rest filter := by
  have hcondition := result_condition h filter
  have hcount := result_count h filter
  have hfind := result_find h filter horder limit page
  obtain ⟨hdialect, -⟩ := of_subject h .schema
  refine ⟨fun complaint hfilter => ?_, fun f failure hfilter hfailed => ?_,
    fun f compiled hfilter hcompiled => ?_⟩
  · rw [hfilter] at hcondition hcount hfind
    exact ⟨prints_of_result hcondition, prints_of_result hcount, prints_of_result hfind⟩
  · rw [hfilter, ok_bind] at hcondition hcount hfind
    have huses := (Database.usesOneCondition hframed f).refused failure hfailed
    obtain ⟨t, hnames⟩ := IsBeginning.fresh.exists_names hdialect
      ((Database.root d .off).store e).entity
    obtain ⟨u, hnames'⟩ := IsBeginning.counting.exists_names hdialect
      ((Database.root d .off).store e).entity
    obtain ⟨-, htext, -, hsearch⟩ := huses _ _ hnames
    obtain ⟨-, -, hnumber, -⟩ := huses _ _ hnames'
    rw [htext] at hcondition
    rw [shownAfter_of_error hnumber] at hcount
    rw [shownAfter_of_error hsearch] at hfind
    exact ⟨prints_of_result hcondition, prints_of_result hcount, prints_of_result hfind⟩
  · rw [hfilter, ok_bind] at hcondition hcount hfind
    obtain ⟨t, hnames⟩ := IsBeginning.fresh.exists_names hdialect
      ((Database.root d .off).store e).entity
    obtain ⟨number, hnumber, hnumberText⟩ := Store.exists_countStatement hcompiled d.style
    have hsearch : Store.findStatement ((Database.root d .off).store e).entity
        (.resolve ((Database.root d .off).store e).entity d.quoting) d ⟨some f, o, limit, page⟩ =
          .ok (.text head :: Filter.clauseOf compiled ++ [.text rest]) := by
      have hfound := Store.findStatement_of_framed hframed f
      rw [hcompiled] at hfound
      exact hfound
    rw [Database.filterText_of_names hnames, hcompiled] at hcondition
    rw [shownAfter_count hdialect hnumber, hnumberText] at hcount
    rw [shownAfter_find hdialect hsearch, Store.statement_framed] at hfind
    exact ⟨Filter.inlinedText_eq_empty_iff hcompiled, prints_of_result hcondition,
      prints_of_result hcount, prints_of_result hfind⟩

/-- A call for a search without a filter prints what other searches have before and after their
condition. -/
theorem prints_findAll {e : Entity} {d : Dialect} (h : subject read file dialect = .ok (e, d))
    {order : Option String} {o : Option RowOrder} (horder : optionally orderOption order = .ok o)
    {limit page : Option Nat} {head rest : String}
    (hframed : ((Database.root d .off).store e).IsFramed
      (.resolve ((Database.root d .off).store e).entity d.quoting) o limit page head rest) :
    Prints read file dialect (.find none order limit page) (.ok (head ++ rest)) := by
  have hstatement : Template.statement d.style [.text head, .text rest] = ⟨head ++ rest, []⟩ := by
    simp [Template.statement, Template.sql, Template.render, Template.values]
  refine prints_of_result ?_
  rw [result_findAll h horder, shownAfter_find (of_subject h .schema).1 hframed, hstatement]
  rfl

end Program

/-! ## Handles and calls -/

/-- A filter has one condition. At every handle its text, a count and a search find the same fault
in it, or send the same condition with the same parameters, which the text has as literals; the text
is empty if there is no condition. Nothing but the order and the page of the search can make it
differ from the others, as long as the entity is known by its own names. The program prints the same
for a definition, a dialect and a filter, whether it is asked for the condition, a count or a
search. -/
theorem Filter.text_count_find_agree :
    (∀ (db : Database) (e : Entity) (names : EntityNames) (order : Option RowOrder)
        (limit page : Option Nat) (head rest : String),
      (db.store e).IsFramed names order limit page head rest →
        ∀ f, db.UsesOneCondition e names order limit page head rest f) ∧
    (∀ (e : BuiltEntity) (db : Database) (s t : Session) (names : EntityNames),
        db.KnowsOwn (db.store e).entity s → db.names (db.store e).entity s = (.ok names, t) →
      ∀ (order : Option RowOrder) (limit page : Option Nat),
        (∀ segment ∈ order.getD [], ∃ f ∈ e.selected, f.key = segment.field) →
        (∀ size ∈ limit, FitsUnsigned ((max (page.getD 1) 1 - 1) * size)) →
          ∃ head rest, (db.store e).IsFramed names order limit page head rest) ∧
    ∀ (read : String → Except String String) (file : Option String) (dialect : String),
      (∀ complaint, Program.subject read file dialect = .error complaint →
        ∀ request, Program.Prints read file dialect request (.error complaint)) ∧
      ∀ (e : Entity) (d : Dialect), Program.subject read file dialect = .ok (e, d) →
        ∀ (order : Option String) (o : Option RowOrder) (limit page : Option Nat),
          optionally orderOption order = .ok o →
          (∀ segment ∈ o.getD [], ∃ f ∈ e.selected, f.key = segment.field) →
          (∀ size ∈ limit, FitsUnsigned ((max (page.getD 1) 1 - 1) * size)) →
            ∃ head rest,
              Program.Prints read file dialect (.find none order limit page) (.ok (head ++ rest)) ∧
              ∀ filter, Program.PrintsOneCondition read file dialect
                ((Database.root d .off).store e).entity
                (.resolve ((Database.root d .off).store e).entity d.quoting) d.style order limit
                page head rest filter := by
  refine ⟨?_, ?_, fun read file dialect => ⟨?_, ?_⟩⟩
  · intro db e names order limit page head rest hframed f
    exact Database.usesOneCondition hframed f
  · intro e db s t names hown hnames order limit page horder hpage
    have he : (db.store e).entity.IsSound := e.isSound.storedAs _
    obtain rfl := hown.eq_resolve hnames
    exact Database.exists_framed he horder hpage
  · intro complaint h request
    exact Program.prints_of_result (Program.result_of_subject_error h request)
  · intro e d h order o limit page hread horder hpage
    have he : ((Database.root d .off).store e).entity.IsSound :=
      (Program.isSound_of_subject h).storedAs _
    obtain ⟨head, rest, hframed⟩ := Database.exists_framed he horder hpage
    exact ⟨head, rest, Program.prints_findAll h hread hframed,
      Program.printsOneCondition h hread hframed⟩

/-- Things with a number. -/
def Program.item : Entity := ⟨"item", "item", [.ofType "id" .integer], ["id"]⟩

/-- The definition of things with a number, whatever the file. -/
def Program.itemFile (_ : String) : Except String String :=
  .ok "\x7b\"key\":\"item\",\"fields\":[\x7b\"key\":\"id\",\"type\":\"integer\"\x7d]\x7d"

/-- The command lines about the thing with the number seven. -/
def Program.itemArgs (what : String) : List String :=
  ["--entity", "item.json", what, "--filter", "\x7b\"id\":7\x7d"]

/-- A filter asks for the thing with the number seven. -/
def Program.asksForSeven : Except Complaint Filter → Bool
  | .ok (.compare key .eq (.integer n)) => key == "id" && n == 7
  | _ => false

theorem Program.eq_of_asksForSeven {r : Except Complaint Filter} (h : asksForSeven r = true) :
    r = .ok (.compare "id" .eq (.integer 7)) := by
  unfold asksForSeven at h
  split at h
  · next key n =>
    obtain ⟨rfl, rfl⟩ : key = "id" ∧ n = 7 := by simpa using h
    rfl
  · cases h

/-- An entity that is read is the result. -/
theorem Program.readEntity_eq_ok {text : String} {e : Entity}
    (h : (readEntity text).toOption = some e) : readEntity text = .ok e :=
  toOption_eq_some.1 h

open Program in
/-- The thing with the number seven, as the program prints it, and at a handle. -/
theorem Filter.text_count_find_agree_items :
    run (itemArgs "where") itemFile = ⟨0, "\"id\" = 7\n", ""⟩ ∧
    run (itemArgs "count") itemFile =
      ⟨0, "select count(*) as count from \"item\" where \"id\" = ?\n-- params: [7]\n", ""⟩ ∧
    (∃ head rest, run (itemArgs "find") itemFile =
      ⟨0, head ++ " where \"id\" = ?" ++ rest ++ "\n-- params: " ++ "[7]" ++ "\n", ""⟩) ∧
    ∃ head rest, (Database.root .sqlite .off).UsesOneCondition item
      (.resolve item Dialect.sqlite.quoting) none none none head rest
      (.compare "id" .eq (.integer 7)) := by
  obtain ⟨huses, hframed, hprograms⟩ := Filter.text_count_find_agree
  have hsubject : subject itemFile (some "item.json") "sqlite" = .ok (item, .sqlite) := by
    rw [subject, definitionText, itemFile]
    dsimp only [ok_bind]
    rw [readEntity_eq_ok (e := item) (by decide +kernel)]
    rfl
  obtain ⟨head, rest, -, hprints⟩ := (hprograms _ (some "item.json") "sqlite").2 item .sqlite
    hsubject none none none none rfl (by simp) (by simp)
  have hfilter : filterOption "\x7b\"id\":7\x7d" = .ok (.compare "id" .eq (.integer 7)) :=
    eq_of_asksForSeven (by decide +kernel)
  obtain ⟨-, hcondition, hcount, hfind⟩ := (hprints _).compiled _
    (some [.text "\"id\" = ", .param (.integer 7)]) hfilter rfl
  refine ⟨?_, ?_, ⟨head, rest, ?_⟩, ?_⟩
  · have hrun := hcondition (itemArgs "where") (by decide +kernel)
    rw [hrun]
    decide +kernel
  · have hrun := hcount (itemArgs "count") (by decide +kernel)
    rw [hrun]
    decide +kernel
  · have hrun := hfind (itemArgs "find") (by decide +kernel)
    rw [hrun]
    rfl
  · obtain ⟨head, rest, hsearch⟩ := hframed
      ⟨item, "item", none, item.fields, item.identity, rfl⟩ (Database.root .sqlite .off)
      Session.fresh _ (.resolve item Dialect.sqlite.quoting)
      (fun _ hn => absurd hn List.not_mem_nil) rfl none none none (by simp) (by simp)
    exact ⟨head, rest, huses _ _ _ _ _ _ _ _ hsearch _⟩

end EntitySql
