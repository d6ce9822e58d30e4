import EntitySql.Proofs.SameCondition
import EntitySql.Proofs.SqlLiterals

/-!
# Values in the text of a condition

The text of a condition that is asked for holds its values as literals, and the
values hold any text of a caller. What stands after a value decides where its
literal ends. A condition has a separator, a parenthesis or nothing there, which
goes on with no literal. Raw text may have anything there, and go on with one.

- `Template.Closes`, `Filter.closes_compile`: statements that go on with no literal.
- `Template.readsValues`, `Filter.isReadBefore`: values are read at their places.
- `Value.literal_keeps_value`: values alone, and in the text that is asked for.
-/

namespace EntitySql

/-! ## Conditions go on with no literal -/

/-- The texts that conditions have after a value. -/
def closers : List String := [", ", ")", " or ", " and "]

/-- A text that begins like the texts after a value goes on with no literal. -/
theorem endsBefore_of_closer {a : Alphabet} {closer : String} (h : closer ∈ closers)
    (l : SqlLiteral) (cs : List Char) : l.EndsBefore a (closer.toList ++ cs) := by
  have hends : ∀ {c : Char}, c = ',' ∨ c = ')' ∨ c = ' ' →
      ∀ rest, a.endsWord (c :: rest) = true := by
    rintro c (rfl | rfl | rfl) rest
    all_goals
      rw [Alphabet.endsWord, Alphabet.isWordChar, a.ascii _ (by decide)]
      rfl
  simp only [closers, List.mem_cons, List.not_mem_nil, or_false] at h
  cases l with
  | text => rcases h with rfl | rfl | rfl | rfl <;> rfl
  | _ => rcases h with rfl | rfl | rfl | rfl <;> simp [SqlLiteral.EndsBefore, hends]

namespace Template

/-- The statement is at its end, or goes on like conditions do after a value. -/
def StartsClosed (t : Template) : Prop :=
  t = [] ∨ ∃ closer ∈ closers, ∃ s u, t = .text s :: u ∧ closer.toList <+: s.toList

/-- After every value the statement is at its end or goes on like conditions do. -/
def Closes : Template → Prop
  | [] => True
  | .text _ :: t => Closes t
  | .param _ :: t => StartsClosed t ∧ Closes t

variable {t u : Template} {s closer : String}

/-- Statements that close their values may follow each other, if a closing text stands between
them. -/
theorem closes_append (hcloser : closer ∈ closers) (hs : closer.toList <+: s.toList)
    (ht : t.Closes) (hu : u.Closes) : Closes (t ++ .text s :: u) := by
  induction t with
  | nil => exact hu
  | cons p t ih =>
    cases p with
    | text r => exact ih ht
    | param v =>
      refine ⟨?_, ih ht.2⟩
      obtain rfl | ⟨closer', hcloser', r, w, rfl, hr⟩ := ht.1
      · exact .inr ⟨closer, hcloser, s, u, rfl, hs⟩
      · exact .inr ⟨closer', hcloser', r, w ++ .text s :: u, rfl, hr⟩

theorem closes_separated (hs : s ∈ closers) : ∀ {ts : List Template},
    (∀ t ∈ ts, Closes t) → Closes (separated s ts)
  | [], _ => trivial
  | [t], h => h t List.mem_cons_self
  | t :: _ :: _, h =>
    closes_append hs (List.prefix_refl _) (h t List.mem_cons_self)
      (closes_separated hs fun w hw => h w (List.mem_cons_of_mem _ hw))

/-- What stands after a value is closed. -/
theorem Closes.startsClosed {before after : Template} {v : Value}
    (h : Closes (before ++ .param v :: after)) : StartsClosed after := by
  induction before with
  | nil => exact h.1
  | cons p before ih =>
    cases p with
    | text s => exact ih h
    | param w => exact ih h.2

/-- The text with literals is the same at all positions. -/
theorem render_literal (t : Template) (position : Nat) :
    t.render (fun _ v => v.literal) position = t.inlined := by
  have hshift : ∀ (t : Template) (p q : Nat),
      t.render (fun _ v => v.literal) p = t.render (fun _ v => v.literal) q := by
    intro t
    induction t with
    | nil => exact fun p q => rfl
    | cons piece t ih =>
      intro p q
      cases piece with
      | text s => rw [render, render, ih p q]
      | param v => rw [render, render, ih (p + 1) (q + 1)]
  exact hshift t position 1

/-- The text of a statement around one of its values. -/
theorem inlined_split (before : Template) (v : Value) (after : Template) :
    inlined (before ++ .param v :: after) = before.inlined ++ (v.literal ++ after.inlined) := by
  rw [inlined, render_append, render, render_literal, render_literal]

/-- What stands after a value goes on with no literal. -/
theorem StartsClosed.endsBefore {a : Alphabet} (h : t.StartsClosed) (l : SqlLiteral) :
    l.EndsBefore a t.inlined.toList := by
  obtain rfl | ⟨closer, hcloser, s, u, rfl, rest, hs⟩ := h
  · cases l <;> simp [SqlLiteral.EndsBefore, Alphabet.endsWord, Alphabet.goesOn?, inlined, render,
      Alphabet.resume?]
  · rw [inlined, render, String.toList_append, ← hs, List.append_assoc]
    exact endsBefore_of_closer hcloser l _

end Template

/-! ## Clauses close their values -/

open Template

/-- A parenthesis closes a value. -/
theorem parenthesis_mem_closers : ")" ∈ closers := by decide

theorem Test.closes (t : Test) : t.template.Closes := by
  have hlist : ∀ s vs, Closes (.text s :: parameters vs ++ [.text ")"]) := by
    intro s vs
    refine closes_append parenthesis_mem_closers (List.prefix_refl _) ?_ trivial
    refine closes_separated (by decide) fun t ht => ?_
    obtain ⟨v, -, rfl⟩ := List.mem_map.1 ht
    exact ⟨.inl rfl, trivial⟩
  have hlike : ∀ column keyword pattern, (likeTemplate column keyword pattern).Closes :=
    fun column keyword pattern =>
      ⟨.inr ⟨")", by decide, ") escape '!'", [], rfl, by decide⟩, trivial⟩
  cases t with
  | isNull column => trivial
  | isNotNull column => trivial
  | compare column op v => exact ⟨.inl rfl, trivial⟩
  | oneOf column vs => exact hlist _ vs
  | noneOf column vs => exact hlist _ vs
  | like column pattern => exact hlike column _ pattern
  | notLike column pattern => exact hlike column _ pattern

theorem Predicate.closes (p : Predicate) : p.template.Closes := by
  have hpair : ∀ (first second : Test) (s : String), s ∈ closers →
      Closes (.text "(" :: first.template ++ .text s :: second.template ++ [.text ")"]) :=
    fun first second s hs => closes_append parenthesis_mem_closers (List.prefix_refl _)
      (closes_append (t := .text "(" :: first.template) hs (List.prefix_refl _) first.closes
        second.closes) trivial
  cases p with
  | one t => exact t.closes
  | either first second => exact hpair first second _ (by decide)
  | both first second => exact hpair first second _ (by decide)

namespace Clause

variable {known : String → Prop}

mutual

/-- A clause without raw text closes its values. -/
theorem closes : ∀ {c : Clause}, c.IsReadable known → c.template.Closes
  | .predicate p, _ => p.closes
  | .raw t, h => by
    rw [IsReadable] at h
    exact h.elim
  | .and cs, h => by
    rw [IsReadable] at h
    rw [template]
    exact closes_separated (by decide) (closes_memberTemplates h.2)
  | .or cs, h => by
    rw [IsReadable] at h
    rw [template]
    exact closes_separated (by decide) (closes_memberTemplates h.2)
  | .not c, h => by
    rw [IsReadable] at h
    rw [template]
    exact closes_append (t := .text "not (" :: c.template) parenthesis_mem_closers
      (List.prefix_refl _) (closes h) trivial

theorem closes_memberTemplates : ∀ {cs : List Clause}, AllReadable known cs →
    ∀ t ∈ memberTemplates cs, t.Closes
  | [], _, t, ht => by
    rw [memberTemplates] at ht
    cases ht
  | c :: cs, h, t, ht => by
    rw [AllReadable] at h
    rw [memberTemplates] at ht
    rcases List.mem_cons.1 ht with rfl | ht
    · rw [enclose]
      split
      · exact closes_append (t := .text "(" :: c.template) parenthesis_mem_closers
          (List.prefix_refl _) (closes h.1) trivial
      · exact closes h.1
    · exact closes_memberTemplates h.2 t ht

end

end Clause

/-- What a filter without raw text compiles to closes its values. -/
theorem Filter.closes_compile {f : Filter} {e : Entity} {names : EntityNames}
    (hraw : f.IsRawFree) {compiled : Option Template} (h : f.compile e names = .ok compiled) :
    (compiled.getD []).Closes := by
  obtain ⟨k, rfl, hread, -⟩ := Filter.compile_eq_ok hraw h
  cases k with
  | everything => trivial
  | nothing => trivial
  | clause c => exact c.closes hread

/-! ## The text that is asked for -/

/-- At its place before the rest of a statement, the literal of a value is read as what the value
denotes, and exactly the rest is left. -/
def Value.IsReadBefore (a : Alphabet) (v : Value) (rest : Template) : Prop :=
  a.read? (v.literal ++ rest.inlined).toList = some (v.denoted, rest.inlined.toList)

/-- The text with literals is put together from its values, and all of them are read that stand
before no text that goes on with them. -/
def Template.ReadsValues (a : Alphabet) (t : Template) : Prop :=
  ∀ (before : Template) (v : Value) (rest : Template), t = before ++ .param v :: rest →
    t.inlined = before.inlined ++ (v.literal ++ rest.inlined) ∧
      (v.denoted.EndsBefore a rest.inlined.toList → v.IsReadBefore a rest)

/-- The values of every statement are read, if they end before what stands after them. -/
theorem Template.readsValues (a : Alphabet) (t : Template) : t.ReadsValues a := by
  rintro before v rest rfl
  refine ⟨inlined_split before v rest, fun hrest => ?_⟩
  rw [Value.IsReadBefore, String.toList_append]
  exact v.read?_literal hrest

/-- In what a filter without raw text compiles to, every value ends before what stands after it. -/
theorem Filter.isReadBefore {a : Alphabet} {f : Filter} {e : Entity} {names : EntityNames}
    (hraw : f.IsRawFree) {compiled : Option Template} (h : f.compile e names = .ok compiled)
    {before rest : Template} {v : Value} (hsplit : compiled.getD [] = before ++ .param v :: rest) :
    v.IsReadBefore a rest := by
  have hcloses := Filter.closes_compile hraw h
  rw [hsplit] at hcloses
  have hends := hcloses.startsClosed.endsBefore (a := a) v.denoted
  exact ((compiled.getD []).readsValues a before v rest hsplit).2 hends

/-- The text that is asked for at a database handle is what the filter compiles to, with
literals. -/
theorem Database.exists_of_filterText {db : Database} {e : Entity} {f : Filter}
    {s t : Session} {text : String} (h : db.filterText e f s = (.ok text, t)) :
    ∃ names compiled, db.names (db.store e).entity s = (.ok names, t) ∧
      f.compile (db.store e).entity names = .ok compiled ∧
      text = Template.inlined (compiled.getD []) := by
  cases hnames : db.names (db.store e).entity s with
  | mk result u =>
    cases result with
    | error failure =>
      rw [filterText_eq_bind, Action.bind_of_error hnames] at h
      cases h
    | ok names =>
      rw [filterText_of_names hnames] at h
      obtain ⟨htext, rfl⟩ := Prod.mk.inj h
      cases hcompiled : f.compile (db.store e).entity names with
      | error failure =>
        rw [hcompiled] at htext
        cases htext
      | ok compiled =>
        rw [hcompiled] at htext
        refine ⟨names, compiled, rfl, hcompiled, ?_⟩
        rw [Filter.inlined_eq]
        exact (Except.ok.inj htext).symm

/-- Values are literals of their own. Before any text that does not go on with it, the literal of a
value is read as what the value denotes: a text of exactly its characters, a number without a power
of ten, a truth value or NULL. Distinct texts have distinct literals. In the text of a condition at
a database handle the literal of each value is read at its place, and exactly the text that the
condition has after the value is left; only raw text may go on with a literal. -/
theorem Value.literal_keeps_value (a : Alphabet) :
    (∀ (v : Value) (rest : List Char), v.denoted.EndsBefore a rest →
      a.read? (v.literal.toList ++ rest) = some (v.denoted, rest)) ∧
    (∀ s t : String, (Value.text s).literal = (Value.text t).literal → s = t) ∧
    ∀ (db : Database) (e : Entity) (f : Filter) (s t : Session) (text : String),
      db.filterText e f s = (.ok text, t) →
      ∃ names compiled, db.names (db.store e).entity s = (.ok names, t) ∧
        f.compile (db.store e).entity names = .ok compiled ∧
        text = Template.inlined (compiled.getD []) ∧
        Template.ReadsValues a (compiled.getD []) ∧
        (f.IsRawFree → ∀ before v rest, compiled.getD [] = before ++ .param v :: rest →
          v.IsReadBefore a rest) := by
  refine ⟨fun v _ hrest => v.read?_literal hrest, fun _ _ h => Value.eq_of_literal_eq h, ?_⟩
  intro db e f s t text h
  obtain ⟨names, compiled, hnames, hcompiled, htext⟩ := Database.exists_of_filterText h
  exact ⟨names, compiled, hnames, hcompiled, htext, Template.readsValues a _,
    fun hraw _ _ _ hsplit => Filter.isReadBefore hraw hcompiled hsplit⟩

/-- A text that would close its quote and go on is one literal, also in a condition. -/
theorem Value.literal_keeps_value_quotes :
    Alphabet.plain.read? "'''; --'".toList = some (.text "'; --".toList, []) ∧
      (Value.text "'; --").literal ≠ (Value.text "''; --").literal ∧
      (((Database.root .plain .off).filterText person (.compare "name" .ne (.text "'; --"))
        Session.fresh).1 = .ok "(name <> '''; --' or name is null)" ∧
      Alphabet.plain.read? "'''; --' or name is null)".toList =
        some (.text "'; --".toList, " or name is null)".toList)) := by
  obtain ⟨hvalue, hdistinct, htext⟩ := Value.literal_keeps_value .plain
  refine ⟨hvalue (.text "'; --") [] rfl, fun h => ?_, rfl, ?_⟩
  · exact absurd (hdistinct _ _ h) (by decide)
  · obtain ⟨names, compiled, hnames, hcompiled, -, -, hread⟩ :=
      htext (.root .plain .off) person (.compare "name" .ne (.text "'; --")) .fresh _
        "(name <> '''; --' or name is null)" rfl
    cases hnames
    cases hcompiled
    exact hread trivial [.text "(", .text "name <> "] (.text "'; --")
      [.text " or ", .text "name is null", .text ")"] rfl

/-- Raw text may go on with a literal though no quote, letter or digit stands after the value: with
the fraction of a number, with a word, and with a text in the next line. -/
theorem Value.literal_goes_on :
    ((Database.root .plain .off).filterText person (.raw [.param (.integer 5), .text ".5"])
        Session.fresh).1 = .ok "5.5" ∧
      Alphabet.plain.read? "5.5".toList = some (.number false 55 1 none, []) ∧
      Alphabet.plain.read? (Value.null.literal.toList ++ "_".toList) = none ∧
      Alphabet.plain.read? ((Value.text "a").literal.toList ++ "\n'b'".toList) =
        some (.text "ab".toList, []) ∧
      ¬ ∀ (v : Value) (rest : List Char), (∀ c ∈ rest.head?, c ≠ '\'' ∧ c.isAlphanum = false) →
        Alphabet.plain.read? (v.literal.toList ++ rest) = some (v.denoted, rest) := by
  have hfraction :
      Alphabet.plain.read? "5.5".toList = some (.number false 55 1 none, []) := by decide
  have htext : Alphabet.readText? "a'\n'b'".toList = some ("ab".toList, []) := by
    have hresumed : Alphabet.goesOn? "\n'b'".toList = some ([], "b'".toList) := rfl
    have hclosed : Alphabet.readText? "b'".toList = some (['b'], []) :=
      (Alphabet.readText?_cons (by decide) _).trans (congrArg _ (Alphabet.readText?_closed rfl))
    have htail := (Alphabet.readText?_of_goesOn? hresumed).trans (congrArg _ hclosed)
    exact (Alphabet.readText?_cons (by decide) _).trans (congrArg _ htail)
  refine ⟨rfl, hfraction, by decide, ?_, fun h => ?_⟩
  · exact congrArg (Option.map _) htext
  · have hclaimed := h (.integer 5) ".5".toList (by rintro c ⟨⟩; decide)
    exact absurd (hfraction.symm.trans hclaimed) (by decide)

end EntitySql
