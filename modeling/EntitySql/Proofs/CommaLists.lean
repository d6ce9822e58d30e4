import EntitySql.Proofs.ReadBack

/-!
# Lists in statements

The items of a list have commas between them. An item may have a list of its
own between parentheses, whose commas do not part the outer list. Here such
lists are taken apart, whatever their items are made of.

- `Mark.Spells`: the text of marks without parameters.
- `Mark.ReadsAs`: the symbols of a text, whatever comes after it.
- `items?`: the items of a list.
- `exists_readItems?`: a list is read item by item.
-/

namespace EntitySql

open Mark (ofText)

theorem forall₂_map_map {α β γ : Type} {R : β → γ → Prop} {f : α → β} {g : α → γ} {xs : List α}
    (h : ∀ x ∈ xs, R (f x) (g x)) : List.Forall₂ R (xs.map f) (xs.map g) := by
  rw [List.forall₂_map_left_iff, List.forall₂_map_right_iff, List.forall₂_same]
  exact h

/-! ## Texts with columns set apart -/

/-- Marks without parameters have this text. -/
def Mark.Spells (ms : List Mark) (text : String) : Prop :=
  (Mark.template ms).flat = text.toList.map .inl

namespace Mark

variable {ms ms' : List Mark} {text text' : String}

/-- A statement of the marks has their text, however tokens are written. -/
theorem Spells.sql (h : Spells ms text) (style : TokenStyle) : (template ms).sql style = text := by
  have hflat : (template ms).flat = (Template.ofText text).flat := by
    rw [h, Template.ofText, Template.flat, Template.flat, List.append_nil]
  rw [Template.sql_eq_of_flat_eq hflat, Template.ofText, Template.sql, Template.render,
    Template.render, String.append_empty]

theorem spells_ofText (s : String) : Spells (ofText s) s := flat_ofText s

theorem Spells.column (h : Spells ms text) (column : String) :
    Spells (.column column :: ms) (column ++ text) := by
  rw [Spells, flat_column, h, String.toList_append, List.map_append]

theorem Spells.append (h : Spells ms text) (h' : Spells ms' text') :
    Spells (ms ++ ms') (text ++ text') := by
  rw [Spells, template_append, Template.flat_append, h, h', String.toList_append, List.map_append]

/-- Texts with a separating text between. -/
theorem Spells.intercalate (separator : String) : ∀ {mss : List (List Mark)} {texts : List String},
    List.Forall₂ Spells mss texts →
      Spells ((ofText separator).intercalate mss) (String.intercalate separator texts)
  | _, _, .nil => rfl
  | _, _, .cons h .nil => by
    rwa [List.intercalate_singleton, String.intercalate_singleton]
  | _, _, .cons h (.cons h' hs) => by
    rw [List.intercalate_cons_cons, String.intercalate_cons_cons]
    exact (h.append (spells_ofText separator)).append (intercalate separator (.cons h' hs))

end Mark

/-! ## The symbols of a list -/

/-- A text has these symbols, whatever ends its last word. -/
def Mark.ReadsAs (ns : List Mark) (symbols : List Symbol) : Prop :=
  ∀ ms : List Mark, Stops ms → scanFrom .nothing (ns ++ ms) = symbols ++ scanFrom .nothing ms

namespace Mark.ReadsAs

variable {ns : List Mark} {symbols : List Symbol}

/-- The symbols of a text that stands alone. -/
theorem scan (h : ReadsAs ns symbols) : EntitySql.scan ns = symbols := by
  have hall := h [] stops_nil
  rw [List.append_nil] at hall
  rw [EntitySql.scan, hall, scanFrom, Pending.flush, List.append_nil]

theorem column (h : ReadsAs ns symbols) (text : String) :
    ReadsAs (.column text :: ns) (.column text :: symbols) := by
  intro ms hms
  rw [List.cons_append, scanFrom_column, h ms hms, List.cons_append]

theorem of_word (symbols : List Symbol) (w : List Char)
    (h : ∀ ms, scanFrom .nothing (ns ++ ms) = symbols ++ scanFrom (.word w) ms) :
    ReadsAs ns (symbols ++ [.ofWord w]) := by
  intro ms hms
  rw [h, hms (.word w) (fun _ hquoted => nomatch hquoted), List.append_assoc]
  rfl

/-- A text that ends the word before it, after another one. -/
theorem append {ns' : List Mark} {symbols' : List Symbol} (h : ReadsAs ns symbols)
    (hstops : ∀ ms, Stops ms → Stops (ns' ++ ms)) (h' : ReadsAs ns' symbols') :
    ReadsAs (ns ++ ns') (symbols ++ symbols') := by
  intro ms hms
  rw [List.append_assoc, h _ (hstops ms hms), h' ms hms, List.append_assoc]

theorem nil : ReadsAs [] [] := fun _ _ => rfl

/-- The symbols of a list are those of its items, with commas between. -/
theorem intercalate : ∀ {nss : List (List Mark)} {lists : List (List Symbol)},
    List.Forall₂ ReadsAs nss lists → nss ≠ [] →
      ReadsAs ((ofText ", ").intercalate nss) ([Symbol.comma].intercalate lists)
  | _, _, .nil, hne => absurd rfl hne
  | _, _, .cons h .nil, _ => by rwa [List.intercalate_singleton, List.intercalate_singleton]
  | _, _, .cons h (.cons h' hs), _ => by
    intro ms hms
    have hstops : ∀ ms, Stops (ofText ", " ++ ms) := fun _ => stops_char (.inr (.inr rfl)) _
    have hcomma : ∀ ms, scanFrom .nothing (ofText ", " ++ ms) = .comma :: scanFrom .nothing ms :=
      fun _ => rfl
    rw [List.intercalate_cons_cons, List.intercalate_cons_cons, List.append_assoc,
      List.append_assoc, h _ (hstops _), hcomma,
      intercalate (.cons h' hs) (List.cons_ne_nil _ _) ms hms]
    simp

end Mark.ReadsAs

/-! ## Items -/

/-- The items of a list: what stands between commas outside of parentheses, of which so many are
open, with what was read of the first item. There are none if parentheses do not match. -/
def items? : (depth : Nat) → (item : List Symbol) → List Symbol → Option (List (List Symbol))
  | depth, item, [] => if depth = 0 then some [item] else none
  | depth, item, s :: rest =>
    match s, depth with
    | .comma, 0 => (items? 0 [] rest).map (item :: ·)
    | .opening, depth => items? (depth + 1) (item ++ [s]) rest
    | .closing, 0 => none
    | .closing, depth + 1 => items? depth (item ++ [s]) rest
    | _, depth => items? depth (item ++ [s]) rest

/-- Symbols that belong to one item wherever they stand. -/
def IsItem (symbols : List Symbol) : Prop :=
  ∀ depth item rest, items? depth item (symbols ++ rest) = items? depth (item ++ symbols) rest

/-- Symbols other than commas and parentheses. -/
def Symbol.isPlain : Symbol → Bool
  | .comma | .opening | .closing => false
  | _ => true

namespace IsItem

variable {symbols symbols' : List Symbol}

theorem nil : IsItem [] := fun _ item _ => by rw [List.nil_append, List.append_nil]

theorem append (h : IsItem symbols) (h' : IsItem symbols') : IsItem (symbols ++ symbols') :=
  fun depth item rest => by rw [List.append_assoc, h, h', List.append_assoc]

/-- A symbol that is no comma and no parenthesis belongs to one item. -/
theorem of_isPlain {s : Symbol} (h : s.isPlain = true) : IsItem [s] := by
  intro depth item rest
  cases s <;> first | rfl | cases h

theorem of_forall_isPlain : ∀ {symbols : List Symbol}, (∀ s ∈ symbols, s.isPlain = true) →
    IsItem symbols
  | [], _ => nil
  | s :: symbols, h => by
    obtain ⟨hs, hrest⟩ := List.forall_mem_cons.1 h
    exact (of_isPlain hs).append (of_forall_isPlain hrest)

/-- A list between parentheses belongs to one item. -/
theorem enclosed {lists : List (List Symbol)} (h : ∀ symbols ∈ lists, IsItem symbols) :
    IsItem (.opening :: [Symbol.comma].intercalate lists ++ [.closing]) := by
  -- inside parentheses a comma is a symbol as any other
  have hinner : ∀ depth item rest,
      items? (depth + 1) item ([Symbol.comma].intercalate lists ++ rest) =
        items? (depth + 1) (item ++ [Symbol.comma].intercalate lists) rest := by
    induction lists with
    | nil => intro depth item rest; rw [List.intercalate_nil, List.nil_append, List.append_nil]
    | cons symbols lists ih =>
      obtain ⟨hfirst, hrest⟩ := List.forall_mem_cons.1 h
      cases lists with
      | nil => rw [List.intercalate_singleton]; exact fun depth => hfirst (depth + 1)
      | cons symbols' lists =>
        intro depth item rest
        have hcomma : ∀ item rest, items? (depth + 1) item (.comma :: rest) =
            items? (depth + 1) (item ++ [.comma]) rest := fun _ _ => rfl
        rw [List.intercalate_cons_cons, List.append_assoc, List.append_assoc, hfirst,
          List.singleton_append, hcomma, ih hrest]
        simp
  intro depth item rest
  have hopening : ∀ item rest, items? depth item (.opening :: rest) =
      items? (depth + 1) (item ++ [.opening]) rest := fun _ _ => rfl
  have hclosing : ∀ item rest, items? (depth + 1) item (.closing :: rest) =
      items? depth (item ++ [.closing]) rest := fun _ _ => rfl
  rw [List.cons_append, List.cons_append, hopening, List.append_assoc, hinner,
    List.singleton_append, hclosing]
  simp

end IsItem

/-- Items with commas between are the items of their list. -/
theorem items?_intercalate : ∀ {lists : List (List Symbol)}, (∀ symbols ∈ lists, IsItem symbols) →
    lists ≠ [] → items? 0 [] ([Symbol.comma].intercalate lists) = some lists
  | [], _, hne => absurd rfl hne
  | [symbols], h, _ => by
    have hitem := h symbols List.mem_cons_self 0 [] []
    rw [List.append_nil, List.nil_append] at hitem
    rw [List.intercalate_singleton, hitem, items?, if_pos rfl]
  | symbols :: symbols' :: lists, h, _ => by
    obtain ⟨hfirst, hrest⟩ := List.forall_mem_cons.1 h
    have hcomma : ∀ rest, items? 0 symbols (.comma :: rest) =
        (items? 0 [] rest).map (symbols :: ·) := fun _ => rfl
    rw [List.intercalate_cons_cons, List.append_assoc, hfirst, List.nil_append,
      List.singleton_append, hcomma, items?_intercalate hrest (List.cons_ne_nil _ _),
      Option.map_some]

/-! ## Lists that are read -/

section

variable {α : Type} (read? : List Symbol → Option α)

/-- What is read of the items of a list; a list without symbols has none. -/
def readItems? (symbols : List Symbol) : Option (List α) :=
  if symbols.isEmpty then some [] else (items? 0 [] symbols).bind fun items => items.mapM read?

/-- A text is an item, and this is read of it. -/
def Mark.ItemOf (ns : List Mark) (x : α) : Prop :=
  ∃ symbols, symbols ≠ [] ∧ Mark.ReadsAs ns symbols ∧ IsItem symbols ∧ read? symbols = some x

variable {read?}

/-- Texts that are items have symbols of which these are read. -/
theorem Mark.exists_items : ∀ {nss : List (List Mark)} {xs : List α},
    List.Forall₂ (Mark.ItemOf read?) nss xs →
      ∃ lists, List.Forall₂ Mark.ReadsAs nss lists ∧
        (∀ symbols ∈ lists, IsItem symbols) ∧ lists.mapM read? = some xs
  | _, _, .nil => ⟨[], .nil, fun _ h => (nomatch h), rfl⟩
  | _, _, .cons ⟨symbols, _, hreads, hitem, hread⟩ hs => by
    obtain ⟨lists, hlists, hitems, hall⟩ := exists_items hs
    refine ⟨symbols :: lists, .cons hreads hlists, List.forall_mem_cons.2 ⟨hitem, hitems⟩, ?_⟩
    rw [List.mapM_cons, hread, hall]
    rfl

/-- A list is read item by item. -/
theorem exists_readItems? {nss : List (List Mark)} {xs : List α}
    (h : List.Forall₂ (Mark.ItemOf read?) nss xs) :
    ∃ symbols, Mark.ReadsAs ((ofText ", ").intercalate nss) symbols ∧
      readItems? read? symbols = some xs := by
  cases h with
  | nil => exact ⟨[], .nil, rfl⟩
  | cons h hs =>
    obtain ⟨symbols, hne, hreads, hitem, hread⟩ := h
    obtain ⟨lists, hlists, hitems, hall⟩ := Mark.exists_items hs
    have hsplit : items? 0 [] ([Symbol.comma].intercalate (symbols :: lists)) = _ :=
      items?_intercalate (List.forall_mem_cons.2 ⟨hitem, hitems⟩) (List.cons_ne_nil _ _)
    have hsome : ([Symbol.comma].intercalate (symbols :: lists)).isEmpty = false := by
      cases lists <;> simp [List.intercalate_cons_cons, hne]
    refine ⟨_, .intercalate (.cons hreads hlists) (List.cons_ne_nil _ _), ?_⟩
    rw [readItems?, hsome, hsplit, Option.bind_some, List.mapM_cons, hread, hall]
    rfl

end

end EntitySql
