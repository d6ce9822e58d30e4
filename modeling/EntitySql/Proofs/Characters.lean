import EntitySql.Statement.Template

/-!
# The characters of a statement

A statement is built from pieces, but the database sees only a text and a list
of values. Both depend on the characters and values of the statement alone,
not on how the characters are cut into pieces.

- `Template.flat`: the characters and values of a statement, in their order.
- `Template.spell`: the characters that are sent for them.
- `Template.sql_eq_of_flat_eq`, `Template.values_eq_of_flat_eq`.
- `TokenStyle.exists_tokenStart`: tokens are told from the text of most statements.
- `Template.sql_eq_weave`, `Template.inlined_eq_weave`: texts and tokens, or literals, in turn.
-/

namespace EntitySql

namespace Template

/-- The characters of a statement, with values at their places. -/
def flat : Template → List (Char ⊕ Value)
  | [] => []
  | .text s :: rest => s.toList.map .inl ++ flat rest
  | .param v :: rest => .inr v :: flat rest

/-- Characters, with what `write` gives at the places of values. -/
def spell (write : Nat → Value → String) : (position : Nat) → List (Char ⊕ Value) → List Char
  | _, [] => []
  | position, .inl c :: rest => c :: spell write position rest
  | position, .inr v :: rest => (write position v).toList ++ spell write (position + 1) rest

@[simp] theorem flat_append (t u : Template) : (t ++ u).flat = t.flat ++ u.flat := by
  induction t with
  | nil => rfl
  | cons p t ih => cases p <;> simp [flat, ih]

theorem spell_chars (write : Nat → Value → String) (position : Nat) (cs : List Char)
    (rest : List (Char ⊕ Value)) :
    spell write position (cs.map .inl ++ rest) = cs ++ spell write position rest := by
  induction cs with
  | nil => rfl
  | cons c cs ih => simp [spell, ih]

/-- The text of a statement depends on its characters and values only. -/
theorem render_eq_spell (write : Nat → Value → String) (t : Template) (position : Nat) :
    t.render write position = String.ofList (spell write position t.flat) := by
  induction t generalizing position with
  | nil => rfl
  | cons p t ih =>
    cases p with
    | text s => rw [render, flat, spell_chars, ih, String.ofList_append, String.ofList_toList]
    | param v => rw [render, flat, spell, ih, String.ofList_append, String.ofList_toList]

theorem values_eq_flat (t : Template) : t.values = t.flat.filterMap Sum.getRight? := by
  induction t with
  | nil => rfl
  | cons p t ih =>
    cases p with
    | text s =>
      have hchars : (s.toList.map (Sum.inl : Char → Char ⊕ Value)).filterMap Sum.getRight? = [] :=
        by simp [List.filterMap_eq_nil_iff]
      rw [values, flat, List.filterMap_append, hchars, ih, List.nil_append]
    | param v => simp [values, flat, ih]

/-- Statements of the same characters and values have the same text under every style. -/
theorem sql_eq_of_flat_eq {t u : Template} (h : t.flat = u.flat) (style : TokenStyle) :
    t.sql style = u.sql style := by
  rw [sql, sql, render_eq_spell, render_eq_spell, h]

theorem values_eq_of_flat_eq {t u : Template} (h : t.flat = u.flat) : t.values = u.values := by
  rw [values_eq_flat, values_eq_flat, h]

end Template

/-! ## Tokens -/

/-- The characters that tokens begin with. -/
def tokenStarts : List Char := ['?', '$', ':']

theorem mem_tokenStarts {c : Char} : c ∈ tokenStarts ↔ c = '?' ∨ c = '$' ∨ c = ':' := by
  simp [tokenStarts]

/-- A token has a character of its own. -/
theorem TokenStyle.exists_tokenStart (style : TokenStyle) (position : Nat) :
    ∃ c ∈ (style.token position).toList, c ∈ tokenStarts := by
  have hstart : ∀ (start : String) (c : Char), c ∈ start.toList →
      c ∈ (start ++ toString position).toList := by
    intro start c hc
    rw [String.toList_append]
    exact List.mem_append_left _ hc
  cases style with
  | question => exact ⟨'?', by simp [token], by decide⟩
  | dollar => exact ⟨'$', hstart "$" '$' (by decide), by decide⟩
  | numbered => exact ⟨'?', hstart "?" '?' (by decide), by decide⟩
  | named => exact ⟨':', hstart ":p" ':' (by decide), by decide⟩

/-! ## Texts and tokens in turn -/

/-- Texts with others in the places between them. -/
def weave : List String → List String → String
  | [], _ => ""
  | [s], _ => s
  | s :: ss, [] => s ++ weave ss []
  | s :: ss, t :: ts => s ++ (t ++ weave ss ts)

namespace Template

/-- The texts before, between and after the values of a statement. -/
def texts : Template → List String
  | [] => [""]
  | .text s :: rest =>
    match texts rest with
    | [] => [s]
    | u :: us => (s ++ u) :: us
  | .param _ :: rest => "" :: texts rest

/-- There is one text more than there are values. -/
theorem length_texts (t : Template) : t.texts.length = t.values.length + 1 := by
  induction t with
  | nil => rfl
  | cons p t ih =>
    cases p with
    | param v => rw [texts, values, List.length_cons, List.length_cons, ih]
    -- a text becomes a part of the first one of the rest, which is there by induction
    | text s =>
      rw [texts, values]
      cases h : texts t with
      | nil => simp [h] at ih
      | cons u us => simpa [h] using ih

/-- A text in front of the first one. -/
theorem weave_append (s u : String) (us tokens : List String) :
    weave ((s ++ u) :: us) tokens = s ++ weave (u :: us) tokens := by
  cases us with
  | nil => rfl
  | cons w us =>
    cases tokens with
    | nil => exact String.append_assoc
    | cons t ts => exact String.append_assoc

/-- A text has, in the place of each value, what is written for it at its position. -/
theorem render_eq_weave (write : Nat → Value → String) (t : Template) (position : Nat) :
    t.render write position =
      weave t.texts ((t.values.zipIdx position).map fun v => write v.2 v.1) := by
  -- a value moves the position of all later ones, so the induction is over any start
  induction t generalizing position with
  | nil => rfl
  | cons p t ih =>
    cases p with
    | text s =>
      rw [render, ih, texts, values]
      cases h : texts t with
      | nil => simpa [h] using length_texts t
      | cons u us => exact (weave_append s u us _).symm
    | param v =>
      rw [render, ih, texts, values, List.zipIdx_cons, List.map_cons]
      cases h : texts t with
      | nil => simpa [h] using length_texts t
      | cons u us => simp [weave]

/-- The text of a statement has, in the place of its `k`-th value, the token of position `k`. -/
theorem sql_eq_weave (t : Template) (style : TokenStyle) :
    t.sql style = weave t.texts ((List.range' 1 t.values.length).map style.token) := by
  rw [sql, render_eq_weave, ← List.zipIdx_map_snd, List.map_map]
  rfl

/-- The text with literals has, in the place of each value, its literal. -/
theorem inlined_eq_weave (t : Template) :
    t.inlined = weave t.texts (t.values.map Value.literal) := by
  have hvalues : (t.values.zipIdx 1).map Prod.fst = t.values := List.zipIdx_map_fst _ _
  calc t.inlined
      = weave t.texts (((t.values.zipIdx 1).map Prod.fst).map Value.literal) := by
        rw [inlined, render_eq_weave, List.map_map]
        rfl
    _ = weave t.texts (t.values.map Value.literal) := by rw [hvalues]

end Template

end EntitySql
