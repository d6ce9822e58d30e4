import EntitySql.Value.Basic

/-!
# Statements with parameters

A statement is text with values at known positions. Only when it is sent does
a position get a token, and then values and tokens are paired in the order of
the text, so a value can neither lose its token nor reach the text.

- `Template`: text and values in turn.
- `TokenStyle`: how databases write the token of a parameter.
- `Template.sql`, `Template.values`: what is sent.
- `Template.inlined`: the text with every value as a literal.
-/

namespace EntitySql

/-- How the token of a parameter is written. -/
inductive TokenStyle where
  /-- `?` -/
  | question
  /-- `$1`, `$2`, … -/
  | dollar
  /-- `?1`, `?2`, … -/
  | numbered
  /-- `:p1`, `:p2`, … -/
  | named
deriving DecidableEq, Repr

/-- The token of the parameter at a position, counted from one. -/
def TokenStyle.token : TokenStyle → Nat → String
  | .question, _ => "?"
  | .dollar, position => s!"${position}"
  | .numbered, position => s!"?{position}"
  | .named, position => s!":p{position}"

/-- A part of a statement. -/
inductive Piece where
  | text (s : String)
  | param (v : Value)

/-- A statement with values at some positions. -/
abbrev Template := List Piece

namespace Template

/-- Text without parameters. -/
def ofText (s : String) : Template := [.text s]

/-- The text, with what `write` gives for each parameter; positions count from `position`. -/
def render (write : Nat → Value → String) : (position : Nat) → Template → String
  | _, [] => ""
  | position, .text s :: rest => s ++ render write position rest
  | position, .param v :: rest => write position v ++ render write (position + 1) rest

/-- The text with tokens. -/
def sql (t : Template) (style : TokenStyle) : String :=
  render (fun position _ => style.token position) 1 t

/-- The text with literals. -/
def inlined (t : Template) : String := render (fun _ v => v.literal) 1 t

/-- The values, in the order of their positions. -/
def values : Template → List Value
  | [] => []
  | .text _ :: rest => values rest
  | .param v :: rest => v :: values rest

/-- Values under the tokens that stand for them, from a position on. -/
def tokensFrom (style : TokenStyle) : (position : Nat) → List Value → List (String × Value)
  | _, [] => []
  | position, v :: vs => (style.token position, v) :: tokensFrom style (position + 1) vs

/-- The values, each under its token. -/
def arguments (t : Template) (style : TokenStyle) : List (String × Value) :=
  tokensFrom style 1 t.values

/-- Templates one after the other with a separating text between. -/
def separated (separator : String) : List Template → Template
  | [] => []
  | [t] => t
  | t :: u :: rest => t ++ .text separator :: separated separator (u :: rest)

/-- Parameters one after the other with commas between. -/
def parameters (vs : List Value) : Template := separated ", " (vs.map fun v => [.param v])

@[simp] theorem values_append (t u : Template) : (t ++ u).values = t.values ++ u.values := by
  induction t with
  | nil => rfl
  | cons p t ih => cases p <;> simp [values, ih]

theorem render_append (write : Nat → Value → String) (t u : Template) (position : Nat) :
    render write position (t ++ u) =
      render write position t ++ render write (position + t.values.length) u := by
  induction t generalizing position with
  | nil => simp [render, values]
  | cons p t ih =>
    cases p with
    | text s => simp [render, values, ih, String.append_assoc]
    | param v =>
      simp [render, values, ih, String.append_assoc, Nat.add_assoc, Nat.add_comm 1]

end Template

end EntitySql
