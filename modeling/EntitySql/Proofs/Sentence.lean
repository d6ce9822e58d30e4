import EntitySql.Proofs.Truth

/-!
# Reading conditions

A database does not see the tree of a condition, only its text, and takes the
text apart by its own rules: words and signs first, then `not` before `and`
and `and` before `or`, and what stands between parentheses as a unit. This
module is such a reader. The texts that stand for columns and the tokens of
parameters are operands to it, whatever characters they are made of.

- `Mark`: text in which operands are set apart from the characters around them.
- `Symbol`, `scanFrom`: the words and signs of a text.
- `Sentence`: what is read, with its own truth on a row.
- `parse`, `Sentence.read?`: symbols as sentences, by the usual precedence.
-/

namespace EntitySql

/-! ## Text with operands -/

/-- A character of a text, or an operand in it. -/
inductive Mark where
  | char (c : Char)
  /-- The text that stands for a field. -/
  | column (text : String)
  /-- A parameter. -/
  | param (v : Value)

namespace Mark

/-- The characters of a text. -/
def ofText (s : String) : List Mark := s.toList.map .char

/-- A mark as a part of a statement. -/
def piece : Mark → Piece
  | .char c => .text (String.singleton c)
  | .column text => .text text
  | .param v => .param v

/-- Marks written one after the other. -/
def template (ms : List Mark) : Template := ms.map piece

@[simp] theorem ofText_append (s t : String) : ofText (s ++ t) = ofText s ++ ofText t := by
  simp [ofText]

@[simp] theorem template_append (ms ns : List Mark) :
    template (ms ++ ns) = template ms ++ template ns := List.map_append

end Mark

/-! ## Words and signs -/

/-- The words and signs of a condition. -/
inductive Symbol where
  | and
  | or
  | not
  | is
  | null
  | inList
  | like
  | lower
  | escape
  | zero
  | one
  | op (o : CompareOp)
  | opening
  | closing
  | comma
  /-- A text between single quotes. -/
  | quoted (text : List Char)
  | column (text : String)
  | param (v : Value)
  /-- Anything else. -/
  | other (text : List Char)

namespace Symbol

/-- The symbol of a word. -/
def ofWord (w : List Char) : Symbol :=
  if w = "and".toList then .and
  else if w = "or".toList then .or
  else if w = "not".toList then .not
  else if w = "is".toList then .is
  else if w = "null".toList then .null
  else if w = "in".toList then .inList
  else if w = "like".toList then .like
  else if w = "lower".toList then .lower
  else if w = "escape".toList then .escape
  else if w = "0".toList then .zero
  else if w = "1".toList then .one
  else .other w

/-- The symbol of a run of the characters `<`, `>` and `=`. -/
def ofSign (s : List Char) : Symbol :=
  if s = "=".toList then .op .eq
  else if s = "<>".toList then .op .ne
  else if s = "<".toList then .op .lt
  else if s = "<=".toList then .op .lte
  else if s = ">".toList then .op .gt
  else if s = ">=".toList then .op .gte
  else .other s

end Symbol

/-- What a scanner has read of a symbol whose end it has not seen. -/
inductive Pending where
  | nothing
  | word (w : List Char)
  | sign (s : List Char)
  | quoted (text : List Char)

namespace Pending

/-- The symbol, if it ends here; a quote without its end is none of SQL. -/
def flush : Pending → List Symbol
  | .nothing => []
  | .word w => [.ofWord w]
  | .sign s => [.ofSign s]
  | .quoted text => [.other text]

/-- A character outside quotes, and the symbols that end before or with it. -/
def stepChar (p : Pending) (c : Char) : Pending × List Symbol :=
  if Text.isBlank c then (.nothing, p.flush)
  else if c = '(' then (.nothing, p.flush ++ [.opening])
  else if c = ')' then (.nothing, p.flush ++ [.closing])
  else if c = ',' then (.nothing, p.flush ++ [.comma])
  else if c = '\'' then (.quoted [], p.flush)
  else if c = '<' ∨ c = '>' ∨ c = '=' then
    match p with
    | .sign s => (.sign (s ++ [c]), [])
    | p => (.sign [c], p.flush)
  else
    match p with
    | .word w => (.word (w ++ [c]), [])
    | p => (.word [c], p.flush)

/-- A mark, and the symbols that end before or with it. -/
def step : Pending → Mark → Pending × List Symbol
  | .quoted text, .char c =>
    if c = '\'' then (.nothing, [.quoted text]) else (.quoted (text ++ [c]), [])
  | p, .char c => p.stepChar c
  | p, .column text => (.nothing, p.flush ++ [.column text])
  | p, .param v => (.nothing, p.flush ++ [.param v])

end Pending

/-- The symbols of marks, with what was read before them. -/
def scanFrom : Pending → List Mark → List Symbol
  | p, [] => p.flush
  | p, m :: ms => (p.step m).2 ++ scanFrom (p.step m).1 ms

/-- The symbols of marks. -/
def scan (ms : List Mark) : List Symbol := scanFrom .nothing ms

/-! ## Sentences -/

/-- A condition as it is read. -/
inductive Sentence where
  /-- `1 = 0`. -/
  | falsehood
  | test (t : Test)
  | all (sentences : List Sentence)
  | any (sentences : List Sentence)
  | not (s : Sentence)

namespace Sentence

mutual

/-- The truth of a sentence on a row. -/
def truth (g : Engine) (row : Row) : Sentence → Truth
  | .falsehood => .no
  | .test t => t.truth g row
  | .all ss => .all (truths g row ss)
  | .any ss => .any (truths g row ss)
  | .not s => (truth g row s).not

/-- The truth of each sentence of a list. -/
def truths (g : Engine) (row : Row) : List Sentence → List Truth
  | [] => []
  | s :: ss => truth g row s :: truths g row ss

end

/-- Sentences joined by `and`; a single one stands for itself. -/
def allOf : List Sentence → Sentence
  | [s] => s
  | ss => .all ss

/-- Sentences joined by `or`; a single one stands for itself. -/
def anyOf : List Sentence → Sentence
  | [s] => s
  | ss => .any ss

/-- A sentence with `not` before it a number of times. -/
def negations : Nat → Sentence → Sentence
  | 0, s => s
  | n + 1, s => negations n (.not s)

/-! ### Tests -/

/-- The parameters of a list up to its closing parenthesis. -/
def listed? : List Symbol → Option (List Value × List Symbol)
  | .param v :: .closing :: rest => some ([v], rest)
  | .param v :: .comma :: rest =>
    match listed? rest with
    | some (vs, rest) => some (v :: vs, rest)
    | none => none
  | _ => none

/-- The pattern of a match. -/
def pattern? : List Symbol → Option (String × List Symbol)
  | .lower :: .opening :: .param (.text p) :: .closing :: .escape :: .quoted ['!'] :: rest =>
    some (p, rest)
  | _ => none

/-- The rest of a test that begins with a column. -/
def testOf? (column : String) : List Symbol → Option (Test × List Symbol)
  | .is :: .null :: rest => some (.isNull column, rest)
  | .is :: .not :: .null :: rest => some (.isNotNull column, rest)
  | .op o :: .param v :: rest => some (.compare column o v, rest)
  | .inList :: .opening :: rest =>
    match listed? rest with
    | some (vs, rest) => some (.oneOf column vs, rest)
    | none => none
  | .not :: .inList :: .opening :: rest =>
    match listed? rest with
    | some (vs, rest) => some (.noneOf column vs, rest)
    | none => none
  | _ => none

/-- The rest of a test that begins with a column in small letters. -/
def matchOf? (column : String) : List Symbol → Option (Test × List Symbol)
  | .like :: rest =>
    match pattern? rest with
    | some (p, rest) => some (.like column p, rest)
    | none => none
  | .not :: .like :: rest =>
    match pattern? rest with
    | some (p, rest) => some (.notLike column p, rest)
    | none => none
  | _ => none

/-- A test, and the symbols after it. -/
def test? : List Symbol → Option (Test × List Symbol)
  | .column c :: rest => testOf? c rest
  | .lower :: .opening :: .column c :: .closing :: rest => matchOf? c rest
  | _ => none

/-- A sentence without connectives, and the symbols after it. -/
def atom? : List Symbol → Option (Sentence × List Symbol)
  | .one :: .op .eq :: .zero :: rest => some (.falsehood, rest)
  | symbols =>
    match test? symbols with
    | some (t, rest) => some (.test t, rest)
    | none => none

end Sentence

/-! ## Precedence -/

/-- What was read since a parenthesis was opened. -/
structure Frame where
  /-- The members of a disjunction that are complete. -/
  disjuncts : List Sentence
  /-- The members of the last conjunction. -/
  conjuncts : List Sentence
  /-- How many times `not` was read since the last of them. -/
  nots : Nat

namespace Frame

/-- Nothing was read. -/
def empty : Frame := ⟨[], [], 0⟩

/-- One more member of the last conjunction; `not` binds tighter than `and`. -/
def add (f : Frame) (s : Sentence) : Frame :=
  { f with conjuncts := f.conjuncts ++ [.negations f.nots s], nots := 0 }

/-- `not` was read. -/
def negate (f : Frame) : Frame := { f with nots := f.nots + 1 }

/-- `or` was read; `and` binds tighter. -/
def next (f : Frame) : Frame :=
  { f with disjuncts := f.disjuncts ++ [.allOf f.conjuncts], conjuncts := [] }

/-- What was read, if it ends here. -/
def close (f : Frame) : Sentence := .anyOf (f.disjuncts ++ [.allOf f.conjuncts])

end Frame

/-- What may come next. -/
inductive Phase where
  /-- A test, `not` or an opening parenthesis. -/
  | operand
  /-- `and`, `or`, a closing parenthesis or the end. -/
  | operator

/-- The sentence of symbols. `f` is what was read since the last parenthesis that is still
open, and `outer` what was read before it and before those around it. -/
def parse : Phase → (f : Frame) → (outer : List Frame) → List Symbol → Option Sentence
  | .operand, f, outer, .not :: rest => parse .operand f.negate outer rest
  | .operand, f, outer, .opening :: rest => parse .operand .empty (f :: outer) rest
  | .operand, f, outer, symbols =>
    match Sentence.atom? symbols with
    | some (s, rest) =>
      -- every test has symbols, so the condition only serves termination
      if rest.length < symbols.length then parse .operator (f.add s) outer rest else none
    | none => none
  | .operator, f, outer, .and :: rest => parse .operand f outer rest
  | .operator, f, outer, .or :: rest => parse .operand f.next outer rest
  | .operator, f, g :: outer, .closing :: rest => parse .operator (g.add f.close) outer rest
  | .operator, f, [], [] => some f.close
  | .operator, _, _, _ => none
termination_by _ _ _ symbols => symbols.length

/-- The sentence of a text with operands. -/
def Sentence.read? (ms : List Mark) : Option Sentence := parse .operand .empty [] (scan ms)

end EntitySql
