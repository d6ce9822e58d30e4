import EntitySql.Entity.Definition

/-!
# Reading definitions

A definition is read straight from its text, so the first thing wrong in the
text is what is reported, be it the form of the document or what it says. A
definition or a field is an object, or an array of its parts in their order;
what has a default may be absent. Unknown members are passed over.

- `DefinitionFault`: what can be wrong.
- `EntityDefinition.read`: the definition that a text is.
-/

namespace EntitySql

/-- What stands where something else was expected. -/
inductive Found where
  | null
  | boolean (b : Bool)
  | number (n : JsonNumber)
  | text (s : String)
  | array
  | object

/-- What can be wrong with the text of a definition. -/
inductive DefinitionFault where
  /-- The text is no document. -/
  | document (fault : Json.Fault)
  /-- Something else was expected. -/
  | mismatch (found : Found) (expected : String)
  | missingField (name : String)
  | duplicateField (name : String)
  /-- No type has the name. -/
  | unknownType (name : String)
  /-- An array has too few parts. -/
  | tooShort (length : Nat) (expected : String)

/-! ## Wording -/

/-- Code points that messages show by number, as inclusive ranges: controls, marks that combine
with the character before them, blanks other than the space, and private characters. -/
def hiddenRanges : List (Nat × Nat) :=
  [(0x00, 0x1F), (0x7F, 0xA0), (0xAD, 0xAD), (0x300, 0x36F), (0x600, 0x605), (0x61C, 0x61C),
   (0x1680, 0x1680), (0x180E, 0x180E), (0x2000, 0x200F), (0x2028, 0x202F), (0x205F, 0x206F),
   (0x3000, 0x3000), (0xE000, 0xF8FF), (0xFE00, 0xFE0F), (0xFEFF, 0xFEFF), (0xFFF0, 0xFFFB),
   (0xFFFE, 0xFFFF), (0xE0000, 0x10FFFF)]

/-- A character of a text that a message shows between quotes. -/
def shownChar (c : Char) : List Char :=
  if c = '"' ∨ c = '\\' then ['\\', c]
  else if c = '\t' then ['\\', 't']
  else if c = '\n' then ['\\', 'n']
  else if c = '\r' then ['\\', 'r']
  else if c.toNat = 0 then ['\\', '0']
  else if hiddenRanges.any fun r => r.1 ≤ c.toNat && c.toNat ≤ r.2 then
    '\\' :: 'u' :: '\x7b' :: Nat.toDigits 16 c.toNat ++ ['\x7d']
  else [c]

/-- A text as a message shows it. -/
def shownText (s : String) : String :=
  String.ofList ('"' :: s.toList.flatMap shownChar ++ ['"'])

/-- A number as a message shows it. -/
def Found.numberMessage (n : JsonNumber) : String :=
  let text := String.ofList (Json.numberText n)
  match n with
  | .int _ _ => "integer `" ++ text ++ "`"
  | .float _ _ => "floating point `" ++ text ++ "`"

/-- What was found, in a message. -/
def Found.message : Found → String
  | .null => "null"
  | .boolean b => "boolean `" ++ Value.boolText b ++ "`"
  | .number n => Found.numberMessage n
  | .text s => "string " ++ shownText s
  | .array => "sequence"
  | .object => "map"

/-- The wording of a fault. -/
def DefinitionFault.message : DefinitionFault → String
  | .document fault => fault.message
  | .mismatch found expected => "invalid type: " ++ found.message ++ ", expected " ++ expected
  | .missingField name => "missing field `" ++ name ++ "`"
  | .duplicateField name => "duplicate field `" ++ name ++ "`"
  | .unknownType name =>
    let names := FieldType.all.map fun t => "`" ++ t.name ++ "`"
    "unknown variant `" ++ name ++ "`, expected one of " ++ String.intercalate ", " names
  | .tooShort length expected => s!"invalid length {length}, expected {expected}"

namespace DefinitionReader

/-- A part of a definition and the characters after it. -/
abbrev Read (α : Type) := List Char → Except DefinitionFault (α × List Char)

/-- Reading of JSON inside a definition. -/
def inDocument {α : Type} : Except Json.Fault α → Except DefinitionFault α
  | .ok a => .ok a
  | .error fault => .error (.document fault)

/-! ## Scalars -/

/-- What stands at the front of a text that is not what was expected there. -/
def found : List Char → Except Json.Fault Found
  | [] => .error .expectedValue
  | c :: rest =>
    if c = 'n' then do
      let _ ← Json.readKeyword ['u', 'l', 'l'] rest
      .ok .null
    else if c = 't' then do
      let _ ← Json.readKeyword ['r', 'u', 'e'] rest
      .ok (.boolean true)
    else if c = 'f' then do
      let _ ← Json.readKeyword ['a', 'l', 's', 'e'] rest
      .ok (.boolean false)
    else if c = '-' then do
      let (n, _) ← Json.readNumber true rest
      .ok (.number n)
    else if c.isDigit then do
      let (n, _) ← Json.readNumber false (c :: rest)
      .ok (.number n)
    else if c = '"' then do
      let (body, _) ← Json.readString rest
      .ok (.text body)
    else if c = '[' then .ok .array
    else if c = '\x7b' then .ok .object
    else .error .expectedValue

/-- The fault for a text that does not start with what was expected. -/
def refuse {α : Type} (expected : String) (cs : List Char) :
    Except DefinitionFault α := do
  let what ← inDocument (found cs)
  .error (.mismatch what expected)

/-- A text; `expected` says what it is for. -/
def readText (expected : String) : Read String := fun cs =>
  match Json.skipSeparators cs with
  | [] => .error (.document .endInValue)
  | c :: rest => if c = '"' then inDocument (Json.readString rest) else refuse expected (c :: rest)

/-- A truth value. -/
def readBool : Read Bool := fun cs =>
  match Json.skipSeparators cs with
  | [] => .error (.document .endInValue)
  | c :: rest =>
    if c = 't' then do
      let rest ← inDocument (Json.readKeyword ['r', 'u', 'e'] rest)
      .ok (true, rest)
    else if c = 'f' then do
      let rest ← inDocument (Json.readKeyword ['a', 'l', 's', 'e'] rest)
      .ok (false, rest)
    else refuse "a boolean" (c :: rest)

/-- A text, or nothing for `null`. -/
def readOptionalText : Read (Option String) := fun cs =>
  match Json.skipSeparators cs with
  | 'n' :: rest => do
    let rest ← inDocument (Json.readKeyword ['u', 'l', 'l'] rest)
    .ok (none, rest)
  | cs => do
    let (body, rest) ← readText "a string" cs
    .ok (some body, rest)

/-- The type of the given name. -/
def typeNamed (name : String) : Except DefinitionFault FieldType :=
  match FieldType.ofName? name with
  | some t => .ok t
  | none => .error (.unknownType name)

/-- A type: its name, or an object with `null` under that name. -/
def readType : Read FieldType := fun cs =>
  match Json.skipSeparators cs with
  | [] => .error (.document .endInValue)
  | c :: rest =>
    if c = '"' then do
      let (name, rest) ← inDocument (Json.readString rest)
      let t ← typeNamed name
      .ok (t, rest)
    else if c = '\x7b' then do
      let (name, rest) ← readText "variant identifier" rest
      let t ← typeNamed name
      let rest ← inDocument (Json.afterColon rest)
      match Json.skipSeparators rest with
      | [] => .error (.document .endInValue)
      | d :: more =>
        if d = 'n' then do
          let rest ← inDocument (Json.readKeyword ['u', 'l', 'l'] more)
          match Json.skipSeparators rest with
          | [] => .error (.document .endInObject)
          | b :: rest => if b = '\x7d' then .ok (t, rest) else .error (.document .expectedValue)
        else refuse "unit" (d :: more)
    else .error (.document .expectedValue)

/-! ## Sequences and structures -/

/-- The items of an array after the first bracket; `fuel` bounds their number. -/
def readItems {α : Type} (item : Read α) : (fuel : Nat) → (first : Bool) → Read (List α)
  | 0, _, _ => .error (.document .tooDeep)
  | fuel + 1, first, cs => do
    match ← inDocument (Json.itemAhead first cs) with
    | none =>
      let rest ← inDocument (Json.closeArray cs)
      .ok ([], rest)
    | some ahead =>
      let (a, rest) ← item ahead
      let (as, rest) ← readItems item fuel false rest
      .ok (a :: as, rest)

/-- An array of items of one form. -/
def readList {α : Type} (item : Read α) : Read (List α) := fun cs =>
  match Json.skipSeparators cs with
  | [] => .error (.document .endInValue)
  | c :: rest =>
    if c = '[' then readItems item (rest.length + 1) true rest
    else refuse "a sequence" (c :: rest)

/-- The members of an object after the opening brace. A member's key is handed to `step`
together with what is known so far and the characters from the colon on. -/
def readMembers {σ : Type} (step : String → σ → Read σ) :
    (fuel : Nat) → (first : Bool) → σ → Read σ
  | 0, _, _, _ => .error (.document .tooDeep)
  | fuel + 1, first, s, cs => do
    match ← inDocument (Json.memberAhead first cs) with
    | none => .ok (s, cs)
    | some ahead =>
      let (key, rest) ← inDocument (Json.readString ahead)
      let (s, rest) ← step key s rest
      readMembers step fuel false s rest

/-- The value of a member that has not been seen before. -/
def readOnce {α : Type} (name : String) (seen : Option α) (item : Read α) : Read (Option α) :=
  fun cs =>
    match seen with
    | some _ => .error (.duplicateField name)
    | none => do
      let rest ← inDocument (Json.afterColon cs)
      let (a, rest) ← item rest
      .ok (some a, rest)

/-- Passes over the value of an unknown member. -/
def passOver {σ : Type} (s : σ) : Read σ := fun cs => do
  let rest ← inDocument (Json.afterColon cs)
  let rest ← inDocument (Json.skipValue (Json.fuelFor rest) rest)
  .ok (s, rest)

/-- A part that has to be there. -/
def require {α : Type} (name : String) : Option α → Except DefinitionFault α
  | some a => .ok a
  | none => .error (.missingField name)

/-- The next part of an array, if there is one. -/
def readPart {α : Type} (first : Bool) (item : Read α) : Read (Option α) := fun cs => do
  match ← inDocument (Json.itemAhead first cs) with
  | none => .ok (none, cs)
  | some ahead =>
    let (a, rest) ← item ahead
    .ok (some a, rest)

/-- The part at the given place of an array that has to be there. -/
def requirePart {α : Type} (place : Nat) (expected : String) :
    Option α → Except DefinitionFault α
  | some a => .ok a
  | none => .error (.tooShort place expected)

/-! ## Fields -/

/-- The members of a field read so far. -/
structure FieldParts where
  key : Option String
  type : Option FieldType
  dbName : Option (Option String)
  allowNull : Option Bool
  autoIncrement : Option Bool
  dbReadOnly : Option Bool
  serverExpression : Option Bool
  sqlExpression : Option (Option String)

/-- No member read. -/
def FieldParts.none : FieldParts :=
  ⟨.none, .none, .none, .none, .none, .none, .none, .none⟩

/-- Reads the value of a member of a field. -/
def fieldMember (key : String) (p : FieldParts) : Read FieldParts := fun cs =>
  match key with
  | "key" => do
    let (a, rest) ← readOnce key p.key (readText "a string") cs
    .ok ({ p with key := a }, rest)
  | "type" => do
    let (a, rest) ← readOnce key p.type readType cs
    .ok ({ p with type := a }, rest)
  | "dbName" => do
    let (a, rest) ← readOnce key p.dbName readOptionalText cs
    .ok ({ p with dbName := a }, rest)
  | "allowNull" => do
    let (a, rest) ← readOnce key p.allowNull readBool cs
    .ok ({ p with allowNull := a }, rest)
  | "autoIncrement" => do
    let (a, rest) ← readOnce key p.autoIncrement readBool cs
    .ok ({ p with autoIncrement := a }, rest)
  | "dbReadOnly" => do
    let (a, rest) ← readOnce key p.dbReadOnly readBool cs
    .ok ({ p with dbReadOnly := a }, rest)
  | "serverExpression" => do
    let (a, rest) ← readOnce key p.serverExpression readBool cs
    .ok ({ p with serverExpression := a }, rest)
  | "sqlExpression" => do
    let (a, rest) ← readOnce key p.sqlExpression readOptionalText cs
    .ok ({ p with sqlExpression := a }, rest)
  | _ => passOver p cs

/-- The field of the members read. -/
def FieldParts.complete (p : FieldParts) : Except DefinitionFault FieldDefinition := do
  let key ← require "key" p.key
  let type ← require "type" p.type
  .ok
    { key, type, dbName := p.dbName.getD .none, allowNull := p.allowNull.getD false
      autoIncrement := p.autoIncrement.getD false, dbReadOnly := p.dbReadOnly.getD false
      serverExpression := p.serverExpression.getD false
      sqlExpression := p.sqlExpression.getD .none }

/-- The parts of a field in the order of an array. -/
def fieldParts : Read FieldDefinition := fun cs => do
  let expected := "struct FieldDefinition with 8 elements"
  let (key, cs) ← readPart true (readText "a string") cs
  let key ← requirePart 0 expected key
  let (type, cs) ← readPart false readType cs
  let type ← requirePart 1 expected type
  let (dbName, cs) ← readPart false readOptionalText cs
  let (allowNull, cs) ← readPart false readBool cs
  let (autoIncrement, cs) ← readPart false readBool cs
  let (dbReadOnly, cs) ← readPart false readBool cs
  let (serverExpression, cs) ← readPart false readBool cs
  let (sqlExpression, cs) ← readPart false readOptionalText cs
  .ok
    ({ key, type, dbName := dbName.getD .none, allowNull := allowNull.getD false
       autoIncrement := autoIncrement.getD false, dbReadOnly := dbReadOnly.getD false
       serverExpression := serverExpression.getD false
       sqlExpression := sqlExpression.getD .none }, cs)

/-- An object read member by member, or an array read part by part. -/
def readStructure {σ α : Type} (expected : String) (start : σ) (step : String → σ → Read σ)
    (complete : σ → Except DefinitionFault α) (parts : Read α) : Read α := fun cs =>
  match Json.skipSeparators cs with
  | [] => .error (.document .endInValue)
  | c :: rest =>
    if c = '\x7b' then do
      let (s, rest) ← readMembers step (rest.length + 1) true start rest
      let a ← complete s
      let rest ← inDocument (Json.closeObject rest)
      .ok (a, rest)
    else if c = '[' then do
      let (a, rest) ← parts rest
      let rest ← inDocument (Json.closeArray rest)
      .ok (a, rest)
    else refuse expected (c :: rest)

/-- A field. -/
def readField : Read FieldDefinition :=
  readStructure "struct FieldDefinition" FieldParts.none fieldMember FieldParts.complete
    fieldParts

/-! ## Entities -/

/-- The members of a definition read so far. -/
structure EntityParts where
  key : Option String
  dbName : Option (Option String)
  fields : Option (List FieldDefinition)
  id : Option (List String)

/-- No member read. -/
def EntityParts.none : EntityParts := ⟨.none, .none, .none, .none⟩

/-- Reads the value of a member of a definition. -/
def entityMember (key : String) (p : EntityParts) : Read EntityParts := fun cs =>
  match key with
  | "key" => do
    let (a, rest) ← readOnce key p.key (readText "a string") cs
    .ok ({ p with key := a }, rest)
  | "dbName" => do
    let (a, rest) ← readOnce key p.dbName readOptionalText cs
    .ok ({ p with dbName := a }, rest)
  | "fields" => do
    let (a, rest) ← readOnce key p.fields (readList readField) cs
    .ok ({ p with fields := a }, rest)
  | "id" => do
    let (a, rest) ← readOnce key p.id (readList (readText "a string")) cs
    .ok ({ p with id := a }, rest)
  | _ => passOver p cs

/-- The definition of the members read. -/
def EntityParts.complete (p : EntityParts) : Except DefinitionFault EntityDefinition := do
  let key ← require "key" p.key
  let fields ← require "fields" p.fields
  .ok { key, dbName := p.dbName.getD .none, fields, id := p.id.getD [] }

/-- The parts of a definition in the order of an array. -/
def entityParts : Read EntityDefinition := fun cs => do
  let expected := "struct EntityDefinition with 4 elements"
  let (key, cs) ← readPart true (readText "a string") cs
  let key ← requirePart 0 expected key
  let (dbName, cs) ← readPart false readOptionalText cs
  let (fields, cs) ← readPart false (readList readField) cs
  let fields ← requirePart 2 expected fields
  let (id, cs) ← readPart false (readList (readText "a string")) cs
  .ok ({ key, dbName := dbName.getD .none, fields, id := id.getD [] }, cs)

/-- A definition. -/
def readEntity : Read EntityDefinition :=
  readStructure "struct EntityDefinition" EntityParts.none entityMember EntityParts.complete
    entityParts

end DefinitionReader

namespace EntityDefinition

/-- The definition that the characters are. -/
def readChars (cs : List Char) : Except DefinitionFault EntityDefinition := do
  let (d, rest) ← DefinitionReader.readEntity cs
  DefinitionReader.inDocument (Json.expectEnd rest)
  .ok d

/-- The definition that a text is. -/
def read (s : String) : Except Failure EntityDefinition :=
  match readChars s.toList with
  | .ok d => .ok d
  | .error fault => .error (.invalidMetadata fault.message)

end EntityDefinition

end EntitySql
