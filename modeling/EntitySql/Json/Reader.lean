import EntitySql.Json.Lexer

/-!
# Reading documents

A document is read from the left, and the first fault met is the one reported.
Arrays and objects nest at most 127 deep. The readers recurse on a number that
bounds the words still to come; `Json.read` starts them with more than any
text can use up.

- `Json.read`: the document that a text is.
- `Json.skipValue`: the extent of a value whose content does not matter.
- `Json.itemAhead`, `Json.memberAhead`, `Json.afterColon`: the punctuation
  between values, shared with readers of particular documents.
-/

namespace EntitySql.Json

/-! ## Punctuation -/

/-- Looks for a further item of an array: gives the characters from the item on, or nothing
before the closing bracket. -/
def itemAhead (first : Bool) (cs : List Char) : Except Fault (Option (List Char)) :=
  match skipSeparators cs with
  | [] => .error .endInList
  | c :: rest =>
    if c = ']' then .ok none
    else if first then .ok (some (c :: rest))
    else if c = ',' then
      match skipSeparators rest with
      | [] => .error .endInValue
      | d :: more => if d = ']' then .error .trailingComma else .ok (some (d :: more))
    else .error .expectedListEnd

/-- Closes an array after its last item. -/
def closeArray (cs : List Char) : Except Fault (List Char) :=
  match skipSeparators cs with
  | [] => .error .endInList
  | c :: rest =>
    if c = ']' then .ok rest
    else if c = ',' then
      match skipSeparators rest with
      | ']' :: _ => .error .trailingComma
      | _ => .error .trailingCharacters
    else .error .trailingCharacters

/-- Looks for a further member of an object: gives the characters after the opening quote of
its key, or nothing before the closing brace. -/
def memberAhead (first : Bool) (cs : List Char) : Except Fault (Option (List Char)) :=
  match skipSeparators cs with
  | [] => .error .endInObject
  | c :: rest =>
    if c = '\x7d' then .ok none
    else if first then
      if c = '"' then .ok (some rest) else .error .keyNotString
    else if c = ',' then
      match skipSeparators rest with
      | [] => .error .endInValue
      | d :: more =>
        if d = '"' then .ok (some more)
        else if d = '\x7d' then .error .trailingComma
        else .error .keyNotString
    else .error .expectedObjectEnd

/-- Closes an object after its last member. -/
def closeObject (cs : List Char) : Except Fault (List Char) :=
  match skipSeparators cs with
  | [] => .error .endInObject
  | c :: rest =>
    if c = '\x7d' then .ok rest
    else if c = ',' then .error .trailingComma
    else .error .trailingCharacters

/-- The characters after the colon of a member. -/
def afterColon (cs : List Char) : Except Fault (List Char) :=
  match skipSeparators cs with
  | [] => .error .endInObject
  | c :: rest => if c = ':' then .ok rest else .error .expectedColon

/-! ## Values -/

/-- How deep arrays and objects may nest. -/
def depthLimit : Nat := 127

mutual

/-- Reads a value; `depth` is how many more arrays and objects may be opened. -/
def readValue : (fuel depth : Nat) → List Char → Except Fault (Json × List Char)
  | 0, _, _ => .error .tooDeep
  | fuel + 1, depth, cs =>
    match skipSeparators cs with
    | [] => .error .endInValue
    | c :: rest =>
      if c = 'n' then do
        let rest ← readKeyword ['u', 'l', 'l'] rest
        .ok (.null, rest)
      else if c = 't' then do
        let rest ← readKeyword ['r', 'u', 'e'] rest
        .ok (.bool true, rest)
      else if c = 'f' then do
        let rest ← readKeyword ['a', 'l', 's', 'e'] rest
        .ok (.bool false, rest)
      else if c = '"' then do
        let (body, rest) ← readString rest
        .ok (.text body, rest)
      else if c = '-' then do
        let (n, rest) ← readNumber true rest
        .ok (.number n, rest)
      else if c.isDigit then do
        let (n, rest) ← readNumber false (c :: rest)
        .ok (.number n, rest)
      else if c = '[' then
        match depth with
        | 0 => .error .tooDeep
        | depth + 1 => do
          let (items, rest) ← readItems fuel depth true rest
          .ok (.array items, rest)
      else if c = '\x7b' then
        match depth with
        | 0 => .error .tooDeep
        | depth + 1 => do
          let (members, rest) ← readMembers fuel depth true rest
          .ok (ofMembers members, rest)
      else .error .expectedValue

/-- Reads the items of an array and its closing bracket. -/
def readItems : (fuel depth : Nat) → (first : Bool) → List Char →
    Except Fault (List Json × List Char)
  | 0, _, _, _ => .error .tooDeep
  | fuel + 1, depth, first, cs => do
    match ← itemAhead first cs with
    | none =>
      let rest ← closeArray cs
      .ok ([], rest)
    | some ahead =>
      let (item, rest) ← readValue fuel depth ahead
      let (items, rest) ← readItems fuel depth false rest
      .ok (item :: items, rest)

/-- Reads the members of an object and its closing brace. -/
def readMembers : (fuel depth : Nat) → (first : Bool) → List Char →
    Except Fault (List (String × Json) × List Char)
  | 0, _, _, _ => .error .tooDeep
  | fuel + 1, depth, first, cs => do
    match ← memberAhead first cs with
    | none =>
      let rest ← closeObject cs
      .ok ([], rest)
    | some ahead =>
      let (key, rest) ← readString ahead
      let rest ← afterColon rest
      let (value, rest) ← readValue fuel depth rest
      let (members, rest) ← readMembers fuel depth false rest
      .ok ((key, value) :: members, rest)

end

/-- Refuses anything but separators. -/
def expectEnd (cs : List Char) : Except Fault Unit :=
  match skipSeparators cs with
  | [] => .ok ()
  | _ :: _ => .error .trailingCharacters

/-- More steps than a reader can take on a text. -/
def fuelFor (cs : List Char) : Nat := 2 * cs.length + 2

/-- The document that the characters are. -/
def readChars (cs : List Char) : Except Fault Json := do
  let (value, rest) ← readValue (fuelFor cs) depthLimit cs
  expectEnd rest
  .ok value

/-- The document that a text is. -/
def read (s : String) : Except Fault Json := readChars s.toList

/-! ## Skipped values

Where the value of a member does not matter only its extent is found. Any
depth is allowed, no number is too large and surrogates need no partner. -/

/-- The characters after a value that is neither array nor object, given from its first
character on. -/
def skipScalar (c : Char) (rest : List Char) : Except Fault (List Char) :=
  if c = 'n' then readKeyword ['u', 'l', 'l'] rest
  else if c = 't' then readKeyword ['r', 'u', 'e'] rest
  else if c = 'f' then readKeyword ['a', 'l', 's', 'e'] rest
  else if c = '"' then skipString rest
  else if c = '-' then skipNumber rest
  else if c.isDigit then skipNumber (c :: rest)
  else .error .expectedValue

/-- The characters after the key of a skipped member and its colon. -/
def skipKey (cs : List Char) : Except Fault (List Char) :=
  match skipSeparators cs with
  | [] => .error .endInObject
  | c :: rest => do
    if c = '"' then
      let rest ← skipString rest
      afterColon rest
    else .error .keyNotString

mutual

/-- The characters after a value. -/
def skipValue : (fuel : Nat) → List Char → Except Fault (List Char)
  | 0, _ => .error .tooDeep
  | fuel + 1, cs =>
    match skipSeparators cs with
    | [] => .error .endInValue
    | c :: rest =>
      if c = '[' then
        match skipSeparators rest with
        | [] => .error .endInList
        | d :: more => if d = ']' then .ok more else skipItems fuel (d :: more)
      else if c = '\x7b' then
        match skipSeparators rest with
        | [] => .error .endInObject
        | d :: more => if d = '\x7d' then .ok more else skipMembers fuel (d :: more)
      else skipScalar c rest

/-- The characters after the items of an array, of which there is at least one to come. -/
def skipItems : (fuel : Nat) → List Char → Except Fault (List Char)
  | 0, _ => .error .tooDeep
  | fuel + 1, cs => do
    let rest ← skipValue fuel cs
    match skipSeparators rest with
    | [] => .error .endInList
    | d :: more =>
      if d = ']' then .ok more
      else if d = ',' then skipItems fuel more
      else .error .expectedListEnd

/-- The characters after the members of an object, of which there is at least one to come. -/
def skipMembers : (fuel : Nat) → List Char → Except Fault (List Char)
  | 0, _ => .error .tooDeep
  | fuel + 1, cs => do
    let ahead ← skipKey cs
    let rest ← skipValue fuel ahead
    match skipSeparators rest with
    | [] => .error .endInObject
    | d :: more =>
      if d = '\x7d' then .ok more
      else if d = ',' then skipMembers fuel more
      else .error .expectedObjectEnd

end

end EntitySql.Json
