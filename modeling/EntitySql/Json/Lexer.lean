import EntitySql.Decimal.Reading
import EntitySql.Json.Basic

/-!
# Reading the words of a document

The words of a document are its keywords, strings and numbers. Each reader
takes the characters from where the word starts and gives the word together
with the characters after it, or the fault that stops it.

- `Json.Fault`: the ways in which a text fails to be a document.
- `Json.readKeyword`, `Json.readString`, `Json.readNumber`.
- `Json.skipString`, `Json.skipNumber`: the same words where only their extent
  matters, so that their value is never in the way.
-/

namespace EntitySql.Json

/-- The ways in which a text fails to be a document. -/
inductive Fault where
  | endInValue
  | endInList
  | endInObject
  | endInString
  | expectedValue
  | expectedKeyword
  | expectedColon
  | expectedListEnd
  | expectedObjectEnd
  | keyNotString
  | trailingComma
  | trailingCharacters
  | invalidNumber
  | numberOutOfRange
  | invalidEscape
  | loneSurrogate
  | unpairedSurrogate
  | controlCharacter
  | tooDeep
deriving DecidableEq, Repr

/-- The wording of a fault. -/
def Fault.message : Fault → String
  | .endInValue => "EOF while parsing a value"
  | .endInList => "EOF while parsing a list"
  | .endInObject => "EOF while parsing an object"
  | .endInString => "EOF while parsing a string"
  | .expectedValue => "expected value"
  | .expectedKeyword => "expected ident"
  | .expectedColon => "expected `:`"
  | .expectedListEnd => "expected `,` or `]`"
  | .expectedObjectEnd => "expected `,` or `\x7d`"
  | .keyNotString => "key must be a string"
  | .trailingComma => "trailing comma"
  | .trailingCharacters => "trailing characters"
  | .invalidNumber => "invalid number"
  | .numberOutOfRange => "number out of range"
  | .invalidEscape => "invalid escape"
  | .loneSurrogate => "lone leading surrogate in hex escape"
  | .unpairedSurrogate => "unexpected end of hex escape"
  | .controlCharacter => "control character (\\u0000-\\u001F) found while parsing a string"
  | .tooDeep => "recursion limit exceeded"

/-- A blank between the words of a document. -/
def isSeparator (c : Char) : Bool := c == ' ' || c == '\t' || c == '\n' || c == '\r'

/-- The characters from the next word on. -/
def skipSeparators (cs : List Char) : List Char := cs.dropWhile isSeparator

/-- Reads the characters of a keyword; gives those after it. -/
def readKeyword : List Char → List Char → Except Fault (List Char)
  | [], cs => .ok cs
  | _ :: _, [] => .error .endInValue
  | k :: ks, c :: cs => if c = k then readKeyword ks cs else .error .expectedKeyword

/-! ## Strings -/

/-- The value of a hexadecimal digit. -/
def hexValue? (c : Char) : Option Nat :=
  if '0' ≤ c ∧ c ≤ '9' then some (c.toNat - '0'.toNat)
  else if 'a' ≤ c ∧ c ≤ 'f' then some (c.toNat - 'a'.toNat + 10)
  else if 'A' ≤ c ∧ c ≤ 'F' then some (c.toNat - 'A'.toNat + 10)
  else none

/-- The character of an escape of one letter. -/
def escapeOf? (c : Char) : Option Char :=
  if c = '"' ∨ c = '\\' ∨ c = '/' then some c
  else if c = 'b' then some '\x08'
  else if c = 'f' then some '\x0c'
  else if c = 'n' then some '\n'
  else if c = 'r' then some '\r'
  else if c = 't' then some '\t'
  else none

/-- Where a reader stands inside a string. -/
inductive StringPoint where
  /-- Between two characters. -/
  | between
  /-- After a backslash. -/
  | escape
  /-- Before the last `left + 1` digits of a hexadecimal escape of which the others give
  `value`; `lead` is the surrogate before it, if any. -/
  | hex (lead : Option Nat) (left : Nat) (value : Nat)
  /-- After a leading surrogate. -/
  | pairBackslash (lead : Nat)
  /-- After a leading surrogate and a backslash. -/
  | pairLetter (lead : Nat)
deriving DecidableEq, Repr

/-- Starts the four digits of a hexadecimal escape, for which four bytes have to be there. -/
def startHex (lead : Option Nat) (rest : List Char) : Except Fault StringPoint :=
  if (String.ofList (rest.take 4)).utf8ByteSize < 4 then .error .endInString
  else .ok (.hex lead 3 0)

/-- A leading surrogate is followed by the escape of a trailing one. -/
def isLeadSurrogate (n : Nat) : Bool := 0xD800 ≤ n && n ≤ 0xDBFF

/-- The second half of a pair of surrogates. -/
def isTrailSurrogate (n : Nat) : Bool := 0xDC00 ≤ n && n ≤ 0xDFFF

/-- What a complete hexadecimal escape gives: a character, or the wait for the second half
of a pair of surrogates. -/
def finishHex (lead : Option Nat) (n : Nat) : Except Fault (Option Char × StringPoint) :=
  match lead with
  | none =>
    if isTrailSurrogate n then .error .loneSurrogate
    else if isLeadSurrogate n then .ok (none, .pairBackslash n)
    else .ok (some (Char.ofNat n), .between)
  | some high =>
    if isTrailSurrogate n then
      .ok (some (Char.ofNat ((high - 0xD800) * 0x400 + (n - 0xDC00) + 0x10000)), .between)
    else .error .loneSurrogate

/-- Reads on in a string from the given point up to its closing quote. -/
def readStringFrom : StringPoint → List Char → Except Fault (List Char × List Char)
  | .between, [] => .error .endInString
  | .between, c :: cs =>
    if c = '"' then .ok ([], cs)
    else if c = '\\' then readStringFrom .escape cs
    else if c.toNat < 0x20 then .error .controlCharacter
    else do
      let (body, rest) ← readStringFrom .between cs
      .ok (c :: body, rest)
  | .escape, [] => .error .endInString
  | .escape, c :: cs =>
    if c = 'u' then do
      let point ← startHex none cs
      readStringFrom point cs
    else match escapeOf? c with
      | some d => do
        let (body, rest) ← readStringFrom .between cs
        .ok (d :: body, rest)
      | none => .error .invalidEscape
  | .hex _ _ _, [] => .error .endInString
  | .hex lead left value, c :: cs =>
    match hexValue? c with
    | none => .error .invalidEscape
    | some d =>
      match left with
      | left + 1 => readStringFrom (.hex lead left (16 * value + d)) cs
      | 0 => do
        let (char, point) ← finishHex lead (16 * value + d)
        let (body, rest) ← readStringFrom point cs
        .ok (char.toList ++ body, rest)
  | .pairBackslash _, [] => .error .endInString
  | .pairBackslash lead, c :: cs =>
    if c = '\\' then readStringFrom (.pairLetter lead) cs else .error .unpairedSurrogate
  | .pairLetter _, [] => .error .endInString
  | .pairLetter lead, c :: cs =>
    if c = 'u' then do
      let point ← startHex (some lead) cs
      readStringFrom point cs
    else .error .unpairedSurrogate

/-- Reads a string after its opening quote. -/
def readString (cs : List Char) : Except Fault (String × List Char) := do
  let (body, rest) ← readStringFrom .between cs
  .ok (String.ofList body, rest)

/-- Finds the end of a string from the given point on, whatever its escapes denote. -/
def skipStringFrom : StringPoint → List Char → Except Fault (List Char)
  | _, [] => .error .endInString
  | .escape, c :: cs =>
    if c = 'u' then do
      let point ← startHex none cs
      skipStringFrom point cs
    else if (escapeOf? c).isSome then skipStringFrom .between cs
    else .error .invalidEscape
  | .hex lead left value, c :: cs =>
    if (hexValue? c).isSome then
      match left with
      | left + 1 => skipStringFrom (.hex lead left value) cs
      | 0 => skipStringFrom .between cs
    else .error .invalidEscape
  | _, c :: cs =>
    if c = '"' then .ok cs
    else if c = '\\' then skipStringFrom .escape cs
    else if c.toNat < 0x20 then .error .controlCharacter
    else skipStringFrom .between cs

/-- The characters after a string of which the opening quote is past. -/
def skipString (cs : List Char) : Except Fault (List Char) := skipStringFrom .between cs

/-! ## Numbers

A number is read as a significand that fits an unsigned 64-bit word and a
power of ten. Digits for which the word has no room are dropped; those before
the point are counted into the power of ten. -/

/-- Digits taken into a significand: how many found room, how many were dropped, and the
characters after them. -/
structure Digits where
  significand : Nat
  taken : Nat
  dropped : Nat
  rest : List Char
deriving Repr

/-- Takes the digits at the front of a text into a significand, up to the first for which the
word has no room; from there on digits are dropped. -/
def takeDigits (significand : Nat) : List Char → Digits
  | [] => ⟨significand, 0, 0, []⟩
  | c :: cs =>
    if c.isDigit then
      let next := pushDigit significand c
      if FitsUnsigned next then
        let more := takeDigits next cs
        { more with taken := more.taken + 1 }
      else
        let tail := c :: cs
        ⟨significand, 0, (tail.takeWhile Char.isDigit).length, tail.dropWhile Char.isDigit⟩
    else ⟨significand, 0, 0, c :: cs⟩

/-- The float `significand * 10 ^ exponent`: the significand as a float, multiplied or divided
by powers of ten of at most `10 ^ 308`, each step rounded. -/
def scaled (significand : Nat) (exponent : Int) : Except Fault Float :=
  let power (n : Nat) := Float.ofScientific 1 false n
  let f := Float.ofNat significand
  if 0 ≤ exponent then
    if exponent ≤ 308 then
      let x := f * power exponent.toNat
      if finiteFloat x then .ok x else .error .numberOutOfRange
    else if significand = 0 then .ok f
    else .error .numberOutOfRange
  else if -308 ≤ exponent then .ok (f / power exponent.natAbs)
  else if -616 ≤ exponent then .ok (f / power 308 / power (exponent.natAbs - 308))
  else .ok (Float.ofNat 0)

/-- The number with the given sign and magnitude. -/
def signedFloat (negative : Bool) (x : Float) : Except Fault JsonNumber :=
  match JsonNumber.ofFloat? (if negative then x.neg else x) with
  | some n => .ok n
  | none => .error .numberOutOfRange

/-- A written power of ten from which on only its sign counts. -/
def powerLimit : Nat := 2147483648

/-- Whether a power of ten is negative, and the characters after its sign. -/
def powerSign : List Char → Bool × List Char
  | '+' :: cs => (false, cs)
  | '-' :: cs => (true, cs)
  | cs => (false, cs)

/-- The float `significand * 10 ^ exponent` times a further power of ten, up or down. -/
def scaledBy (significand : Nat) (exponent : Int) (down : Bool) (power : Nat) :
    Except Fault Float :=
  if powerLimit ≤ power then
    if significand ≠ 0 ∧ ¬ down then .error .numberOutOfRange else .ok (Float.ofNat 0)
  else scaled significand (if down then exponent - power else exponent + power)

/-- Reads a power of ten after its letter, and gives the float. -/
def readPower (negative : Bool) (significand : Nat) (exponent : Int) (cs : List Char) :
    Except Fault (JsonNumber × List Char) :=
  let (down, cs) := powerSign cs
  match cs with
  | [] => .error .endInValue
  | c :: _ =>
    if c.isDigit then do
      let x ← scaledBy significand exponent down (ofDigits (cs.takeWhile Char.isDigit))
      let n ← signedFloat negative x
      .ok (n, cs.dropWhile Char.isDigit)
    else .error .invalidNumber

/-- Reads on after the digits of a number that is no whole number. -/
def readScaled (negative : Bool) (significand : Nat) (exponent : Int) (cs : List Char) :
    Except Fault (JsonNumber × List Char) :=
  match cs with
  | 'e' :: rest => readPower negative significand exponent rest
  | 'E' :: rest => readPower negative significand exponent rest
  | _ => do
    let x ← scaled significand exponent
    let n ← signedFloat negative x
    .ok (n, cs)

/-- Reads on after the point of a number. -/
def readFraction (negative : Bool) (significand : Nat) (exponent : Int) (cs : List Char) :
    Except Fault (JsonNumber × List Char) :=
  let digits := takeDigits significand cs
  if digits.taken = 0 ∧ digits.dropped = 0 then
    .error (if digits.rest.isEmpty then .endInValue else .invalidNumber)
  else readScaled negative digits.significand (exponent - digits.taken) digits.rest

/-- A whole number; what fits no word, and the negative zero, is a float. -/
def wholeNumber (negative : Bool) (significand : Nat) : Except Fault JsonNumber :=
  let n : Int := if negative then -significand else significand
  if h : FitsWord n ∧ ¬ (negative = true ∧ significand = 0) then
    .ok (.int n h.1)
  else signedFloat negative (Float.ofNat significand)

/-- The number of digits that have neither a point nor a power of ten behind them. -/
def plainNumber (negative : Bool) (digits : Digits) : Except Fault JsonNumber :=
  if digits.dropped = 0 then wholeNumber negative digits.significand
  else do
    let x ← scaled digits.significand digits.dropped
    signedFloat negative x

/-- Reads on after the digits before the point. -/
def readAfterWhole (negative : Bool) (digits : Digits) : Except Fault (JsonNumber × List Char) :=
  match digits.rest with
  | '.' :: rest => readFraction negative digits.significand digits.dropped rest
  | 'e' :: rest => readPower negative digits.significand digits.dropped rest
  | 'E' :: rest => readPower negative digits.significand digits.dropped rest
  | rest => do
    let n ← plainNumber negative digits
    .ok (n, rest)

/-- Reads a number after its sign. -/
def readNumber (negative : Bool) : List Char → Except Fault (JsonNumber × List Char)
  | [] => .error .endInValue
  | c :: cs =>
    if c = '0' then
      if (cs.head?.map Char.isDigit).getD false then .error .invalidNumber
      else readAfterWhole negative ⟨0, 1, 0, cs⟩
    else if c.isDigit then readAfterWhole negative (takeDigits 0 (c :: cs))
    else .error .invalidNumber

/-- The characters after a power of ten of which the letter is past. -/
def skipPower (cs : List Char) : Except Fault (List Char) :=
  let cs := match cs with
    | '+' :: rest => rest
    | '-' :: rest => rest
    | _ => cs
  match cs with
  | c :: _ => if c.isDigit then .ok (cs.dropWhile Char.isDigit) else .error .invalidNumber
  | [] => .error .invalidNumber

/-- The characters after an optional power of ten. -/
def skipOptionalPower : List Char → Except Fault (List Char)
  | 'e' :: rest => skipPower rest
  | 'E' :: rest => skipPower rest
  | cs => .ok cs

/-- The characters after an optional fraction and power of ten. -/
def skipAfterWhole : List Char → Except Fault (List Char)
  | '.' :: rest =>
    if (rest.head?.map Char.isDigit).getD false then
      skipOptionalPower (rest.dropWhile Char.isDigit)
    else .error .invalidNumber
  | cs => skipOptionalPower cs

/-- The characters after a number of which the sign is past, however large it is. -/
def skipNumber : List Char → Except Fault (List Char)
  | [] => .error .invalidNumber
  | c :: cs =>
    if c = '0' then
      if (cs.head?.map Char.isDigit).getD false then .error .invalidNumber
      else skipAfterWhole cs
    else if c.isDigit then skipAfterWhole (cs.dropWhile Char.isDigit)
    else .error .invalidNumber

end EntitySql.Json
