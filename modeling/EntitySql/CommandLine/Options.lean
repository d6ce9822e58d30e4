import EntitySql.Decimal.Reading

/-!
# The words of a command line

The program is called with the definition of an entity, a dialect and what to
show: the statement of a search or of a count, the condition of a filter, or
the statement that creates the table. Options are written `--name value` or
`--name=value`; those for the definition and the dialect may stand on either
side of the word that says what to show, and the one after it counts.

- `Request`: what to show.
- `Invocation.parse?`: the meaning of a command line.
-/

namespace EntitySql

/-- What to show. -/
inductive Request where
  /-- The statement of a search. -/
  | find (filter order : Option String) (limit page : Option Nat)
  /-- The statement of a count. -/
  | count (filter : Option String)
  /-- The condition of a filter. -/
  | condition (filter : String)
  /-- The statement that creates the table. -/
  | schema
deriving DecidableEq, Repr

/-- The meaning of a command line. -/
structure Invocation where
  /-- The file with the definition of the entity. -/
  file : Option String
  dialect : String
  request : Request
deriving DecidableEq, Repr

/-- A word of a command line. -/
inductive CommandWord where
  | option (name value : String)
  | plain (text : String)
deriving DecidableEq, Repr

namespace CommandWord

/-- The name of an option and the value written into the same word. -/
def option? (arg : String) : Option (String × Option String) :=
  match arg.toList with
  | '-' :: '-' :: c :: cs =>
    let body := c :: cs
    let name := body.takeWhile (· != '=')
    let value := match body.dropWhile (· != '=') with
      | [] => none
      | _ :: value => some (String.ofList value)
    some (String.ofList name, value)
  | _ => none

/-- A word that cannot be the value of an option before it. -/
def startsOption (arg : String) : Bool :=
  match arg.toList with
  | '-' :: _ :: _ => true
  | _ => false

/-- The words of a command line. Every option has a value. -/
def readAll : List String → Option (List CommandWord)
  | [] => some []
  | arg :: rest =>
    match option? arg with
    | some (name, some value) => (readAll rest).map (.option name value :: ·)
    | some (name, none) =>
      match rest with
      | [] => none
      | value :: more =>
        if startsOption value then none else (readAll more).map (.option name value :: ·)
    | none =>
      if arg = "--" then (if rest.isEmpty then some [] else none)
      else if startsOption arg then none
      else (readAll rest).map (.plain arg :: ·)

end CommandWord

/-- Options with their values. -/
abbrev CommandOptions := List (String × String)

namespace CommandOptions

/-- The words are options with allowed names, none of them twice. -/
def collect? (allowed : List String) : List CommandWord → Option CommandOptions
  | [] => some []
  | .plain _ :: _ => none
  | .option name value :: rest => do
    let others ← collect? allowed rest
    if allowed.contains name && !others.any (fun o => o.1 == name) then
      some ((name, value) :: others)
    else none

/-- The value of an option. -/
def value? (options : CommandOptions) (name : String) : Option String :=
  (options.find? fun o => o.1 == name).map Prod.snd

/-- The value of an option that is a count; nothing if there is no such option, and no meaning if
the value is no count. -/
def number? (options : CommandOptions) (name : String) : Option (Option Nat) :=
  match value? options name with
  | none => some none
  | some text =>
    match readNat? text.toList with
    | some n => if FitsUnsigned n then some (some n) else none
    | none => none

end CommandOptions

/-- The options that may stand on either side. -/
def sharedOptions : List String := ["entity", "dialect"]

/-- The options of what to show. -/
def Request.options? (name : String) : Option (List String) :=
  if name = "find" then some ["filter", "sort", "limit", "page"]
  else if name = "count" ∨ name = "where" then some ["filter"]
  else if name = "schema" then some []
  else none

/-- What to show, by name, with its options. -/
def Request.ofOptions? (name : String) (options : CommandOptions) : Option Request :=
  if name = "find" then do
    let limit ← CommandOptions.number? options "limit"
    let page ← CommandOptions.number? options "page"
    some (.find (CommandOptions.value? options "filter") (CommandOptions.value? options "sort")
      limit page)
  else if name = "count" then some (.count (CommandOptions.value? options "filter"))
  else if name = "where" then (CommandOptions.value? options "filter").map .condition
  else some .schema

namespace Invocation

/-- The dialect of a command line that names none. -/
def defaultDialect : String := "sqlite"

/-- The words before and after the first one that is no option, with that one. -/
def atRequest? : List CommandWord → Option (List CommandWord × String × List CommandWord)
  | [] => none
  | .plain name :: rest => some ([], name, rest)
  | word :: rest => (atRequest? rest).map fun (before, name, after) => (word :: before, name, after)

/-- The meaning of a command line; none if it is not written as it should be. -/
def parse? (args : List String) : Option Invocation := do
  let words ← CommandWord.readAll args
  let (before, name, after) ← atRequest? words
  let allowed ← Request.options? name
  let outer ← CommandOptions.collect? sharedOptions before
  let inner ← CommandOptions.collect? (sharedOptions ++ allowed) after
  let request ← Request.ofOptions? name inner
  let all := inner ++ outer
  if all.any fun o => o.1 == "entity" && o.2.isEmpty then none
  else
    some
      { file := CommandOptions.value? all "entity"
        dialect := (CommandOptions.value? all "dialect").getD defaultDialect
        request }

end Invocation

end EntitySql
