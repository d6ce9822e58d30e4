import EntitySql.CommandLine.Program

/-!
# The command

Reads the file that the command line names, and prints what `Program.run`
says.
-/

open EntitySql

/-- Why a file cannot be read. -/
def readingFault : IO.Error → String
  | .noFileOrDirectory _ code _ => s!"No such file or directory (os error {code})"
  | .permissionDenied _ code _ => s!"Permission denied (os error {code})"
  | .inappropriateType _ code _ => s!"Is a directory (os error {code})"
  | e => toString e

/-- The text of a file, or why it cannot be read. -/
def readText (file : String) : IO (Except String String) := do
  try
    return .ok (← IO.FS.readFile file)
  catch e => return .error (readingFault e)

/-- The file that a command line names, read. -/
def readNamed (args : List String) : IO (Except String String) :=
  match (Invocation.parse? args).bind Invocation.file with
  | some file => readText file
  | none => return .error ""

def main (args : List String) : IO UInt32 := do
  let text ← readNamed args
  let outcome := Program.run args fun _ => text
  IO.print outcome.stdout
  IO.eprint outcome.stderr
  return UInt32.ofNat outcome.code
