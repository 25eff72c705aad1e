import CollectionShell.Console.CommandLine

/-!
# The program

Runs the command line on the arguments and the environment of the process and on the assignments
of the working directory. Log records and the note on misuse go to the error stream, without the
time, the place and the colours that a profile may give them.
-/

namespace CollectionShell

/-- The variables of the process that settings may come from. -/
def processVariables : IO (List (Text × Text)) :=
  Settings.Field.all.filterMapM fun f => do
    let name := Text.upper f.variableName
    let value ← IO.getEnv (String.ofList name)
    return value.map fun v => (name, v.toList)

/-- The text of the assignments in the working directory, empty if there is no such file. -/
def assignmentsText : IO Text := do
  try
    let text ← IO.FS.readFile ".env"
    return text.toList
  catch
    | .noFileOrDirectory .. | .inappropriateType .. => return []
    | e => throw e

end CollectionShell

open CollectionShell in
/-- Runs the program and returns its exit code. -/
def main (arguments : List String) : IO UInt32 := do
  let environment ← processVariables
  let dotenv ← assignmentsText
  let report := Console.run { environment, dotenv } (arguments.map String.toList)
  for r in report.records do
    IO.eprintln (r.level.name ++ " | " ++ r.message)
  match report.outcome with
  | .misused =>
    IO.eprintln "Usage: mongosh-clone [-v] (parse [--escape-mode MODE] WORDS... | methods)"
    return 2
  | .ended code output =>
    IO.print (String.ofList output)
    return code.toUInt32
