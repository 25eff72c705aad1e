import CollectionShell.Console.Markup
import CollectionShell.Console.Table
import CollectionShell.Json.Print
import CollectionShell.Log.Sink
import CollectionShell.Operation.Parse
import CollectionShell.Settings.Load

/-!
# The command line

Options for the program stand in front of the command, which is `parse` or `methods`. The
settings are loaded once the command is known and before its own arguments are read, and the
log is configured by them. `parse` takes words, which make one operation, and may take an
escape mode in front of, between or behind them; two hyphens end the options. What is printed has
no colours, and its lines are as long as they need be.
-/

namespace CollectionShell.Console

open Operation (Call ParseError)

/-- How the program ends. -/
inductive Outcome
  /-- The arguments are no use of the program. -/
  | misused
  /-- A text is printed, and the program ends with an exit code. -/
  | ended (code : Nat) (output : Text)
  deriving DecidableEq, Repr

/-- What running the program gives. -/
structure Report where
  /-- How it ends. -/
  outcome : Outcome
  /-- The log records that reach its sink. -/
  records : List Log.Record := []
  deriving DecidableEq, Repr

/-- The command that the arguments name. -/
inductive CommandName
  | parse
  | methods
  deriving DecidableEq, Repr

/-- The arguments of `parse`. -/
structure ParseArguments where
  /-- The words of the operation. -/
  words : List Text
  /-- The last escape mode that is given. -/
  escapeMode : Option Text
  deriving DecidableEq, Repr

/-! ## Reading arguments -/

/-- The argument starts like an option. -/
def looksLikeOption (t : Text) : Bool := t.head? == some '-' && t != ['-']

/-- The argument asks for a verbose log. -/
def isVerbose (t : Text) : Bool :=
  t == Text.ofString "--verbose" ||
    (looksLikeOption t && (t.drop 1).all (· == 'v'))

/-- Whether a verbose log is asked for in front of the command, and the arguments from the
command on. -/
def programOptions : List Text → Option (Bool × List Text)
  | [] => some (false, [])
  | a :: rest =>
    if a = ['-', '-'] then some (false, rest)
    else if isVerbose a then (programOptions rest).map fun r => (true, r.2)
    else if looksLikeOption a then none
    else some (false, a :: rest)

/-- The command of a name. -/
def commandNamed? (t : Text) : Option CommandName :=
  if t = Text.ofString "parse" then some .parse
  else if t = Text.ofString "methods" then some .methods
  else none

/-- The option for the escape mode. -/
def escapeModeOption : Text := Text.ofString "--escape-mode"

/-- The value that is attached to the option for the escape mode by an equals sign. -/
def attachedMode? (a : Text) : Option Text :=
  let stem := escapeModeOption ++ ['=']
  if stem.isPrefixOf a then some (a.drop stem.length) else none

/-- The words and the escape mode among the arguments of `parse`. -/
def parseArguments (words : List Text) (mode : Option Text) : List Text → Option ParseArguments
  | [] => some ⟨words.reverse, mode⟩
  | a :: rest =>
    if a = ['-', '-'] then some ⟨words.reverse ++ rest, mode⟩
    else if a = escapeModeOption then
      match rest with
      | [] => none
      | m :: rest => parseArguments words (some m) rest
    else if looksLikeOption a then
      match attachedMode? a with
      | none => none
      | some m => parseArguments words (some m) rest
    else parseArguments (a :: words) mode rest

/-! ## Running commands -/

/-- An error message on a line. -/
def errorLine (message : Text) : Text := Text.ofString "Error: " ++ printed message ++ ['\n']

/-- The outcome of settings with problems : only how many they are is told. -/
def badSettings (problems : List Settings.Problem) : Outcome :=
  .ended 1 (Text.ofString ("Error: " ++ Settings.problemSummary problems))

/-- What is printed if no operation is given. -/
def noOperation : Text :=
  errorLine (Text.ofString "Please provide a database operation") ++
    Text.ofString "Example: mongosh-clone parse movies.find(\x7b\"year\": 1999\x7d)\n"

/-- Prints a call. A call whose strings are not all made of characters cannot be printed. -/
def printCall (indent : Nat) (c : Call) : Outcome :=
  if c.toJson.isWritable then .ended 0 (Json.indented indent 0 c.toJson ++ ['\n'])
  else .ended 1 []

/-- The log record of a parse that failed. -/
def failureRecord (e : ParseError) : Log.Record := ⟨.debug, "cli.parse.error kind=" ++ e.name⟩

/-- Runs `parse` with settings. -/
def runParse (log : Log) (settings : Settings) (words : List Text) : Report :=
  if words = [] then ⟨.ended 1 noOperation, []⟩
  else
    let run := Operation.parseRun settings.escapeMode (Text.joinWith [' '] words)
    match run.outcome with
    | .error e =>
      ⟨.ended 1 (errorLine e.message.toList), log.delivered (run.records ++ [failureRecord e])⟩
    | .ok c => ⟨printCall settings.outputIndent c, log.delivered run.records⟩

/-- Runs a command with its arguments. -/
def runCommand (log : Log) (sources : Settings.Sources) (arguments : List Text) :
    CommandName → Report
  | .methods =>
    match parseArguments [] none arguments with
    | some ⟨[], none⟩ => ⟨.ended 0 methodTable.text, []⟩
    | _ => ⟨.misused, []⟩
  | .parse =>
    match parseArguments [] none arguments with
    | none => ⟨.misused, []⟩
    | some a =>
      let overrides := match a.escapeMode with
        | none => []
        | some m => [(Settings.Field.escapeMode.name.toList, Settings.Given.text m)]
      match Settings.load { sources with overrides := overrides } with
      | .error problems => ⟨badSettings problems, []⟩
      | .ok settings => runParse log settings a.words

/-- The log that the settings ask for; a verbose one takes every record of a parse. -/
def logFor (verbose : Bool) (settings : Settings) : Log :=
  let level := if verbose then Log.Level.debug else settings.logLevel
  (Log.silent.configure level.name.toList settings.logProfile.name.toList).2

/-- Runs the program. -/
def run (sources : Settings.Sources) (arguments : List Text) : Report :=
  match programOptions arguments with
  | none => ⟨.misused, []⟩
  | some (_, []) => ⟨.misused, []⟩
  | some (verbose, name :: rest) =>
    match commandNamed? name with
    | none => ⟨.misused, []⟩
    | some command =>
      match Settings.load sources with
      | .error problems => ⟨badSettings problems, []⟩
      | .ok settings => runCommand (logFor verbose settings) sources rest command

end CollectionShell.Console
