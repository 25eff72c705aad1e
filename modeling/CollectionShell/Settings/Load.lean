import CollectionShell.Json.Basic
import CollectionShell.Log.Record
import CollectionShell.Quotation.Basic
import CollectionShell.Settings.Assignment
import CollectionShell.Settings.Integer
import CollectionShell.Text.Uppercase

/-!
# Settings

The settings of the program, read from overrides, the environment and a text of assignments.
`load` takes each field from the first of the three that gives it, else its default, and
lists every field whose value is bad.
-/

namespace CollectionShell

/-- How log records are shown. -/
inductive LogProfile
  | plain
  | rich
  deriving DecidableEq, Repr

/-- The name of a profile. -/
def LogProfile.name : LogProfile → String
  | .plain => "default"
  | .rich => "rich"

/-- The name of an escape mode. -/
def EscapeMode.name : EscapeMode → String
  | .single => "single"
  | .parity => "parity"

/-- The settings of the program. -/
structure Settings where
  /-- How backslashes escape quotes in operations. -/
  escapeMode : EscapeMode := .single
  /-- The indentation of printed JSON. -/
  outputIndent : Nat := 2
  /-- The least severe level that is logged. -/
  logLevel : Log.Level := .warning
  /-- How log records are shown. -/
  logProfile : LogProfile := .plain
  deriving DecidableEq, Repr

namespace Settings

/-- A field of the settings. -/
inductive Field
  | escapeMode
  | logLevel
  | logProfile
  | outputIndent
  deriving DecidableEq, Repr

/-- Every field, in the order of their names. -/
def Field.all : List Field := [.escapeMode, .logLevel, .logProfile, .outputIndent]

/-- The name of a field. -/
def Field.name : Field → String
  | .escapeMode => "escape_mode"
  | .logLevel => "log_level"
  | .logProfile => "log_profile"
  | .outputIndent => "output_indent"

/-! ## Where values come from -/

/-- A value that a source gives for a field. -/
inductive Given
  /-- A text. -/
  | text (t : Text)
  /-- A truth value. -/
  | bool (b : Bool)
  /-- An integer. -/
  | int (n : Int)
  /-- A double. -/
  | double (x : Double)
  /-- Anything else. -/
  | other

/-- The places that settings come from. -/
structure Sources where
  /-- Fields by name, which win over all others. The case of a name does not matter, and the
  first of a name wins. -/
  overrides : List (Text × Given) := []
  /-- The variables of the environment. -/
  environment : List (Text × Text) := []
  /-- A text of assignments. -/
  dotenv : Text := []

/-- A letter of ASCII in lower case. -/
def lower (t : Text) : Text := t.map Char.toLower

/-- The variable of a field, in lower case. -/
def Field.variableName (f : Field) : Text := Text.ofString ("mongosh_clone_" ++ f.name)

/-- The value of the last variable for a field; the case of its name does not matter. -/
def lookup (f : Field) (vs : List Assignment) : Option Given :=
  ((vs.reverse.find? fun v => lower v.name == f.variableName).bind (·.value)).map .text

/-- The value that the overrides give a field. -/
def Sources.override? (s : Sources) (f : Field) : Option Given :=
  (s.overrides.find? fun o => lower o.1 == f.name.toList).map (·.2)

/-- The value of a field in the first source that gives it. -/
def Sources.given? (s : Sources) (f : Field) : Option Given :=
  (s.override? f).or
    ((lookup f (s.environment.map fun v => ⟨v.1, some v.2⟩)).or
      (lookup f (Assignment.ofText s.environment s.dotenv)))

/-! ## What is wrong with values -/

/-- What is wrong with a field's value. -/
inductive Defect
  /-- It is not among the texts that the field may be. -/
  | notAmong (choices : List String)
  /-- It is a text or a number, but no integer. -/
  | integer (fault : IntegerFault)
  /-- It is neither a text nor a number. -/
  | notInteger
  /-- It is negative. -/
  | negative
  /-- It is no text. -/
  | notText
  /-- It is no level. -/
  | notLevel
  deriving DecidableEq, Repr

/-- The code of a defect. -/
def Defect.code : Defect → String
  | .notAmong _ => "literal_error"
  | .integer .notWritten => "int_parsing"
  | .integer .outOfRange => "int_parsing_size"
  | .integer .fraction => "int_from_float"
  | .integer .notFinite => "finite_number"
  | .notInteger => "int_type"
  | .negative => "greater_than_equal"
  | .notText => "string_type"
  | .notLevel => "value_error"

/-- The wording of a defect. -/
def Defect.message : Defect → String
  | .notAmong choices =>
    "Input should be " ++ " or ".intercalate (choices.map fun c => "'" ++ c ++ "'")
  | .integer .notWritten =>
    "Input should be a valid integer, unable to parse string as an integer"
  | .integer .outOfRange =>
    "Unable to parse input string as an integer, exceeded maximum size"
  | .integer .fraction => "Input should be a valid integer, got a number with a fractional part"
  | .integer .notFinite => "Input should be a finite number"
  | .notInteger => "Input should be a valid integer"
  | .negative => "Input should be greater than or equal to 0"
  | .notText => "Input should be a valid string"
  | .notLevel =>
    "Value error, log_level must be one of " ++ ", ".intercalate (Log.Level.all.map (·.name))

/-- A field with a bad value. -/
structure Problem where
  /-- The field. -/
  field : Field
  /-- What is wrong with its value. -/
  defect : Defect
  deriving DecidableEq, Repr

/-- How many problems there are, in words. -/
def problemSummary (problems : List Problem) : String :=
  "Invalid configuration: " ++ toString problems.length ++
    (if problems.length = 1 then " validation error" else " validation errors") ++ " for Settings"

/-! ## Reading values -/

/-- The choice that a value names. -/
def readChoice {α : Type} (choices : List (String × α)) (g : Given) : Except Defect α :=
  let found := match g with
    | .text t => choices.lookup (String.ofList t)
    | _ => none
  match found with
  | some a => .ok a
  | none => .error (.notAmong (choices.map (·.1)))

/-- The integer that a value is; a truth value counts as one or zero. -/
def readInteger : Given → Except Defect Int
  | .text t => (Integer.ofText t).mapError .integer
  | .bool b => .ok (if b then 1 else 0)
  | .int n => .ok n
  | .double x => (Integer.ofDouble x).mapError .integer
  | .other => .error .notInteger

/-- The natural number that a value is. -/
def readIndent (g : Given) : Except Defect Nat :=
  match readInteger g with
  | .error e => .error e
  | .ok n => if n < 0 then .error .negative else .ok n.toNat

/-- The level that a text names in either case. -/
def readLevel : Given → Except Defect Log.Level
  | .text t => ((Log.Level.ofName? (Text.upper t)).map .ok).getD (.error .notLevel)
  | _ => .error .notText

/-- The escape modes by name. -/
def escapeModes : List (String × EscapeMode) :=
  [EscapeMode.single, EscapeMode.parity].map fun m => (m.name, m)

/-- The profiles by name. -/
def logProfiles : List (String × LogProfile) :=
  [LogProfile.plain, LogProfile.rich].map fun p => (p.name, p)

/-- The value of a field, read from the sources, and the problem with it. -/
def readField {α : Type} (s : Sources) (f : Field) (read : Given → Except Defect α) (default : α) :
    α × List Problem :=
  match s.given? f with
  | none => (default, [])
  | some g => match read g with
    | .ok a => (a, [])
    | .error d => (default, [⟨f, d⟩])

/-- The settings of the sources, or every problem with them, in the order of the fields'
names. -/
def load (s : Sources) : Except (List Problem) Settings :=
  let defaults : Settings := {}
  let escapeMode := readField s .escapeMode (readChoice escapeModes) defaults.escapeMode
  let logLevel := readField s .logLevel readLevel defaults.logLevel
  let logProfile := readField s .logProfile (readChoice logProfiles) defaults.logProfile
  let outputIndent := readField s .outputIndent readIndent defaults.outputIndent
  match escapeMode.2 ++ logLevel.2 ++ logProfile.2 ++ outputIndent.2 with
  | [] => .ok ⟨escapeMode.1, outputIndent.1, logLevel.1, logProfile.1⟩
  | problems => .error problems

end Settings

end CollectionShell
