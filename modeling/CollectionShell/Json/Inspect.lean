import CollectionShell.Double.Layout
import CollectionShell.Json.Basic
import CollectionShell.Text.Quoted

/-!
# How the log shows values

Log records and summaries show a value in a form of their own : capitalised words for null
and the truth values, strings as quoted texts, a blank behind every comma and colon, and a
row of arguments between parentheses, with a comma behind a single one. A failure names the type
of a value (`typeName`).
-/

namespace CollectionShell.Json

mutual

/-- A value as the log shows it. -/
def inspect : Json → Text
  | .null => Text.ofString "None"
  | .bool b => Text.ofString (if b then "True" else "False")
  | .int n => Text.ofInt n
  | .float x => x.write Decimal.shown
  | .string s => Text.quotedPoints s
  | .array xs => '[' :: inspectElements xs ++ [']']
  | .object ms => '\x7b' :: inspectMembers ms ++ ['\x7d']

/-- Elements with commas between them. -/
def inspectElements : List Json → Text
  | [] => []
  | [x] => inspect x
  | x :: y :: xs => inspect x ++ ',' :: ' ' :: inspectElements (y :: xs)

/-- Members with commas between them. -/
def inspectMembers : List (Name × Json) → Text
  | [] => []
  | [(k, v)] => Text.quotedPoints k ++ ':' :: ' ' :: inspect v
  | (k, v) :: m :: ms =>
    Text.quotedPoints k ++ ':' :: ' ' :: inspect v ++ ',' :: ' ' :: inspectMembers (m :: ms)

end

/-- A row of arguments as the log shows it. -/
def inspectRow (vs : List Json) : Text :=
  match vs with
  | [v] => '(' :: inspect v ++ [',', ')']
  | _ => '(' :: inspectElements vs ++ [')']

/-- A value inside a sentence : a string as it is, any other value as the log shows it. -/
def plain : Json → List CodePoint
  | .string s => s
  | v => CodePoint.ofText (inspect v)

/-- The name of a value's type as a failure to use it says. -/
def typeName : Json → String
  | .null => "NoneType"
  | .bool _ => "bool"
  | .int _ => "int"
  | .float _ => "float"
  | .string _ => "str"
  | .array _ => "list"
  | .object _ => "dict"

end CollectionShell.Json
