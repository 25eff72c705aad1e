import CollectionShell.Double.Basic
import CollectionShell.Text.CodePoint

/-!
# JSON values

A JSON value keeps apart integers, which are unbounded, and doubles. An object is a list of
members in order; `Json.memberwise` builds one from members read in order, where a repeated
name keeps its first place and takes its last value.
-/

namespace CollectionShell

/-- A JSON value. -/
inductive Json
  /-- The null value. -/
  | null
  /-- A truth value. -/
  | bool (b : Bool)
  /-- A number written without a fraction and an exponent. -/
  | int (n : Int)
  /-- A number written with a fraction or an exponent. -/
  | float (x : Double)
  /-- A string. -/
  | string (points : List CodePoint)
  /-- An array. -/
  | array (elements : List Json)
  /-- An object, its members in order. -/
  | object (members : List (List CodePoint × Json))

namespace Json

/-- A name of an object's member. -/
abbrev Name := List CodePoint

/-- The string value of a text. -/
def ofText (t : Text) : Json := .string (CodePoint.ofText t)

/-- The kinds of JSON values that messages tell apart. -/
inductive Kind
  | null
  | boolean
  | number
  | string
  | sequence
  | mapping
  deriving DecidableEq, Repr

/-- The word for a kind in messages. -/
def Kind.word : Kind → String
  | .null => "null"
  | .boolean => "boolean"
  | .number => "number"
  | .string => "string"
  | .sequence => "sequence"
  | .mapping => "mapping"

/-- The kind of a value. -/
def kind : Json → Kind
  | .null => .null
  | .bool _ => .boolean
  | .int _ => .number
  | .float _ => .number
  | .string _ => .string
  | .array _ => .sequence
  | .object _ => .mapping

/-! ## Members -/

/-- The members with `name` set to `value` : at its place if it is there, else at the end. -/
def setMember (name : Name) (value : Json) : List (Name × Json) → List (Name × Json)
  | [] => [(name, value)]
  | (n, v) :: rest =>
    if n = name then (n, value) :: rest else (n, v) :: setMember name value rest

/-- The members that result from reading `pairs` in order. -/
def memberwise (pairs : List (Name × Json)) : List (Name × Json) :=
  pairs.foldl (fun members p => setMember p.1 p.2 members) []

end Json

end CollectionShell
