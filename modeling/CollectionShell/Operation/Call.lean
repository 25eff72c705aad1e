import CollectionShell.Json.Compare
import CollectionShell.Json.Inspect
import CollectionShell.Operation.Error

/-!
# Calls

A call names a collection and a method and has arguments. `validate` checks one against the
table of methods, in a fixed order : both names, the method, the number of arguments, their
kinds. A null argument behind the required ones stands for a missing one.
-/

namespace CollectionShell.Operation

/-- A call of a collection's method. -/
structure Call where
  /-- The name of the collection. -/
  collection : Text
  /-- The name of the method. -/
  method : Text
  /-- The arguments, in order. -/
  arguments : List Json

namespace Call

/-- The call as a JSON object. -/
def toJson (c : Call) : Json :=
  .object [(CodePoint.ofString "collection", Json.ofText c.collection),
    (CodePoint.ofString "method", Json.ofText c.method),
    (CodePoint.ofString "arguments", .array c.arguments)]

/-- The call as the log shows it. -/
def inspect (c : Call) : Text :=
  Text.ofString "ParsedCall(collection=" ++ Text.quoted c.collection ++
    Text.ofString ", method=" ++ Text.quoted c.method ++
    Text.ofString ", arguments=" ++ Json.inspectRow c.arguments ++ [')']

/-- Two calls have the same names and arguments that are worth the same. -/
def same (a b : Call) : Bool :=
  a.collection == b.collection && a.method == b.method &&
    Json.sameElements a.arguments b.arguments

end Call

/-! ## Identifiers -/

/-- A letter or an underscore, of ASCII. -/
def startsIdentifier (c : Char) : Bool := c.isAlpha || c == '_'

/-- A letter, a digit, an underscore, a point or a hyphen, of ASCII. -/
def continuesIdentifier (c : Char) : Bool := c.isAlphanum || c == '_' || c == '.' || c == '-'

/-- The text is an identifier. -/
def isIdentifier : Text → Bool
  | [] => false
  | c :: rest => startsIdentifier c && rest.all continuesIdentifier

/-! ## Validation -/

/-- The first argument that its parameter does not take, with its place, its parameter and
its kind. `index` is the place of the first argument, and arguments from place `required` on
may be missing. -/
def firstMismatch? (required index : Nat) :
    List Parameter → List Json → Option (Nat × Parameter × Json.Kind)
  | p :: ps, v :: vs =>
    if p.takes (required ≤ index) v then firstMismatch? required (index + 1) ps vs
    else some (index, p, v.kind)
  | _, _ => none

/-- The method with a name, or the reason why there is none. -/
def methodNamed (method : Text) : Except ParseError Method :=
  match Method.ofName? method with
  | none => .error (.unsupported method)
  | some m => .ok m

/-- The method that a call means, or the first reason why it means none. -/
def validate (collection method : Text) (arguments : List Json) : Except ParseError Method :=
  if ¬isIdentifier collection then .error (.identifier .collection collection)
  else if ¬isIdentifier method then .error (.identifier .method method)
  else match methodNamed method with
    | .error e => .error e
    | .ok m =>
      if arguments.length < m.required then
        .error (.arity m (.atLeast m.required) arguments.length)
      else if m.limit < arguments.length then
        .error (.arity m (.atMost m.limit) arguments.length)
      else match firstMismatch? m.required 0 m.parameters arguments with
        | some (index, p, kind) => .error (.argumentKind m index p kind)
        | none => .ok m

end CollectionShell.Operation
