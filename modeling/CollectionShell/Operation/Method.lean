import CollectionShell.Json.Basic

/-!
# Methods

The methods of a collection, with what each takes : how many arguments it needs, and the
name and the accepted kinds of each parameter. `Method.ofName?_eq_some` says that a method
is found by its name and by nothing else.
-/

namespace CollectionShell

/-- A parameter of a method. -/
structure Parameter where
  /-- Its name. -/
  name : String
  /-- The kinds of values it accepts. -/
  accepts : List Json.Kind
  deriving DecidableEq, Repr

namespace Parameter

/-- The document to insert. -/
def document : Parameter := ⟨"document", [.mapping]⟩

/-- The documents to insert. -/
def documents : Parameter := ⟨"documents", [.sequence]⟩

/-- What selects documents. -/
def filter : Parameter := ⟨"filter", [.mapping]⟩

/-- What selects parts of documents. -/
def projection : Parameter := ⟨"projection", [.mapping]⟩

/-- A change, or a row of changes. -/
def update : Parameter := ⟨"update", [.mapping, .sequence]⟩

/-- The options of a change. -/
def options : Parameter := ⟨"options", [.mapping]⟩

/-- The words for the accepted kinds. -/
def expected (p : Parameter) : String := " or ".intercalate (p.accepts.map (·.word))

/-- A parameter takes a value : one of an accepted kind, or null where the argument may be
missing. -/
def takes (p : Parameter) (optional : Bool) (v : Json) : Bool :=
  (optional && v.kind == .null) || p.accepts.contains v.kind

end Parameter

/-- A method of a collection. -/
inductive Method
  | insertOne
  | insertMany
  | find
  | findOne
  | updateOne
  | updateMany
  | deleteOne
  | deleteMany
  | countDocuments
  | drop
  deriving DecidableEq, Repr

namespace Method

/-- Every method, in the order of the table. -/
def all : List Method :=
  [.insertOne, .insertMany, .find, .findOne, .updateOne, .updateMany, .deleteOne, .deleteMany,
    .countDocuments, .drop]

/-- The name of a method. -/
def name : Method → String
  | .insertOne => "insertOne"
  | .insertMany => "insertMany"
  | .find => "find"
  | .findOne => "findOne"
  | .updateOne => "updateOne"
  | .updateMany => "updateMany"
  | .deleteOne => "deleteOne"
  | .deleteMany => "deleteMany"
  | .countDocuments => "countDocuments"
  | .drop => "drop"

/-- The method with a name, if there is one. -/
def ofName? (t : Text) : Option Method := all.find? fun m => m.name.toList == t

/-- The parameters of a method, in order. -/
def parameters : Method → List Parameter
  | .insertOne => [.document]
  | .insertMany => [.documents]
  | .find => [.filter, .projection]
  | .findOne => [.filter, .projection]
  | .updateOne => [.filter, .update, .options]
  | .updateMany => [.filter, .update, .options]
  | .deleteOne => [.filter]
  | .deleteMany => [.filter]
  | .countDocuments => [.filter]
  | .drop => []

/-- The least number of arguments of a method. -/
def required : Method → Nat
  | .insertOne => 1
  | .insertMany => 1
  | .find => 0
  | .findOne => 0
  | .updateOne => 2
  | .updateMany => 2
  | .deleteOne => 1
  | .deleteMany => 1
  | .countDocuments => 0
  | .drop => 0

/-- The greatest number of arguments of a method : one for each parameter. -/
def limit (m : Method) : Nat := m.parameters.length

/-- How many arguments a method takes, as a number or a range. -/
def arity (m : Method) : String :=
  if m.required = m.limit then toString m.required
  else toString m.required ++ "-" ++ toString m.limit

/-- The names of all methods. -/
def names : List String := all.map name

theorem ofName?_name (m : Method) : ofName? m.name.toList = some m := by
  cases m <;> decide

/-- A method is found by its name only. -/
theorem ofName?_eq_some {t : Text} {m : Method} : ofName? t = some m ↔ t = m.name.toList := by
  refine ⟨fun h => ?_, fun h => h ▸ ofName?_name m⟩
  have := List.find?_some h
  exact (eq_of_beq this).symm

end Method

end CollectionShell
