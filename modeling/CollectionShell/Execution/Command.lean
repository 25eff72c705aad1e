import CollectionShell.Json.Inspect
import CollectionShell.Operation.Call

/-!
# Commands

A command is what a collection is told to do, with every missing argument filled in. The
type of its reply depends on it (`Command.Reply`). `Command.ofCall?` turns the arguments of
a method into its command : a missing or null filter selects everything, a missing or null
projection is null, and missing or null options are none. Whatever obeys commands is a
`Backend`, of which only its replies and failures are known.
-/

namespace CollectionShell

/-- How many of the selected documents a change is for. -/
inductive Extent
  | one
  | many
  deriving DecidableEq, Repr

/-- What a collection is told to do. -/
inductive Command
  /-- Insert a document. -/
  | insertOne (document : Json)
  /-- Insert documents. -/
  | insertMany (documents : Json)
  /-- Yield the selected documents. -/
  | find (filter projection : Json)
  /-- Yield one selected document. -/
  | findOne (filter projection : Json)
  /-- Change selected documents. -/
  | update (extent : Extent) (filter change : Json) (options : List (Json.Name × Json))
  /-- Delete selected documents. -/
  | delete (extent : Extent) (filter : Json)
  /-- Count the selected documents. -/
  | countDocuments (filter : Json)
  /-- Drop the collection. -/
  | drop

/-- Documents that are yielded one by one, and a failure behind the last one. -/
structure Cursor where
  /-- The documents, in order. -/
  documents : List Json
  /-- What fails once all are yielded. -/
  failure : Option Text

/-- All documents of a cursor, or its failure. -/
def Cursor.drain (c : Cursor) : Except Text (List Json) :=
  match c.failure with
  | none => .ok c.documents
  | some message => .error message

/-- What a change reports. -/
structure UpdateReport where
  /-- How many documents were selected. -/
  matched : Json
  /-- How many documents were changed. -/
  modified : Json
  /-- The identifier of a document that was inserted instead. -/
  upserted : Json

namespace Command

/-- The type of a command's reply. -/
def Reply : Command → Type
  | .insertOne _ => Json
  | .insertMany _ => List Json
  | .find _ _ => Cursor
  | .findOne _ _ => Json
  | .update _ _ _ _ => UpdateReport
  | .delete _ _ => Json
  | .countDocuments _ => Json
  | .drop => Unit

/-- The name under which a collection knows a command. -/
def name : Command → String
  | .insertOne _ => "insert_one"
  | .insertMany _ => "insert_many"
  | .find _ _ => "find"
  | .findOne _ _ => "find_one"
  | .update .one _ _ _ => "update_one"
  | .update .many _ _ _ => "update_many"
  | .delete .one _ => "delete_one"
  | .delete .many _ => "delete_many"
  | .countDocuments _ => "count_documents"
  | .drop => "drop"

/-- The arguments of a command, in order. -/
def arguments : Command → List Json
  | .insertOne document => [document]
  | .insertMany documents => [documents]
  | .find filter projection => [filter, projection]
  | .findOne filter projection => [filter, projection]
  | .update _ filter change _ => [filter, change]
  | .delete _ filter => [filter]
  | .countDocuments filter => [filter]
  | .drop => []

/-- The options of a command. -/
def options : Command → List (Json.Name × Json)
  | .update _ _ _ options => options
  | _ => []

/-! ## The command of a call -/

/-- Why arguments make no command. -/
inductive Refusal
  /-- A required argument is missing. -/
  | missing
  /-- The options are no object but of another type. No valid call has such options. -/
  | badOptions (typeName : String)
  deriving DecidableEq, Repr

/-- The wording of a refusal, for bad options without the name of the backend's function that
stands in front. -/
def Refusal.message : Refusal → String
  | .missing => "tuple index out of range"
  | .badOptions typeName => "argument after ** must be a mapping, not " ++ typeName

/-- The argument at a place. -/
def required (vs : List Json) (index : Nat) : Except Refusal Json :=
  match vs[index]? with
  | some v => .ok v
  | none => .error .missing

/-- The argument at a place, and `default` if it is missing or null. -/
def optional (vs : List Json) (index : Nat) (default : Json) : Json :=
  match vs[index]? with
  | none => default
  | some .null => default
  | some v => v

/-- The members of the options at a place. -/
def optionsAt (vs : List Json) (index : Nat) : Except Refusal (List (Json.Name × Json)) :=
  match optional vs index (.object []) with
  | .object ms => .ok ms
  | v => .error (.badOptions v.typeName)

/-- The command to change documents. -/
def updateOf (extent : Extent) (vs : List Json) : Except Refusal Command := do
  let filter ← required vs 0
  let change ← required vs 1
  let options ← optionsAt vs 2
  return .update extent filter change options

/-- The command of a method with arguments; further arguments are not looked at. -/
def ofCall? (m : Method) (vs : List Json) : Except Refusal Command :=
  match m with
  | .insertOne => (required vs 0).map .insertOne
  | .insertMany => (required vs 0).map .insertMany
  | .find => .ok (.find (optional vs 0 (.object [])) (optional vs 1 .null))
  | .findOne => .ok (.findOne (optional vs 0 (.object [])) (optional vs 1 .null))
  | .updateOne => updateOf .one vs
  | .updateMany => updateOf .many vs
  | .deleteOne => (required vs 0).map (.delete .one)
  | .deleteMany => (required vs 0).map (.delete .many)
  | .countDocuments => .ok (.countDocuments (optional vs 0 (.object [])))
  | .drop => .ok .drop

end Command

/-- What runs commands. -/
structure Backend where
  /-- Whether there is a collection of a name, or what fails. -/
  resolve : Text → Except Text Unit
  /-- The reply of the resolved collection to a command, or what fails. -/
  reply : (c : Command) → Except Text c.Reply

end CollectionShell
