import CollectionShell.Execution.Command
import CollectionShell.Json.Inspect
import CollectionShell.Log.Record

/-!
# Running a call

`execute` runs a call on a backend : it resolves the collection once, sends it one command
and makes a result of the reply. The record that it returns has the names that were
resolved and the commands that were sent, also if one of them failed.
-/

namespace CollectionShell

open Operation (Call)

/-- What a call gave. -/
structure Result where
  /-- The name of the collection. -/
  collection : Text
  /-- The name of the method. -/
  method : Text
  /-- What happened, in words; it may show a string of the backend. -/
  summary : List CodePoint
  /-- The value that the call gave. -/
  payload : Json
  /-- A document was found, if one was looked for. -/
  found : Bool

/-- Why a call gave nothing. -/
structure ExecutionError where
  /-- The name of the collection. -/
  collection : Text
  /-- The name of the method. -/
  method : Text
  /-- What failed. -/
  message : Text
  deriving DecidableEq, Repr

/-- The wording of an execution error. -/
def ExecutionError.wording (e : ExecutionError) : String :=
  String.ofList e.collection ++ "." ++ String.ofList e.method ++ " failed: " ++
    String.ofList e.message

/-- A step of an execution. -/
inductive ExecutionEvent
  /-- A call of a known method is run. -/
  | started (collection method : Text)
  /-- It failed. -/
  | failed (method : Text)
  deriving DecidableEq, Repr

/-- The log record of an event. -/
def ExecutionEvent.record : ExecutionEvent → Log.Record
  | .started collection method =>
    ⟨.info, "operation.execute collection=" ++ String.ofList collection ++ " method=" ++
      String.ofList method⟩
  | .failed method => ⟨.debug, "operation.execute.error method=" ++ String.ofList method⟩

/-- How an execution went. -/
structure Execution where
  /-- The names that were resolved. -/
  resolved : List Text
  /-- The commands that were sent. -/
  commands : List Command
  /-- The steps. -/
  events : List ExecutionEvent
  /-- The result, or why there is none. -/
  outcome : Except ExecutionError Result

/-- The log records of an execution. -/
def Execution.records (e : Execution) : List Log.Record := e.events.map ExecutionEvent.record

namespace Execution

/-- A count. -/
def count (n : Nat) : Json := .int n

/-- The result that a command's reply makes, or what fails when the reply is read. -/
def resultOf (call : Call) : (c : Command) → c.Reply → Except Text Result
  | .insertOne _, (inserted : Json) =>
    .ok ⟨call.collection, call.method, CodePoint.ofString "Document inserted successfully",
      .object [(CodePoint.ofString "insertedId", inserted)], true⟩
  | .insertMany _, (inserted : List Json) =>
    .ok ⟨call.collection, call.method,
      CodePoint.ofString (toString inserted.length ++ " documents inserted successfully"),
      .object [(CodePoint.ofString "insertedCount", count inserted.length),
        (CodePoint.ofString "insertedIds", .array inserted)], true⟩
  | .find _ _, (cursor : Cursor) =>
    cursor.drain.map fun documents =>
      ⟨call.collection, call.method,
        CodePoint.ofString ("Found " ++ toString documents.length ++ " document(s):"),
        .array documents, true⟩
  | .findOne _ _, (document : Json) =>
    match document with
    | .null =>
      .ok ⟨call.collection, call.method, CodePoint.ofString "No document found", .null, false⟩
    | v => .ok ⟨call.collection, call.method, CodePoint.ofString "Document found:", v, true⟩
  | .update _ _ _ _, (report : UpdateReport) =>
    .ok ⟨call.collection, call.method,
      CodePoint.ofString "Modified " ++ report.modified.plain ++ CodePoint.ofString " document(s)",
      .object [(CodePoint.ofString "matchedCount", report.matched),
        (CodePoint.ofString "modifiedCount", report.modified),
        (CodePoint.ofString "upsertedId", report.upserted)], true⟩
  | .delete _ _, (deleted : Json) =>
    .ok ⟨call.collection, call.method,
      CodePoint.ofString "Deleted " ++ deleted.plain ++ CodePoint.ofString " document(s)",
      .object [(CodePoint.ofString "deletedCount", deleted)], true⟩
  | .countDocuments _, (n : Json) =>
    .ok ⟨call.collection, call.method, CodePoint.ofString "Count: " ++ n.plain, n, true⟩
  | .drop, _ =>
    .ok ⟨call.collection, call.method,
      CodePoint.ofString ("Collection '" ++ String.ofList call.collection ++ "' dropped"), .null,
      true⟩

/-- An execution of a known method that failed with a message. -/
def failure (call : Call) (commands : List Command) (message : Text) : Execution :=
  ⟨[call.collection], commands, [.started call.collection call.method, .failed call.method],
    .error ⟨call.collection, call.method, message⟩⟩

end Execution

/-- Runs a call on a backend. -/
def execute (backend : Backend) (call : Call) : Execution :=
  match Method.ofName? call.method with
  | none =>
    ⟨[], [], [], .error ⟨call.collection, call.method, Text.ofString "unsupported operation"⟩⟩
  | some m =>
    match backend.resolve call.collection with
    | .error message => Execution.failure call [] message
    | .ok () =>
      match Command.ofCall? m call.arguments with
      | .error refusal => Execution.failure call [] (Text.ofString refusal.message)
      | .ok command =>
        match backend.reply command >>= Execution.resultOf call command with
        | .error message => Execution.failure call [command] message
        | .ok result =>
          ⟨[call.collection], [command], [.started call.collection call.method], .ok result⟩

end CollectionShell
