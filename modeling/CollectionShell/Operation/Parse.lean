import CollectionShell.Json.Decode
import CollectionShell.Log.Record
import CollectionShell.Operation.Call
import CollectionShell.Operation.Segment
import CollectionShell.Operation.Token

/-!
# Parsing an operation

`parse` reads a call from a shell word. The word is trimmed and loses one pair of enclosing
shell quotes, the rest is cut into tokens, the tokens must be laid out as a call, the text
between the parentheses is cut into segments, each segment is JSON, and the call must be
valid. Every step that succeeds leaves an event, which the log shows as a record.
-/

namespace CollectionShell.Operation

/-- The marks that may enclose a shell word. -/
def isShellQuote (c : Char) : Bool := c == '\x27' || c == '\x22' || c == '\x60'

/-- The text between its first and its last character, if these are the same shell quote and
two places. -/
def unquoted (t : Text) : Text :=
  match t with
  | q :: c :: rest =>
    if isShellQuote q ∧ (c :: rest).getLast? = some q then (c :: rest).dropLast else t
  | _ => t

/-- A trimmed shell word without its enclosing quotes. -/
def clean (raw : Text) : Text := unquoted (Text.trim raw)

/-- The value of an argument. -/
def decodeArgument (segment : Text) : Except ParseError Json :=
  let text := Text.trim segment
  (Json.decode text).mapError (.argument text)

/-- The values of arguments, or the first error. -/
def decodeArguments : List Text → Except ParseError (List Json)
  | [] => .ok []
  | s :: rest =>
    match decodeArgument s with
    | .error e => .error e
    | .ok v => (decodeArguments rest).map (v :: ·)

/-- The call that tokens make. -/
def callOfTokens (mode : EscapeMode) (tokens : List Text) : Except ParseError Call := do
  let l ← layout tokens
  let segments ← splitArguments mode l.blob
  let arguments ← decodeArguments segments
  let _ ← validate l.collection l.method arguments
  return ⟨l.collection, l.method, arguments⟩

/-- A step of a parse that succeeded. -/
inductive ParseEvent
  /-- The word to parse. -/
  | given (raw : Text)
  /-- The word without blanks and quotes around it. -/
  | cleaned (text : Text)
  /-- Its tokens. -/
  | tokens (ts : List Text)
  /-- The call. -/
  | call (c : Call)

/-- The log record of an event. -/
def ParseEvent.record (e : ParseEvent) : Log.Record :=
  let shown : Text := match e with
    | .given raw => Text.ofString "original=" ++ Text.quoted raw
    | .cleaned text => Text.ofString "cleaned=" ++ Text.quoted text
    | .tokens ts => Text.ofString "tokens=" ++ Text.quotedList ts
    | .call c => Text.ofString "call=" ++ c.inspect
  ⟨.debug, "operation.parse " ++ String.ofList shown⟩

/-- How a parse went. -/
structure ParseRun where
  /-- The steps that succeeded. -/
  events : List ParseEvent
  /-- The call, or why there is none. -/
  outcome : Except ParseError Call

/-- The log records of a parse. -/
def ParseRun.records (r : ParseRun) : List Log.Record := r.events.map ParseEvent.record

/-- A parse with its events. -/
def parseRun (mode : EscapeMode) (raw : Text) : ParseRun :=
  let text := clean raw
  match tokenize mode text with
  | .error e => ⟨[.given raw, .cleaned text], .error e⟩
  | .ok ts =>
    match callOfTokens mode ts with
    | .error e => ⟨[.given raw, .cleaned text, .tokens ts], .error e⟩
    | .ok c => ⟨[.given raw, .cleaned text, .tokens ts, .call c], .ok c⟩

/-- The call in a shell word. -/
def parse (mode : EscapeMode) (raw : Text) : Except ParseError Call := (parseRun mode raw).outcome

end CollectionShell.Operation
