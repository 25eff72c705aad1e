import CollectionShell.Json.Number
import CollectionShell.Json.StringLiteral

/-!
# Reading JSON

`Json.decode` reads a text that is one JSON value with blanks around it. Each reader takes a
value off the front of a text and returns the rest; the first fault ends the reading. Blanks
between tokens are the space, the tab and the two line breaks.

Arrays and objects nest as deep as `maxDepth` allows. The readers of their contents share
one loop, `itemsUntil`, which is handed as much fuel as there are characters and uses one
unit for each comma.
-/

namespace CollectionShell.Json

/-- What reading the front of a text gives : a result and the rest, or a fault. -/
abbrev Reading (α : Type) := Except Fault (α × Text)

/-- The blanks of JSON. -/
def isSpace (c : Char) : Bool := c == ' ' || c == '\t' || c == '\n' || c == '\x0d'

/-- The text without its leading JSON blanks. -/
def skipSpace (t : Text) : Text := t.dropWhile isSpace

/-- A flaw at the front of `rest`. -/
def flawAt {α : Type} (flaw : Flaw) (rest : Text) : Except Fault α :=
  .error (.located flaw rest.length)

/-! ## Containers -/

/-- Items with commas between them up to the character `close`. Blanks may stand behind items
and commas. -/
def itemsUntil {α : Type} (close : Char) (item : Text → Reading α) : Nat → Text → Reading (List α)
  | 0, t => flawAt .noValue t
  | fuel + 1, t =>
    match item t with
    | .error e => .error e
    | .ok (x, rest) =>
      match skipSpace rest with
      | [] => flawAt .noComma []
      | c :: more =>
        if c = close then .ok ([x], more)
        else if c = ',' then
          (itemsUntil close item fuel (skipSpace more)).map fun r => (x :: r.1, r.2)
        else flawAt .noComma (c :: more)

/-- The items of a container behind its opening character, and what follows its `close`. -/
def container {α : Type} (close : Char) (item : Text → Reading α) (t : Text) : Reading (List α) :=
  let t := skipSpace t
  if t.head? = some close then .ok ([], t.drop 1) else itemsUntil close item (t.length + 1) t

/-- A member of an object : a name, a colon and a value, with blanks around the colon. -/
def member (value : Text → Reading Json) : Text → Reading (Name × Json)
  | [] => flawAt .noName []
  | c :: rest =>
    if c = '\x22' then
      match scanString rest with
      | .error e => .error e
      | .ok (name, rest) =>
        match skipSpace rest with
        | [] => flawAt .noColon []
        | d :: more =>
          if d = ':' then (value (skipSpace more)).map fun r => ((name, r.1), r.2)
          else flawAt .noColon (d :: more)
    else flawAt .noName (c :: rest)

/-! ## Values -/

/-- The words that are values, and those that are faults. -/
def words : List (Text × Except Fault Json) := [
  (['n', 'u', 'l', 'l'], .ok .null),
  (['t', 'r', 'u', 'e'], .ok (.bool true)),
  (['f', 'a', 'l', 's', 'e'], .ok (.bool false)),
  (['N', 'a', 'N'], .error (.constant .notANumber)),
  (['I', 'n', 'f', 'i', 'n', 'i', 't', 'y'], .error (.constant .infinity)),
  (['-', 'I', 'n', 'f', 'i', 'n', 'i', 't', 'y'], .error (.constant .minusInfinity))]

/-- What follows the word at the front of a text, if the text starts with it. -/
def afterWord? (word t : Text) : Option Text :=
  if word.isPrefixOf t then some (t.drop word.length) else none

/-- A word or a number. -/
def scalar (t : Text) : Reading Json :=
  match words.findSome? fun w => (afterWord? w.1 t).map fun rest => (w.2, rest) with
  | some (outcome, rest) => outcome.map fun v => (v, rest)
  | none =>
    match NumberLiteral.scan? t with
    | some (l, rest) => l.value.map fun v => (v, rest)
    | none => flawAt .noValue t

/-- A value whose elements and members hold what `inner` reads. -/
def valueWith (inner : Text → Reading Json) (t : Text) : Reading Json :=
  match t with
  | [] => flawAt .noValue []
  | c :: rest =>
    if c = '\x22' then (scanString rest).map fun r => (.string r.1, r.2)
    else if c = '[' then (container ']' inner rest).map fun r => (.array r.1, r.2)
    else if c = '\x7b' then
      (container '\x7d' (member inner) rest).map fun r => (.object (memberwise r.1), r.2)
    else scalar (c :: rest)

/-- A value inside fewer than `depth` arrays and objects. -/
def value : Nat → Text → Reading Json
  | 0, _ => .error .tooDeep
  | depth + 1, t => valueWith (value depth) t

/-- How many values may stand inside each other. -/
def maxDepth : Nat := 1000

/-- The value that a text is, with blanks around it. -/
def decode (t : Text) : Except Fault Json :=
  if t.head? = some '\ufeff' then flawAt .byteOrderMark t
  else
    match value maxDepth (skipSpace t) with
    | .error e => .error e
    | .ok (v, rest) =>
      match skipSpace rest with
      | [] => .ok v
      | c :: more => flawAt .extra (c :: more)

end CollectionShell.Json
