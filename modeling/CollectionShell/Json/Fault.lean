import CollectionShell.Text.Basic

/-!
# Faults of JSON texts

Why a text is no JSON value, and where. A place is kept as the number of characters that are
left from it on, and becomes a line and a column, both counted from one, when the fault is
worded.
-/

namespace CollectionShell.Json

/-- What is wrong at a place of a text. -/
inductive Flaw
  /-- The text starts with a byte order mark. -/
  | byteOrderMark
  /-- No value starts here. -/
  | noValue
  /-- No member name starts here. -/
  | noName
  /-- A member name is not followed by a colon. -/
  | noColon
  /-- An element or member is followed neither by a comma nor by the end of its container. -/
  | noComma
  /-- The value is followed by more. -/
  | extra
  /-- The string that starts here has no end. -/
  | unterminated
  /-- A control character stands in a string. -/
  | control
  /-- A backslash is followed by no escape. -/
  | escape
  /-- An escape by number has not its four digits. -/
  | numericEscape
  deriving DecidableEq, Repr

/-- The wording of a flaw. -/
def Flaw.message : Flaw → String
  | .byteOrderMark => "Unexpected UTF-8 BOM (decode using utf-8-sig)"
  | .noValue => "Expecting value"
  | .noName => "Expecting property name enclosed in double quotes"
  | .noColon => "Expecting ':' delimiter"
  | .noComma => "Expecting ',' delimiter"
  | .extra => "Extra data"
  | .unterminated => "Unterminated string starting at"
  | .control => "Invalid control character at"
  | .escape => "Invalid \\escape"
  | .numericEscape => "Invalid \\uXXXX escape"

/-- The words for numbers that are no JSON. -/
inductive Constant
  | notANumber
  | infinity
  | minusInfinity
  deriving DecidableEq, Repr

/-- The spelling of such a word. -/
def Constant.spelling : Constant → String
  | .notANumber => "NaN"
  | .infinity => "Infinity"
  | .minusInfinity => "-Infinity"

/-- The most digits that an integer may have. -/
def maxDigits : Nat := 4300

/-- Why a text is no JSON value. -/
inductive Fault
  /-- A flaw with `left` characters left from its place on. -/
  | located (flaw : Flaw) (left : Nat)
  /-- A word for a number that is no JSON. -/
  | constant (c : Constant)
  /-- An integer of too many digits. -/
  | tooManyDigits (count : Nat)
  /-- Too many arrays and objects inside each other. -/
  | tooDeep
  deriving DecidableEq, Repr

/-- The line of a place and its column in that line, behind the text `before`. -/
def lineColumn (before : Text) : Nat × Nat :=
  (before.count '\n' + 1, (before.reverse.takeWhile (· != '\n')).length + 1)

/-- The wording of a fault in `text`. -/
def Fault.message (text : Text) : Fault → String
  | .located flaw left =>
    let place := lineColumn (text.take (text.length - left))
    flaw.message ++ " (line " ++ toString place.1 ++ " column " ++ toString place.2 ++ ")"
  | .constant c => c.spelling ++ " is not valid JSON"
  | .tooManyDigits count =>
    "Exceeds the limit (" ++ toString maxDigits ++ " digits) for integer string conversion: " ++
      "value has " ++ toString count ++
      " digits; use sys.set_int_max_str_digits() to increase the limit"
  | .tooDeep => "nesting too deep"

end CollectionShell.Json
