import CollectionShell.Quotation.Basic

/-!
# Tracking strings without looking back

A `Tracker` reads a text one character at a time and remembers the open quote mark and
whether the next character is escaped. A text may be read in two parts
(`Tracker.advance_append`).
-/

namespace CollectionShell.Quotation

/-- What is known of the strings of a text after some of its characters. -/
structure Tracker where
  /-- The mark of the string that is open, if one is. -/
  opened : Option QuoteMark
  /-- The next character is escaped. -/
  escaped : Bool
  deriving DecidableEq, Repr

namespace Tracker

/-- Before the first character : no string is open and nothing is escaped. -/
def start : Tracker := ⟨none, false⟩

/-- The state behind one more character. -/
def step (mode : EscapeMode) (s : Tracker) (c : Char) : Tracker where
  opened := QuoteMark.next s.opened c s.escaped
  escaped :=
    match mode with
    | .single => c == '\\'
    | .parity => c == '\\' && !s.escaped

/-- The state behind a text. -/
def advance (mode : EscapeMode) (s : Tracker) (text : Text) : Tracker := text.foldl (step mode) s

/-- A string is open. -/
def inside (s : Tracker) : Bool := s.opened.isSome

theorem advance_append (mode : EscapeMode) (s : Tracker) (x y : Text) :
    advance mode s (x ++ y) = advance mode (advance mode s x) y := List.foldl_append

end Tracker

end CollectionShell.Quotation
