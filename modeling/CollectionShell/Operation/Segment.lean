import CollectionShell.Operation.Error
import CollectionShell.Quotation.Tracker

/-!
# Segments

The text between the parentheses of a call is cut into segments at the commas outside
strings, braces and brackets. The cut is a fold over the characters (`Splitter.step`) that
tracks strings on its own, counts braces and brackets, and may find more of them closed than
opened. A text that ends with any of them open is an error.
-/

namespace CollectionShell.Operation

open Quotation (Tracker)

/-- What is known of a text of arguments after some of its characters. -/
structure Splitter where
  /-- The string that is open, if one is. -/
  strings : Tracker
  /-- Opening less closing braces. -/
  braces : Int
  /-- Opening less closing brackets. -/
  brackets : Int
  /-- What was read behind the last cut, read backwards. -/
  pending : Text
  /-- The segments so far, the last one first. -/
  segments : List Text
  deriving DecidableEq, Repr

namespace Splitter

/-- Before the first character. -/
def start : Splitter := ⟨Tracker.start, 0, 0, [], []⟩

/-- One more pending character. -/
def push (s : Splitter) (c : Char) : Splitter := { s with pending := c :: s.pending }

/-- One more character outside strings. -/
def stepOutside (s : Splitter) (c : Char) : Splitter :=
  if c = '\x7b' then { s.push c with braces := s.braces + 1 }
  else if c = '\x7d' then { s.push c with braces := s.braces - 1 }
  else if c = '[' then { s.push c with brackets := s.brackets + 1 }
  else if c = ']' then { s.push c with brackets := s.brackets - 1 }
  else if c = ',' ∧ s.braces = 0 ∧ s.brackets = 0 then
    { s with pending := [], segments := Text.trim s.pending.reverse :: s.segments }
  else s.push c

/-- One more character. -/
def step (mode : EscapeMode) (s : Splitter) (c : Char) : Splitter :=
  let next := if s.strings.inside then s.push c else s.stepOutside c
  { next with strings := s.strings.step mode c }

/-- The state behind a text. -/
def run (mode : EscapeMode) (s : Splitter) (text : Text) : Splitter := text.foldl (step mode) s

/-- A text may be read in two parts. -/
theorem run_append (mode : EscapeMode) (s : Splitter) (x y : Text) :
    s.run mode (x ++ y) = (s.run mode x).run mode y :=
  List.foldl_append

/-- The segments of a text read to its end; what is behind the last comma is none if it is
blank. -/
def finish (s : Splitter) (text : Text) : Except ParseError (List Text) :=
  if s.braces ≠ 0 ∨ s.brackets ≠ 0 ∨ s.strings.inside = true then
    .error <| .unbalanced {
      text := text
      braces := s.braces
      brackets := s.brackets
      unterminated := s.strings.inside }
  else
    let tail := Text.trim s.pending.reverse
    .ok (if tail = [] then s.segments.reverse else (tail :: s.segments).reverse)

end Splitter

/-- The segments of a text of arguments. -/
def splitArguments (mode : EscapeMode) (blob : Text) : Except ParseError (List Text) :=
  (Splitter.start.run mode blob).finish blob

end CollectionShell.Operation
