import CollectionShell.Operation.Error
import CollectionShell.Quotation.Basic

/-!
# Tokens

An operation is cut into tokens at the points and parentheses outside strings. What stands
between a parenthesis and the one that closes it is a single token, verbatim; the other
pieces are trimmed, and blank ones are no tokens.

The cut is a fold over the characters (`Scan.step`), so a text may be read in two parts
(`Scan.run_append`). `matchingParen` finds the closing parenthesis of one opening
parenthesis, for any mask of the places inside strings.
-/

namespace CollectionShell.Operation

/-- A character of a text and whether its place lies inside a string. -/
structure Marked where
  /-- The character. -/
  char : Char
  /-- Its place lies inside a string. -/
  quoted : Bool
  deriving DecidableEq, Repr

/-- The characters of a text, marked by a mask. -/
def markedBy (mask : List Bool) (text : Text) : List Marked := List.zipWith Marked.mk text mask

/-- The characters of a text, marked by its strings. -/
def marked (mode : EscapeMode) (text : Text) : List Marked :=
  markedBy (Quotation.mask mode text) text

/-! ## Matching parentheses -/

/-- How many characters stand in front of the one that closes the last of `depth` open
parentheses, or how many stay open. -/
def closing : Nat → List Marked → Except Nat Nat
  | depth, [] => .error depth
  | depth, m :: rest =>
    if m.quoted then (closing depth rest).map (· + 1)
    else if m.char = '(' then (closing (depth + 1) rest).map (· + 1)
    else if m.char = ')' then
      if depth ≤ 1 then .ok 0 else (closing (depth - 1) rest).map (· + 1)
    else (closing depth rest).map (· + 1)

/-- The place of the parenthesis that closes the one at `start`. Whether one stands there is
not looked at. -/
def matchingParen (text : Text) (mask : List Bool) (start : Nat) : Except ParseError Nat :=
  match closing 1 ((markedBy mask text).drop (start + 1)) with
  | .ok k => .ok (start + 1 + k)
  | .error depth => .error <| .unbalanced {
      text := text.drop start
      parens := depth
      unterminated := mask.getD text.length false }

/-! ## The cut -/

/-- What is known of an operation after some of its characters. -/
structure Scan where
  /-- The tokens so far, the last one first. -/
  tokens : List Text
  /-- What was read behind the last token, read backwards. -/
  pending : Text
  /-- How many parentheses are open. -/
  depth : Nat
  deriving DecidableEq, Repr

namespace Scan

/-- Before the first character. -/
def start : Scan := ⟨[], [], 0⟩

/-- The tokens with the trimmed pending text in front, unless it is blank. -/
def flushed (s : Scan) : List Text :=
  let fragment := Text.trim s.pending.reverse
  if fragment = [] then s.tokens else fragment :: s.tokens

/-- One more pending character. -/
def push (s : Scan) (c : Char) : Scan := { s with pending := c :: s.pending }

/-- One more character outside parentheses. -/
def stepOutside (s : Scan) (m : Marked) : Scan :=
  if m.quoted then s.push m.char
  else if m.char = '.' then ⟨['.'] :: s.flushed, [], 0⟩
  else if m.char = '(' then ⟨['('] :: s.flushed, [], 1⟩
  else s.push m.char

/-- One more character inside parentheses. -/
def stepInside (s : Scan) (m : Marked) : Scan :=
  if m.quoted then s.push m.char
  else if m.char = '(' then { s.push m.char with depth := s.depth + 1 }
  else if m.char = ')' then
    if s.depth ≤ 1 then ⟨[')'] :: s.pending.reverse :: s.tokens, [], 0⟩
    else { s.push m.char with depth := s.depth - 1 }
  else s.push m.char

/-- One more character. -/
def step (s : Scan) (m : Marked) : Scan := if s.depth = 0 then s.stepOutside m else s.stepInside m

/-- The state behind a marked text. -/
def run (s : Scan) (ms : List Marked) : Scan := ms.foldl step s

/-- A marked text may be read in two parts. -/
theorem run_append (s : Scan) (x y : List Marked) : s.run (x ++ y) = (s.run x).run y :=
  List.foldl_append

/-- The tokens of a text read to its end. An open parenthesis is an error about the text from
the first one that is open. -/
def finish (s : Scan) (unterminated : Bool) : Except ParseError (List Text) :=
  if s.depth = 0 then .ok s.flushed.reverse
  else .error <| .unbalanced {
    text := '(' :: s.pending.reverse
    parens := s.depth
    unterminated := unterminated }

end Scan

/-- The tokens of an operation. -/
def tokenize (mode : EscapeMode) (text : Text) : Except ParseError (List Text) :=
  (Scan.start.run (marked mode text)).finish (Quotation.endsInside mode text)

/-! ## The layout of a call -/

/-- The three tokens of a call that are not fixed. -/
structure Layout where
  /-- The token in front of the point. -/
  collection : Text
  /-- The token behind the point. -/
  method : Text
  /-- What stands between the parentheses. -/
  blob : Text
  deriving DecidableEq, Repr

/-- The layout of six tokens of which the second is a point, the fourth an opening and the
sixth a closing parenthesis. -/
def layout (tokens : List Text) : Except ParseError Layout :=
  let misplaced (expected : Char) (position : Nat) (found : Text) : Except ParseError Layout :=
    .error (.structural tokens (.misplaced expected position found))
  match tokens with
  | [collection, point, method, opening, blob, close] =>
    if point ≠ ['.'] then misplaced '.' 1 point
    else if opening ≠ ['('] then misplaced '(' 3 opening
    else if close ≠ [')'] then misplaced ')' 5 close
    else .ok ⟨collection, method, blob⟩
  | _ => .error (.structural tokens .wrongCount)

end CollectionShell.Operation
