import CollectionShell.Text.Basic

/-!
# Quotation

Which places of a text lie inside a quoted string. A string runs from an apostrophe or a
quotation mark to the next mark of the same kind; a mark that backslashes in front of it
escape neither opens nor closes a string. An `EscapeMode` says when they do, and looks back
from the mark through the whole text, strings or not.

`mask` lists the places inside strings, one entry before each character and one behind the
last (`length_mask`).
-/

namespace CollectionShell

/-- When backslashes escape the character behind them. -/
inductive EscapeMode
  /-- One backslash right in front is enough. -/
  | single
  /-- The run of backslashes in front has an odd length. -/
  | parity
  deriving DecidableEq, Repr

/-- The backslashes at the end of `before`, a text read backwards, escape what comes next. -/
def EscapeMode.escapes : EscapeMode → Text → Bool
  | .single, before => before.head? == some '\\'
  | .parity, before => (before.takeWhile (· == '\\')).length % 2 == 1

/-- The two marks that quote a string. -/
inductive QuoteMark
  | apostrophe
  | quotation
  deriving DecidableEq, Repr

/-- The quote mark that a character is, if it is one. -/
def QuoteMark.ofChar? (c : Char) : Option QuoteMark :=
  if c = '\x27' then some .apostrophe else if c = '\x22' then some .quotation else none

/-- The open mark once an unescaped `mark` has been read : it opens a string, closes its own
kind, and is plain text inside the other kind. -/
def QuoteMark.toggle (opened : Option QuoteMark) (mark : QuoteMark) : Option QuoteMark :=
  match opened with
  | none => some mark
  | some m => if mark = m then none else some m

/-- The open mark once `c` has been read. -/
def QuoteMark.next (opened : Option QuoteMark) (c : Char) (escaped : Bool) : Option QuoteMark :=
  match QuoteMark.ofChar? c, escaped with
  | some mark, false => QuoteMark.toggle opened mark
  | _, _ => opened

/-- A place that lies behind the last character of a text. -/
inductive IndexError
  | outOfRange
  deriving DecidableEq, Repr

/-- The wording of an index error. -/
def IndexError.message : IndexError → String
  | .outOfRange => "string index out of range"

namespace Quotation

/-- Backslashes in front of place `index` escape the character there. Nothing is in front of
the first place, and a place behind the end is an error. -/
def isEscaped (mode : EscapeMode) (text : Text) (index : Int) : Except IndexError Bool :=
  if index ≤ 0 then .ok false
  else if index.toNat ≤ text.length then .ok (mode.escapes (text.take index.toNat).reverse)
  else .error .outOfRange

/-- The mask of the rest of a text, `before` being what precedes it, read backwards, and
`opened` the mark of the string it starts in. -/
def maskFrom (mode : EscapeMode) (before : Text) (opened : Option QuoteMark) : Text → List Bool
  | [] => [opened.isSome]
  | c :: rest =>
    opened.isSome ::
      maskFrom mode (c :: before) (QuoteMark.next opened c (mode.escapes before)) rest

/-- Whether each place of the text lies inside a string : before each character, then at the
end. -/
def mask (mode : EscapeMode) (text : Text) : List Bool := maskFrom mode [] none text

/-- The text ends inside a string. -/
def endsInside (mode : EscapeMode) (text : Text) : Bool := (mask mode text).getLastD false

/-- The place `position` lies inside a string of the text in front of it. Places before the
first are outside, places behind the end count as the end. -/
def insideAt (mode : EscapeMode) (text : Text) (position : Int) : Bool :=
  if position ≤ 0 then false else endsInside mode (text.take position.toNat)

theorem length_maskFrom (mode : EscapeMode) (before : Text) (opened : Option QuoteMark)
    (text : Text) : (maskFrom mode before opened text).length = text.length + 1 := by
  induction text generalizing before opened with
  | nil => rfl
  | cons c text ih => simp [maskFrom, ih]

/-- The mask has one entry more than the text has characters. -/
theorem length_mask (mode : EscapeMode) (text : Text) :
    (mask mode text).length = text.length + 1 :=
  length_maskFrom mode [] none text

end Quotation

end CollectionShell
