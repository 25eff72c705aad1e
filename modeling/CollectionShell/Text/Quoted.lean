import CollectionShell.Text.CodePoint
import CollectionShell.Text.Printable

/-!
# Quoted text

The form in which messages and log records show a text : between apostrophes, or between
quotation marks if it holds an apostrophe and no quotation mark. The chosen mark and the
backslash stand behind a backslash, and what is not printable is shown by its number.
-/

namespace CollectionShell.Text

/-- The lower-case hexadecimal digits of a number, at least `width` of them. -/
def hex (width n : Nat) : Text :=
  let ds := Nat.toDigits 16 n
  List.replicate (width - ds.length) '0' ++ ds

/-- The mark that quotes a text. -/
def chosenMark (points : List CodePoint) : Char :=
  if points.contains (CodePoint.ofChar '\x27') && !points.contains (CodePoint.ofChar '\x22')
  then '\x22' else '\x27'

/-- How a code point is shown between quotes of the kind `mark`. -/
def quotedPoint (mark : Char) (p : CodePoint) : Text :=
  let n := p.val
  if n = mark.toNat then ['\\', mark]
  else if n = 0x5C then ['\\', '\\']
  else if n = 0x0A then ['\\', 'n']
  else if n = 0x0D then ['\\', 'r']
  else if n = 0x09 then ['\\', 't']
  else if isPrintable n then [Char.ofNat n]
  else if n < 0x100 then '\\' :: 'x' :: hex 2 n
  else if n < 0x10000 then '\\' :: 'u' :: hex 4 n
  else '\\' :: 'U' :: hex 8 n

/-- The quoted form of a string of code points. -/
def quotedPoints (points : List CodePoint) : Text :=
  let mark := chosenMark points
  mark :: points.flatMap (quotedPoint mark) ++ [mark]

/-- The quoted form of a text. -/
def quoted (t : Text) : Text := quotedPoints (CodePoint.ofText t)

/-- The quoted forms of a list of texts, between brackets. -/
def quotedList (ts : List Text) : Text :=
  '[' :: joinWith [',', ' '] (ts.map quoted) ++ [']']

end CollectionShell.Text
