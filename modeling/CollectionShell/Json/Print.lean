import CollectionShell.Double.Layout
import CollectionShell.Json.Basic

/-!
# Writing JSON

Two written forms of a value. `Json.compact` has no blanks and escapes what it must, control
characters by number. `Json.indented` puts every element and member on a line of its own,
indented by its depth, with a blank behind the colon, and has short escapes for the common
control characters. Both leave every other character as it is.
-/

namespace CollectionShell.Json

/-- The character of a code point, and the replacement character for a surrogate. -/
def shownChar (p : CodePoint) : Char := p.toChar?.getD '\ufffd'

/-- Four hexadecimal digits of a code point below `0x10000`. -/
def fourHex (p : CodePoint) : Text :=
  let ds := Nat.toDigits 16 p.val
  List.replicate (4 - ds.length) '0' ++ ds

/-- A code point inside a string : the quotation mark and the backslash behind a backslash,
a control character by number. -/
def escapedPoint (p : CodePoint) : Text :=
  if p.val = 0x22 then ['\\', '\x22']
  else if p.val = 0x5C then ['\\', '\\']
  else if p.val < 0x20 then '\\' :: 'u' :: fourHex p
  else [shownChar p]

/-- As `escapedPoint`, with letters for backspace, form feed and the three common blanks. -/
def shortEscapedPoint (p : CodePoint) : Text :=
  if p.val = 0x08 then ['\\', 'b']
  else if p.val = 0x0C then ['\\', 'f']
  else if p.val = 0x0A then ['\\', 'n']
  else if p.val = 0x0D then ['\\', 'r']
  else if p.val = 0x09 then ['\\', 't']
  else escapedPoint p

/-- A string literal whose code points are written by `point`. -/
def literal (point : CodePoint → Text) (points : List CodePoint) : Text :=
  '\x22' :: points.flatMap point ++ ['\x22']

/-- The word for a truth value. -/
def boolWord (b : Bool) : Text :=
  if b then ['t', 'r', 'u', 'e'] else ['f', 'a', 'l', 's', 'e']

/-! ## The compact form -/

mutual

/-- A value without blanks. -/
def compact : Json → Text
  | .null => ['n', 'u', 'l', 'l']
  | .bool b => boolWord b
  | .int n => Text.ofInt n
  | .float x => x.write Decimal.printed
  | .string s => literal escapedPoint s
  | .array xs => '[' :: compactElements xs ++ [']']
  | .object ms => '\x7b' :: compactMembers ms ++ ['\x7d']

/-- Elements with commas between them. -/
def compactElements : List Json → Text
  | [] => []
  | [x] => compact x
  | x :: y :: xs => compact x ++ ',' :: compactElements (y :: xs)

/-- Members with commas between them. -/
def compactMembers : List (Name × Json) → Text
  | [] => []
  | [(k, v)] => literal escapedPoint k ++ ':' :: compact v
  | (k, v) :: m :: ms =>
    literal escapedPoint k ++ ':' :: compact v ++ ',' :: compactMembers (m :: ms)

end

/-! ## The indented form -/

/-- A line break and the indentation at a depth. -/
def newline (indent depth : Nat) : Text := '\n' :: List.replicate (indent * depth) ' '

mutual

/-- A value at a depth, its elements and members on lines of their own. -/
def indented (indent depth : Nat) : Json → Text
  | .null => ['n', 'u', 'l', 'l']
  | .bool b => boolWord b
  | .int n => Text.ofInt n
  | .float x => x.write Decimal.printed
  | .string s => literal shortEscapedPoint s
  | .array [] => ['[', ']']
  | .array (x :: xs) =>
    '[' :: indentedElements indent (depth + 1) (x :: xs) ++ newline indent depth ++ [']']
  | .object [] => ['\x7b', '\x7d']
  | .object (m :: ms) =>
    '\x7b' :: indentedMembers indent (depth + 1) (m :: ms) ++ newline indent depth ++ ['\x7d']

/-- Elements, each behind a line break, with commas between them. -/
def indentedElements (indent depth : Nat) : List Json → Text
  | [] => []
  | [x] => newline indent depth ++ indented indent depth x
  | x :: y :: xs =>
    newline indent depth ++ indented indent depth x ++
      ',' :: indentedElements indent depth (y :: xs)

/-- Members, each behind a line break, with commas between them. -/
def indentedMembers (indent depth : Nat) : List (Name × Json) → Text
  | [] => []
  | [(k, v)] =>
    newline indent depth ++ literal shortEscapedPoint k ++ ':' :: ' ' :: indented indent depth v
  | (k, v) :: m :: ms =>
    newline indent depth ++ literal shortEscapedPoint k ++ ':' :: ' ' :: indented indent depth v ++
      ',' :: indentedMembers indent depth (m :: ms)

end

/-! ## What can be written -/

/-- The code point is a character. -/
def isCharacter (p : CodePoint) : Bool := p.toChar?.isSome

mutual

/-- The value holds no lone surrogate, so that its text is made of characters. -/
def isWritable : Json → Bool
  | .string s => s.all isCharacter
  | .array xs => areWritable xs
  | .object ms => membersWritable ms
  | _ => true

/-- As `isWritable`, for all elements. -/
def areWritable : List Json → Bool
  | [] => true
  | x :: xs => isWritable x && areWritable xs

/-- As `isWritable`, for all names and values. -/
def membersWritable : List (Name × Json) → Bool
  | [] => true
  | (k, v) :: ms => k.all isCharacter && isWritable v && membersWritable ms

end

end CollectionShell.Json
