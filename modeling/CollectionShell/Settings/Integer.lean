import CollectionShell.Double.Basic
import CollectionShell.Json.Number

/-!
# Integers in settings

A setting that is an integer may be written as a text : with blanks around it, a sign, zeros
in front, a point with nothing but zeros behind, and single underscores between digits. What
is left once these are taken off must be an integer in its plainest form, no longer than
`Integer.maxLength`. It may also be a double without a fraction, if it fits in 64 bits.
-/

namespace CollectionShell.Settings

/-- Why a setting's value is no integer. -/
inductive IntegerFault
  /-- It is a text that writes no integer. -/
  | notWritten
  /-- It is beyond the integers that settings may be. -/
  | outOfRange
  /-- It is a number with a fraction. -/
  | fraction
  /-- It is a number that is not finite. -/
  | notFinite
  deriving DecidableEq, Repr

namespace Integer

/-- A blank around a setting : the blanks of Unicode. -/
def isSpace (c : Char) : Bool :=
  Text.isBlank c && !(0x1C ≤ c.toNat && c.toNat ≤ 0x1F)

/-- The text without the blanks at both ends. -/
def trim (t : Text) : Text :=
  ((t.dropWhile isSpace).reverse.dropWhile isSpace).reverse

/-- The text without a plus sign in front, which no minus sign may follow. -/
def dropPlus : Text → Option Text
  | '+' :: '-' :: _ => none
  | '+' :: rest => some rest
  | t => some t

/-- A minus sign in front, if there is one, and the rest. -/
def splitMinus : Text → Text × Text
  | '-' :: rest => (['-'], rest)
  | t => ([], t)

/-- What follows a zero in front, `last` being the character before : a digit other than zero
and a minus sign end the zeros and are kept, a point keeps the character before it, and at the
end the last character is left. -/
def afterZero (last : Char) : Text → Option Text
  | [] => some [last]
  | c :: rest =>
    if c = '0' ∨ c = '_' then afterZero c rest
    else if c.isDigit ∨ c = '-' then some (c :: rest)
    else if c = '.' then some (last :: c :: rest)
    else none

/-- The text without zeros in front; it must start with a digit. -/
def dropZeros : Text → Option Text
  | [] => none
  | c :: rest =>
    if c = '0' then afterZero c rest
    else if c.isDigit then some (c :: rest)
    else none

/-- The text without a point that zeros follow and nothing else. -/
def dropFraction (t : Text) : Text :=
  match t.dropWhile (· != '.') with
  | _ :: '0' :: zeros => if zeros.all (· == '0') then t.takeWhile (· != '.') else t
  | _ => t

/-- Two neighbours in the text are underscores. -/
def hasDoubleUnderscore : Text → Bool
  | '_' :: '_' :: _ => true
  | _ :: rest => hasDoubleUnderscore rest
  | [] => false

/-- The text without its underscores, which must stand alone and inside. -/
def dropUnderscores (t : Text) : Option Text :=
  if t.head? = some '_' ∨ t.getLast? = some '_' ∨ hasDoubleUnderscore t then none
  else some (t.filter (· != '_'))

/-- The integer that a text is in its plainest form : digits without a zero in front, behind
an optional minus sign. -/
def plain? (t : Text) : Option Int :=
  match Json.NumberLiteral.scan? t with
  | some (l, []) => if l.fraction.isNone && l.exponent.isNone then some l.toInt else none
  | _ => none

/-- How many characters the plainest form of an integer may have. -/
def maxLength : Nat := 4300

/-- The text starts with an integer in its plainest form that is too long. -/
def startsTooLong (t : Text) : Bool :=
  let (sign, rest) := splitMinus t
  let digits := rest.takeWhile Char.isDigit
  digits.head? != some '0' && maxLength < sign.length + digits.length

/-- The plainest form of the integer that a text writes, if it writes one. -/
def plainForm? (t : Text) : Option Text := do
  let (sign, rest) := splitMinus (← dropPlus (trim t))
  let digits ← dropUnderscores (dropFraction (← dropZeros rest))
  return sign ++ digits

/-- The integer that a text writes. A text that starts with too long an integer is out of
range, and one whose plainest form only is too long writes none. -/
def ofText (t : Text) : Except IntegerFault Int :=
  if startsTooLong t then .error .outOfRange
  else
    match plainForm? t with
    | none => .error .notWritten
    | some p =>
      if maxLength < p.length then .error .notWritten
      else ((plain? p).map .ok).getD (.error .notWritten)

/-- The integer that a double is. -/
def ofDouble : Double → Except IntegerFault Int
  | .infinite _ => .error .notFinite
  | .finite negative m q _ =>
    if m % Nat.pow 2 (-q).toNat = 0 then
      let n : Nat := m * Nat.pow 2 q.toNat / Nat.pow 2 (-q).toNat
      if n < Nat.pow 2 63 then .ok (if negative then -(n : Int) else n) else .error .outOfRange
    else .error .fraction

end Integer

end CollectionShell.Settings
