import CollectionShell.Json.Basic
import CollectionShell.Json.Fault

/-!
# JSON numbers

A number literal is an optional minus sign, a zero or digits that start with no zero, an
optional fraction and an optional exponent. `NumberLiteral.scan?` takes the longest literal
off the front of a text : a point or an exponent mark that no digit follows is left.
-/

namespace CollectionShell.Json

/-- The parts of a number literal. -/
structure NumberLiteral where
  /-- It starts with a minus sign. -/
  negative : Bool
  /-- The digits in front of the point. -/
  whole : Text
  /-- The digits behind the point, if there is one. -/
  fraction : Option Text
  /-- The sign and the digits of the exponent, if there is one. -/
  exponent : Option (Bool × Text)
  deriving DecidableEq, Repr

namespace NumberLiteral

/-- The digits at the front of a text and what follows them. -/
def digits (t : Text) : Text × Text := (t.takeWhile Char.isDigit, t.dropWhile Char.isDigit)

/-- A zero, or digits that start with no zero, and what follows. -/
def scanWhole? : Text → Option (Text × Text)
  | [] => none
  | c :: rest =>
    if c = '0' then some ([c], rest)
    else if c.isDigit then some (c :: (digits rest).1, (digits rest).2)
    else none

/-- A point with digits behind it, and what follows. -/
def scanFraction : Text → Option Text × Text
  | [] => (none, [])
  | c :: rest =>
    if c = '.' ∧ (digits rest).1 ≠ [] then (some (digits rest).1, (digits rest).2)
    else (none, c :: rest)

/-- The sign in front of an exponent's digits, and the rest. -/
def scanSign : Text → Bool × Text
  | [] => (false, [])
  | c :: rest => if c = '-' then (true, rest) else if c = '+' then (false, rest)
    else (false, c :: rest)

/-- An exponent mark with an optional sign and digits behind it, and what follows. -/
def scanExponent : Text → Option (Bool × Text) × Text
  | [] => (none, [])
  | c :: rest =>
    let signed := scanSign rest
    if (c = 'e' ∨ c = 'E') ∧ (digits signed.2).1 ≠ [] then
      (some (signed.1, (digits signed.2).1), (digits signed.2).2)
    else (none, c :: rest)

/-- The sign in front of a number, and the rest. -/
def scanMinus : Text → Bool × Text
  | [] => (false, [])
  | c :: rest => if c = '-' then (true, rest) else (false, c :: rest)

/-- The longest literal at the front of a text, and what follows it. -/
def scan? (t : Text) : Option (NumberLiteral × Text) := do
  let (negative, t) := scanMinus t
  let (whole, t) ← scanWhole? t
  let (fraction, t) := scanFraction t
  let (exponent, t) := scanExponent t
  return (⟨negative, whole, fraction, exponent⟩, t)

/-- The number that digits denote. -/
def natOf (ds : Text) : Nat := Nat.ofDigitChars 10 ds 0

/-- The double that a literal denotes. -/
def toDouble (l : NumberLiteral) : Double :=
  let fraction := l.fraction.getD []
  let exponent : Int := match l.exponent with
    | none => 0
    | some (true, ds) => -(natOf ds : Int)
    | some (false, ds) => natOf ds
  Double.ofDecimal l.negative (natOf (l.whole ++ fraction)) (exponent - fraction.length)

/-- The integer that the digits in front of the point denote. -/
def toInt (l : NumberLiteral) : Int :=
  if l.negative then -(natOf l.whole : Int) else natOf l.whole

/-- The value of a literal : an integer if it has neither a fraction nor an exponent. -/
def value (l : NumberLiteral) : Except Fault Json :=
  if l.fraction.isSome || l.exponent.isSome then .ok (.float l.toDouble)
  else if maxDigits < l.whole.length then .error (.tooManyDigits l.whole.length)
  else .ok (.int l.toInt)

end NumberLiteral

end CollectionShell.Json
