import CollectionShell.Json.Basic
import CollectionShell.Json.Fault

/-!
# JSON strings

What stands between the quotation marks of a string literal. A backslash starts an escape;
escapes by number denote code units, and the units of a surrogate pair that stand next to
each other are one code point.
-/

namespace CollectionShell.Json

/-- What a letter behind a backslash stands for. -/
def escapeOf? (c : Char) : Option CodePoint :=
  if c = '\x22' then some (CodePoint.ofNat 0x22)
  else if c = '\\' then some (CodePoint.ofNat 0x5C)
  else if c = '/' then some (CodePoint.ofNat 0x2F)
  else if c = 'b' then some (CodePoint.ofNat 0x08)
  else if c = 'f' then some (CodePoint.ofNat 0x0C)
  else if c = 'n' then some (CodePoint.ofNat 0x0A)
  else if c = 'r' then some (CodePoint.ofNat 0x0D)
  else if c = 't' then some (CodePoint.ofNat 0x09)
  else none

/-- The value of a hexadecimal digit of either case. -/
def hexDigit? (c : Char) : Option Nat :=
  if '0' ≤ c ∧ c ≤ '9' then some (c.toNat - 48)
  else if 'a' ≤ c ∧ c ≤ 'f' then some (c.toNat - 87)
  else if 'A' ≤ c ∧ c ≤ 'F' then some (c.toNat - 55)
  else none

/-- The code unit of four hexadecimal digits. -/
def codeUnit? (a b c d : Char) : Option CodePoint := do
  let a ← hexDigit? a
  let b ← hexDigit? b
  let c ← hexDigit? c
  let d ← hexDigit? d
  return CodePoint.ofNat (((a * 16 + b) * 16 + c) * 16 + d)

/-- The code units up to the closing mark, and what follows it. `start` characters are left
from the opening mark on. A code unit by number must be followed by one more character. -/
def scanUnits (start : Nat) : Text → Except Fault (List CodePoint × Text)
  | [] => .error (.located .unterminated start)
  | c :: rest =>
    if c = '\x22' then .ok ([], rest)
    else if c = '\\' then
      match rest with
      | [] => .error (.located .unterminated start)
      | e :: more =>
        if e = 'u' then
          match more with
          | h₁ :: h₂ :: h₃ :: h₄ :: x :: tail =>
            match codeUnit? h₁ h₂ h₃ h₄ with
            | some p => (scanUnits start (x :: tail)).map fun r => (p :: r.1, r.2)
            | none => .error (.located .numericEscape rest.length)
          | _ => .error (.located .numericEscape rest.length)
        else
          match escapeOf? e with
          | some p => (scanUnits start more).map fun r => (p :: r.1, r.2)
          | none => .error (.located .escape (rest.length + 1))
    else if c.toNat < 0x20 then .error (.located .control (rest.length + 1))
    else (scanUnits start rest).map fun r => (CodePoint.ofChar c :: r.1, r.2)

/-- The string behind an opening mark, and what follows its closing mark. -/
def scanString (t : Text) : Except Fault (List CodePoint × Text) :=
  (scanUnits (t.length + 1) t).map fun r => (CodePoint.joinPairs r.1, r.2)

end CollectionShell.Json
