import CollectionShell.Text.Basic

/-!
# Code points

A decoded string is a list of code points, for an escape may denote half of a surrogate pair
that has no other half, and such a half is no character. `joinPairs` puts the two halves of
a pair together where they meet. A list of characters comes back from its code points
(`toChar?_ofChar`).
-/

namespace CollectionShell

/-- A code point, surrogates included. -/
abbrev CodePoint := Fin 0x110000

namespace CodePoint

theorem toNat_lt_of_char (c : Char) : c.toNat < 0x110000 := by
  rcases c.valid with h | h
  · exact Nat.lt_trans h (by decide)
  · exact h.2

/-- The code point of a character. -/
def ofChar (c : Char) : CodePoint := ⟨c.toNat, toNat_lt_of_char c⟩

/-- The code point of a number below `0x110000`, and the replacement character otherwise. -/
def ofNat (n : Nat) : CodePoint := if h : n < 0x110000 then ⟨n, h⟩ else ⟨0xFFFD, by decide⟩

/-- The character of a code point, surrogates having none. -/
def toChar? (p : CodePoint) : Option Char :=
  if p.val.isValidChar then some (Char.ofNat p.val) else none

theorem toChar?_ofChar (c : Char) : (ofChar c).toChar? = some c := by
  have h : c.toNat.isValidChar := c.valid
  simp [toChar?, ofChar, h]

/-- The code points of a text. -/
def ofText (t : Text) : List CodePoint := t.map ofChar

/-- The code points of a string literal. -/
def ofString (s : String) : List CodePoint := ofText s.toList

/-- The first half of a surrogate pair. -/
def isHigh (p : CodePoint) : Bool := 0xD800 ≤ p.val && p.val ≤ 0xDBFF

/-- The second half of a surrogate pair. -/
def isLow (p : CodePoint) : Bool := 0xDC00 ≤ p.val && p.val ≤ 0xDFFF

/-- The code point that a surrogate pair denotes. -/
def ofPair (high low : CodePoint) : CodePoint :=
  ofNat (0x10000 + (high.val - 0xD800) * 0x400 + (low.val - 0xDC00))

/-- Puts a code point in front, as one with the first half of the pair that it completes. -/
def consPair (p : CodePoint) : List CodePoint → List CodePoint
  | [] => [p]
  | q :: rest => if p.isHigh && q.isLow then ofPair p q :: rest else p :: q :: rest

/-- Puts neighbouring halves of surrogate pairs together and leaves lone halves. -/
def joinPairs (points : List CodePoint) : List CodePoint := points.foldr consPair []

end CodePoint

end CollectionShell
