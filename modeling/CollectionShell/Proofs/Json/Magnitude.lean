import CollectionShell.Json.Number
import CollectionShell.Proofs.Double.Rounding
import Mathlib.Data.List.Induction
import Mathlib.Data.Nat.Digits.Defs

/-!
# The numbers of literals

Digits denote a number by their places (`numberOf`), which is what the reader sums up from the left
on (`natOf_eq`). A literal without a fraction and an exponent denotes the integer of its digits
(`toInt_eq`). Any literal denotes the number that its digits give on both sides of the point, moved
by its exponent (`magnitude`), and its double is that number rounded (`rounds_toDouble`).
-/

namespace CollectionShell.Json.NumberLiteral

/-- The number that digits denote in base ten, the last of them in the lowest place. -/
def numberOf (ds : Text) : ℕ := Nat.ofDigits 10 (ds.reverse.map fun c => c.toNat - '0'.toNat)

/-- The integer that the digits in front of the point denote with the sign. -/
def integer (l : NumberLiteral) : ℤ :=
  if l.negative then -(numberOf l.whole : ℤ) else numberOf l.whole

/-- The exponent of a literal, and zero without one. -/
def power (l : NumberLiteral) : ℤ :=
  match l.exponent with
  | none => 0
  | some (true, ds) => -(numberOf ds : ℤ)
  | some (false, ds) => numberOf ds

/-- The digits behind the point, if there are any. -/
def decimals (l : NumberLiteral) : Text := l.fraction.getD []

/-- The number that a literal denotes, without its sign. -/
def magnitude (l : NumberLiteral) : ℚ :=
  (numberOf l.whole + numberOf l.decimals / 10 ^ l.decimals.length) * 10 ^ l.power

/-- Summing digits up from the left on gives each the weight of its place. -/
theorem natOf_eq (ds : Text) : natOf ds = numberOf ds := by
  induction ds using List.reverseRecOn with
  | nil => rfl
  | append_singleton ds c ih =>
    rw [natOf, Nat.ofDigitChars_append, Nat.ofDigitChars_cons, Nat.ofDigitChars_nil, ← natOf, ih,
      numberOf, numberOf, List.reverse_append, List.reverse_singleton, List.singleton_append,
      List.map_cons, Nat.ofDigits_cons]
    omega

theorem toInt_eq (l : NumberLiteral) : l.toInt = l.integer := by
  rw [toInt, natOf_eq, integer]

theorem natOf_append (ds es : Text) :
    natOf (ds ++ es) = natOf ds * 10 ^ es.length + natOf es := by
  rw [natOf, Nat.ofDigitChars_append, Nat.ofDigitChars_eq_ofDigitChars_zero, Nat.mul_comm]
  rfl

theorem toDouble_eq (l : NumberLiteral) :
    l.toDouble =
      Double.ofDecimal l.negative (natOf (l.whole ++ l.decimals)) (l.power - l.decimals.length) := by
  have hpower : (match l.exponent with
      | none => 0
      | some (true, ds) => -(natOf ds : ℤ)
      | some (false, ds) => natOf ds) = l.power := by
    simp only [power, natOf_eq]
  rw [← hpower]
  rfl

theorem magnitude_eq (l : NumberLiteral) :
    l.magnitude = natOf (l.whole ++ l.decimals) * 10 ^ (l.power - l.decimals.length : Int) := by
  rw [magnitude, natOf_append, zpow_sub₀ (by norm_num), zpow_natCast, natOf_eq, natOf_eq]
  push_cast
  field_simp

/-- The double of a literal is the number that it denotes, rounded. -/
theorem rounds_toDouble (l : NumberLiteral) :
    Double.Rounds l.negative l.magnitude l.toDouble := by
  rw [toDouble_eq, magnitude_eq]
  exact Double.rounds_ofDecimal _ _ _

end CollectionShell.Json.NumberLiteral
