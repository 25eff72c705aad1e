import CollectionShell.Double.Basic
import CollectionShell.Text.Basic

/-!
# Shortest decimals

`Double.shortest` writes a positive double with the fewest digits that read back as it. For
one digit, two, and so on to seventeen, the two decimals with that many digits around the
double are tried; the first count with one that reads back is taken, of two such decimals
the nearer, of two equally near ones the even.
-/

namespace CollectionShell

/-- The number `n · 10 ^ e`. -/
structure Decimal where
  /-- The digits. -/
  n : Nat
  /-- The exponent of the last digit. -/
  e : Int
  deriving DecidableEq, Repr

namespace Double

/-- The positive number `m · 2 ^ q` as a quotient. -/
def ratio (m : Nat) (q : Int) : Nat × Nat := (m * Nat.pow 2 q.toNat, Nat.pow 2 (-q).toNat)

/-- The decimal exponent of the leading digit of `a / b`, which is at least `10 ^ (-400)`. -/
def leadingExponent (a b : Nat) : Int :=
  ((Text.ofNat (a * Nat.pow 10 400 / b)).length : Int) - 401

/-- Among the multiples of `10 ^ e` next to `a / b`, the one that reads back as the double
`x` and is nearest, if one does. -/
def neighbour? (x : Double) (a b : Nat) (e : Int) : Option Decimal :=
  let top := a * Nat.pow 10 (-e).toNat
  let bottom := b * Nat.pow 10 e.toNat
  let below := top / bottom
  let readsBack (n : Nat) : Bool := ofDecimal false n e = x
  match readsBack below, readsBack (below + 1) with
  | true, true => some ⟨divEven top bottom, e⟩
  | true, false => some ⟨below, e⟩
  | false, true => some ⟨below + 1, e⟩
  | false, false => none

/-- The shortest decimal that reads back as the positive double `m · 2 ^ q`. -/
def shortest (x : Double) (m : Nat) (q : Int) : Decimal :=
  let (a, b) := ratio m q
  let lead := leadingExponent a b
  ((List.range 17).findSome? fun (k : Nat) => neighbour? x a b (lead - k)).getD ⟨m, q⟩

end Double

end CollectionShell
