/-!
# Doubles

A double is a sign and a number `m · 2 ^ q` with `m` below `2 ^ 53`, or an infinity. Each
number has one form (`Double.Canonical`) : `m` has 53 bits unless `q` is the least exponent.

`Double.ofRatio` rounds a quotient to the nearest double, a half going to the even one, and
`Double.ofDecimal` rounds `n · 10 ^ e`. Both go to an infinity where the rounded number
would need an exponent beyond the greatest.
-/

namespace CollectionShell

/-- The single form of a finite double `m · 2 ^ q`. -/
def Double.Canonical (m : Nat) (q : Int) : Prop :=
  m < Nat.pow 2 53 ∧ -1074 ≤ q ∧ q ≤ 971 ∧ (Nat.pow 2 52 ≤ m ∨ q = -1074)

instance (m : Nat) (q : Int) : Decidable (Double.Canonical m q) :=
  inferInstanceAs (Decidable (_ ∧ _ ∧ _ ∧ _))

/-- A double-precision number. -/
inductive Double
  /-- The number `m · 2 ^ q` with a sign; zero has two. -/
  | finite (negative : Bool) (m : Nat) (q : Int) (canonical : Double.Canonical m q)
  /-- The infinity of a sign. -/
  | infinite (negative : Bool)
  deriving DecidableEq

namespace Double

/-- The zero of a sign. -/
def zero (negative : Bool) : Double := .finite negative 0 (-1074) (by decide)

/-- The quotient `a / b` rounded to an integer, a half to the even neighbour. -/
def divEven (a b : Nat) : Nat :=
  if 2 * (a % b) < b then a / b
  else if b < 2 * (a % b) then a / b + 1
  else a / b + a / b % 2

/-- The exponent `e` with `2 ^ e ≤ a / b < 2 ^ (e + 1)`, for positive `a` and `b`. -/
def floorLog (a b : Nat) : Int :=
  let e : Int := (a.log2 : Int) - b.log2
  if b * Nat.pow 2 e.toNat ≤ a * Nat.pow 2 (-e).toNat then e else e - 1

/-- The quotient `a / b` in units of `2 ^ q`, rounded to the nearest. -/
def unitsOf (a b : Nat) (q : Int) : Nat :=
  divEven (a * Nat.pow 2 (-q).toNat) (b * Nat.pow 2 q.toNat)

/-- The double nearest to `a / b` with a sign, of two equally near ones the even one. -/
def ofRatio (negative : Bool) (a b : Nat) : Double :=
  if a = 0 then zero negative
  else
    let q := max (floorLog a b - 52) (-1074)
    let m := unitsOf a b q
    if h : Canonical m q then .finite negative m q h
    else if h : Canonical (m / 2) (q + 1) then .finite negative (m / 2) (q + 1) h
    else .infinite negative

/-- The double nearest to `n · 10 ^ e` with a sign. An exponent above 400 is beyond every
double, and a number below `2 ^ (-1080)` is nearer to zero than to any other. -/
def ofDecimal (negative : Bool) (n : Nat) (e : Int) : Double :=
  if n = 0 then zero negative
  else if 400 < e then .infinite negative
  else if n.log2 + 1081 < 3 * (-e).toNat then zero negative
  else ofRatio negative (n * Nat.pow 10 e.toNat) (Nat.pow 10 (-e).toNat)

/-- The sign of a double. -/
def isNegative : Double → Bool
  | .finite negative .. => negative
  | .infinite negative => negative

/-- The double is no infinity. -/
def isFinite : Double → Bool
  | .finite .. => true
  | .infinite _ => false

end Double

end CollectionShell
