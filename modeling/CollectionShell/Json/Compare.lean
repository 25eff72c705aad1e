import CollectionShell.Json.Basic

/-!
# Equality of values

`Json.same` compares values by what they are worth : numbers by the exact number, a truth
value counting as one or zero, strings by their code points, arrays element by element, and
objects without regard to the order of their members.
-/

namespace CollectionShell

/-- The number `mantissa · 2 ^ exponent`, or an infinity. -/
inductive Quantity
  | dyadic (mantissa exponent : Int)
  | infinite (negative : Bool)
  deriving DecidableEq, Repr

namespace Quantity

/-- Two quantities are the same number, compared at the smaller of the two exponents. -/
def same : Quantity → Quantity → Bool
  | .dyadic a d, .dyadic b e =>
    a * Nat.pow 2 (d - min d e).toNat == b * Nat.pow 2 (e - min d e).toNat
  | .infinite a, .infinite b => a == b
  | _, _ => false

/-- The number that a double is. -/
def ofDouble : Double → Quantity
  | .finite negative m q _ => .dyadic (if negative then -(m : Int) else m) q
  | .infinite negative => .infinite negative

end Quantity

namespace Json

/-- The number that a value is worth, if it is worth one. -/
def quantity? : Json → Option Quantity
  | .bool b => some (.dyadic (if b then 1 else 0) 0)
  | .int n => some (.dyadic n 0)
  | .float x => some (.ofDouble x)
  | _ => none

/-- Two values without parts are worth the same. -/
def sameScalar (v w : Json) : Bool :=
  match v, w with
  | .null, .null => true
  | .string s, .string t => s == t
  | v, w =>
    match v.quantity?, w.quantity? with
    | some a, some b => a.same b
    | _, _ => false

mutual

/-- Two values are worth the same. -/
def same : Json → Json → Bool
  | .array xs, w => match w with
    | .array ys => sameElements xs ys
    | _ => false
  | .object ms, w => match w with
    | .object ns => ms.length == ns.length && membersIn ms ns
    | _ => false
  | v, w => sameScalar v w

/-- Two lists of values are the same, element by element. -/
def sameElements : List Json → List Json → Bool
  | [], ys => ys.isEmpty
  | x :: xs, ys => match ys with
    | [] => false
    | y :: ys => same x y && sameElements xs ys

/-- Every member is among the others, with the same value. -/
def membersIn : List (Name × Json) → List (Name × Json) → Bool
  | [], _ => true
  | (k, v) :: ms, ns => match ns.lookup k with
    | some w => same v w && membersIn ms ns
    | none => false

end

end Json

end CollectionShell
