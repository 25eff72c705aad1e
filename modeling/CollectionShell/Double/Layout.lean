import CollectionShell.Double.Shortest

/-!
# The text of a double

A `Decimal.Layout` holds the choices of a number format, and `Double.write` follows one. The
library has two, which differ in how they write an infinity.
-/

namespace CollectionShell

/-- The choices of a number format. -/
structure Decimal.Layout where
  /-- The least leading exponent that is written positionally. -/
  least : Int
  /-- The first leading exponent above that is written with an exponent again. -/
  limit : Int
  /-- The least number of digits of a written exponent. -/
  exponentWidth : Nat
  /-- The text of infinity. -/
  infinity : Text

/-- Numbers from `0.0001` up to, not including, `10 ^ 16` are positional, exponents have at
least two digits, and infinity is a short word. -/
def Decimal.shown : Decimal.Layout := ⟨-4, 16, 2, ['i', 'n', 'f']⟩

/-- As `Decimal.shown`, with infinity as a whole word. -/
def Decimal.printed : Decimal.Layout := { Decimal.shown with infinity := Text.ofString "Infinity" }

namespace Decimal

/-- The digits without the zeros at their end. -/
def significant (n : Nat) : Text := ((Text.ofNat n).reverse.dropWhile (· == '0')).reverse

/-- Digits written positionally with a point, `lead` being the exponent of the first. -/
def positional (digits : Text) (lead : Int) : Text :=
  if lead < 0 then '0' :: '.' :: List.replicate (-lead - 1).toNat '0' ++ digits
  else
    let whole := lead.toNat + 1
    if digits.length ≤ whole then
      digits ++ List.replicate (whole - digits.length) '0' ++ ['.', '0']
    else digits.take whole ++ '.' :: digits.drop whole

/-- Digits written with an exponent, `lead` being that of the first, which stands in front of
the point. -/
def scientific (width : Nat) (digits : Text) (lead : Int) : Text :=
  let exponent := Text.ofNat lead.natAbs
  digits.take 1 ++ (if digits.length ≤ 1 then [] else '.' :: digits.drop 1) ++
    'e' :: (if lead < 0 then '-' else '+') ::
      List.replicate (width - exponent.length) '0' ++ exponent

/-- The text of a positive decimal. -/
def write (layout : Layout) (d : Decimal) : Text :=
  let digits := significant d.n
  let lead := d.e + (Text.ofNat d.n).length - 1
  if layout.least ≤ lead ∧ lead < layout.limit then positional digits lead
  else scientific layout.exponentWidth digits lead

end Decimal

/-- The text of a double. -/
def Double.write (layout : Decimal.Layout) (x : Double) : Text :=
  let sign := if x.isNegative then ['-'] else []
  match x with
  | .infinite _ => sign ++ layout.infinity
  | .finite _ m q h =>
    if m = 0 then sign ++ ['0', '.', '0']
    else sign ++ (Double.shortest (.finite false m q h) m q).write layout

end CollectionShell
