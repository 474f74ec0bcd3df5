import RowLiteral.Double.Shortest

/-!
# Decimal — numbers of any precision

A decimal is a NaN, an infinity or a finite number `± coefficient · 10 ^ exponent`, kept without
trailing zeros so that equal numbers of one sign are one decimal.  Exponents are bounded: a number
whose first digit stands for more than `10 ^ 9·10¹⁵` is infinite, and one whose first digit stands
for less than `10 ^ -9·10¹⁵` is zero.  Powers of ten with such exponents are never written out.
-/

namespace RowLiteral
open Number

/-- A decimal number. -/
inductive Decimal where
  | nan
  | infinity (negative : Bool)
  | finite (negative : Bool) (coefficient : Nat) (exponent : Int)
      (stripped : Stripped coefficient exponent)
deriving DecidableEq

namespace Decimal

/-- The greatest size of the exponent of a first digit. -/
def exponentLimit : Int := 9000000000000000

/-- Zero, with a sign. -/
def zero (negative : Bool) : Decimal := .finite negative 0 0 rfl

/-- The decimal `± coefficient · 10 ^ exponent`, within the limits of exponents. -/
def ofScaled (negative : Bool) (coefficient : Nat) (exponent : Int) : Decimal :=
  let (c, e) := stripZeros coefficient exponent
  let first := e + (digitCount c - 1 : Nat)
  if c = 0 then zero negative
  else if exponentLimit < first then .infinity negative
  else if first < -exponentLimit then zero negative
  else .finite negative (stripZeros coefficient exponent).1 (stripZeros coefficient exponent).2
    (stripped_stripZeros coefficient exponent)

/-- The decimal that a numeral denotes. -/
def ofNumeral (n : Numeral) : Decimal := ofScaled n.negative n.coefficient n.exponent

/-- The decimal that has the digits of a double's shortest text. -/
def ofDouble : Double → Decimal
  | .nan => .nan
  | .infinity negative => .infinity negative
  | .finite negative r => ofScaled negative (Double.shortest r).1 (Double.shortest r).2

/-- The double nearest to a decimal. -/
def toDouble : Decimal → Double
  | .nan => .nan
  | .infinity negative => .infinity negative
  | .finite negative c e _ => Double.ofScaled negative c e

/-- The same number: two zeros are equal whatever their signs, and a NaN equals nothing. -/
def equals : Decimal → Decimal → Bool
  | .nan, _ | _, .nan => false
  | .finite s c e _, .finite s' c' e' _ => (c == 0 && c' == 0) || (s == s' && c == c' && e == e')
  | .infinity s, .infinity s' => s == s'
  | .infinity _, .finite _ _ _ _ | .finite _ _ _ _, .infinity _ => false

/-- The integer part, toward zero, of a number below `10 ^ bound` in size; `none` for any other. -/
def truncateBelow? (bound : Nat) : Decimal → Option Int
  | .nan | .infinity _ => none
  | .finite negative c e _ =>
    let first := e + (digitCount c - 1 : Nat)
    if first < 0 then some 0
    else if (bound : Int) ≤ first then none
    else some (signed negative (c * tenPow e.toNat / tenPow (-e).toNat))

end Decimal

end RowLiteral
