import RowLiteral.Number.Numeral

/-!
# Number — layout

How the digits of a number are laid out in text.  A number whose first digit stands for `10 ^ e` is
written positionally for `-7 < e < 21`, without a point where it is whole, and otherwise with one
digit before the point and a signed exponent.
-/

namespace RowLiteral.Number

/-- Which numbers are written positionally. -/
structure LayoutRule where
  /-- The greatest exponent of a first digit that is written positionally. -/
  greatest : Int
  /-- The least one. -/
  least : Int

/-- Numbers from `10 ^ -6` up to, but not including, `10 ^ 21` are written positionally. -/
def layoutRule : LayoutRule := ⟨20, -6⟩

/-- The digit zero, `n` times. -/
def zeros (n : Nat) : List Char := List.replicate n '0'

/-- An exponent with its sign. -/
def exponentText (e : Int) : List Char :=
  'e' :: (if e < 0 then '-' else '+') :: digits e.natAbs

/-- The digits with a point after the first one, where there are more. -/
def pointAfterFirst : List Char → List Char
  | [] => []
  | [d] => [d]
  | d :: ds => d :: '.' :: ds

/-- The text of a number given by its digits and the exponent of the first one. -/
def layoutDigits (ds : List Char) (e : Int) : List Char :=
  if layoutRule.greatest < e || e < layoutRule.least then
    pointAfterFirst ds ++ exponentText e
  else if e < 0 then
    '0' :: '.' :: zeros ((-e).toNat - 1) ++ ds
  else
    let whole := e.toNat + 1
    if ds.length ≤ whole then ds ++ zeros (whole - ds.length)
    else ds.take whole ++ '.' :: ds.drop whole

/-- The text of `coefficient · 10 ^ exponent`, for a coefficient without trailing zeros. -/
def layout (coefficient : Nat) (exponent : Int) : List Char :=
  if coefficient = 0 then ['0']
  else
    let ds := digits coefficient
    layoutDigits ds (exponent + (ds.length - 1))

/-- The text of a number with its sign; zero has none. -/
def signedLayout (negative : Bool) (coefficient : Nat) (exponent : Int) : List Char :=
  if negative && coefficient ≠ 0 then '-' :: layout coefficient exponent
  else layout coefficient exponent

end RowLiteral.Number
