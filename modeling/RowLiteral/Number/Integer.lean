import RowLiteral.Decimal.Text

/-!
# Number — integers from text

An integer within bounds is read in one of two ways.  Digits with an optional sign are taken as they
stand.  Any other numeral is taken as a decimal and loses its fraction; it is compared with the
bounds before it is written out, so a large exponent costs nothing.
-/

namespace RowLiteral.Number
open RowLiteral.Text

/-- The integers from `least` to `greatest`. -/
structure Range where
  least : Int
  greatest : Int
deriving DecidableEq, Repr

namespace Range

/-- The signed 32-bit range. -/
def int32 : Range := ⟨-2147483648, 2147483647⟩

/-- The signed 64-bit range. -/
def int64 : Range := ⟨-9223372036854775808, 9223372036854775807⟩

/-- An integer that lies in the range. -/
def keep? (r : Range) (n : Int) : Option Int :=
  if r.least ≤ n && n ≤ r.greatest then some n else none

/-- More digits than any integer of a range has. -/
def digitBound (r : Range) : Nat := max (digitCount r.least.natAbs) (digitCount r.greatest.natAbs)

/-- The integer of the range that an exact text spells. -/
def integerOfChars? (r : Range) (cs : List Char) : Option Int :=
  match integer? cs with
  | some n => r.keep? n
  | none => (Decimal.ofChars? cs).bind fun d => (d.truncateBelow? r.digitBound).bind r.keep?

/-- The integer of the range that a text spells. -/
def integerOfText? (r : Range) (s : String) : Option Int := r.integerOfChars? (trimChars s.toList)

end Range

end RowLiteral.Number
