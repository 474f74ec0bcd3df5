import RowLiteral.Double.Rounding

/-!
# Double — shortest decimal

The decimal number with the fewest digits that reads back as a given double.  The numbers that round
to a double form an interval around it, which has its ends iff the mantissa is even.  For one digit,
two digits and so on, the two neighbours of the double on the grid of that many digits are looked
at; the first grid with a neighbour in the interval wins, and of two such neighbours the nearer one,
the even one in a tie.  Seventeen digits are always enough.
-/

namespace RowLiteral.Double
open RowLiteral.Number

/-- The numbers that round to a double, in quarters of the unit `2 ^ exponent`. -/
structure Span where
  low : Nat
  high : Nat
  closed : Bool
deriving DecidableEq, Repr

/-- The span of the double with a rank.  Below a power of two the doubles stand closer. -/
def span (rank : Nat) : Span :=
  let m := mantissa rank
  let below := if m = binade && 2 * binade ≤ rank then 1 else 2
  ⟨4 * m - below, 4 * m + 2, m % 2 = 0⟩

/-- The exponent `k` with `10 ^ k ≤ num / den < 10 ^ (k + 1)`, for positive `num` and `den`. -/
def floorLog10 (num den : Nat) : Int :=
  let k : Int := (digitCount num : Int) - (digitCount den : Int)
  if num * tenPow (-k).toNat < den * tenPow k.toNat then k - 1 else k

/-- The multiple of `10 ^ grid` that is taken for the double with a rank, in units of the grid:
a neighbour of the double on that grid that lies in its span. -/
def onGrid? (rank : Nat) (grid : Int) : Option Nat :=
  let m := mantissa rank
  let e := exponent rank - 2
  let s := span rank
  let num := twoPow e.toNat * tenPow (-grid).toNat
  let den := twoPow (-e).toNat * tenPow grid.toNat
  let inside := fun c =>
    if s.closed then s.low * num ≤ c * den && c * den ≤ s.high * num
    else s.low * num < c * den && c * den < s.high * num
  let down := 4 * m * num / den
  let up := down + 1
  let toDown := 4 * m * num - down * den
  let toUp := up * den - 4 * m * num
  if inside down && inside up then
    some (if toDown < toUp then down else if toUp < toDown then up else down + down % 2)
  else if inside down then some down
  else if inside up then some up
  else none

/-- The first hit on the grids of one digit, two digits and so on, and the exponent of its grid. -/
def firstHit? (rank : Nat) (top : Int) : Option (Nat × Int) :=
  (List.range 18).findSome? fun (more : Nat) =>
    (onGrid? rank (top - more)).map fun c => (c, top - more)

/-- The shortest decimal of the double with a rank: a coefficient without trailing zeros, and the
exponent of ten. -/
def shortest (rank : Nat) : Nat × Int :=
  let m := mantissa rank
  let e := exponent rank
  let top := floorLog10 (m * twoPow e.toNat) (twoPow (-e).toNat)
  let (c, grid) := (firstHit? rank top).getD (0, 0)
  stripZeros c grid

end RowLiteral.Double
