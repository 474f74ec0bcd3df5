import RowLiteral.Number.Power

/-!
# Double — numbers in double precision

A double is a NaN, an infinity or a finite number.  The finite numbers of one sign are the multiples
of `2 ^ -1074` that 53 bits can hold; they are counted from zero by their *rank*, which orders them
by size.  So every double has one representation, and a zero of either sign is the double of rank
zero.  Nothing here rounds: magnitudes are kept as `mantissa · 2 ^ exponent`.
-/

namespace RowLiteral

/-- The number of doubles of one sign that share an exponent, `2 ^ 52`. -/
def Double.binade : Nat := 4503599627370496

/-- The number of finite doubles of one sign. -/
def Double.finiteCount : Nat := 2047 * Double.binade

/-- A number in double precision. -/
inductive Double where
  | nan
  | infinity (negative : Bool)
  | finite (negative : Bool) (rank : Fin Double.finiteCount)
deriving DecidableEq, Repr

namespace Double
open Number

/-! ### Magnitudes -/

/-- The integer part of a magnitude: below `2 ^ 53`, and below `2 ^ 52` only for the least
exponent. -/
def mantissa (rank : Nat) : Nat := if rank < binade then rank else binade + rank % binade

/-- The exponent of a magnitude, from -1074 on. -/
def exponent (rank : Nat) : Int := if rank < binade then -1074 else (rank / binade : Nat) - 1075

/-- The rank of `mantissa · 2 ^ exponent`. -/
def rankOf (mantissa : Nat) (exponent : Int) : Nat := (exponent + 1074).toNat * binade + mantissa

/-- The double with a rank: beyond the greatest one there is infinity. -/
def ofRank (negative : Bool) (rank : Nat) : Double :=
  if h : rank < finiteCount then .finite negative ⟨rank, h⟩ else .infinity negative

/-- Zero. -/
def zero : Double := ofRank false 0

/-- One. -/
def one : Double := ofRank false (rankOf binade (-52))

/-! ### Whole numbers -/

/-- The number `m · 2 ^ e`, if it is whole; `none` where it is a fraction. -/
def wholeScaled? (m : Nat) (e : Int) : Option Nat :=
  if 0 ≤ e then some (m * twoPow e.toNat)
  else if m % twoPow (-e).toNat = 0 then some (m / twoPow (-e).toNat)
  else none

/-- The integer that a double is; `none` for a fraction, an infinity and a NaN. -/
def toInt? : Double → Option Int
  | .nan | .infinity _ => none
  | .finite negative r =>
    (wholeScaled? (mantissa r) (exponent r)).map fun n => if negative then -(n : Int) else n

/-- The double without its fraction; infinities and NaN count as zero. -/
def truncate : Double → Int
  | .nan | .infinity _ => 0
  | .finite negative r =>
    let m := mantissa r
    let e := exponent r
    let n := if 0 ≤ e then m * twoPow e.toNat else m / twoPow (-e).toNat
    if negative then -(n : Int) else n

/-- Neither a NaN nor an infinity. -/
def isFinite : Double → Bool
  | .finite _ _ => true
  | .nan | .infinity _ => false

/-- Zero of either sign. -/
def isZero : Double → Bool
  | .finite _ r => r.val == 0
  | .nan | .infinity _ => false

end Double

end RowLiteral
