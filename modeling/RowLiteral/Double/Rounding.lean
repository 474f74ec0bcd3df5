import RowLiteral.Double.Basic
import RowLiteral.Number.Numeral

/-!
# Double — rounding

A positive ratio is rounded to the nearest number of a binary format, a tie to the even mantissa.
The double precision has mantissas of 53 bits and exponents from -1074 on, the single precision 24
bits and exponents from -149 on.  A number too large for its format becomes infinite.
-/

namespace RowLiteral
open Number

/-- A binary format: its mantissas have at most `precision` bits, its exponents are at least
`leastExponent`, and its numbers lie below `2 ^ ceiling`. -/
structure BinaryFormat where
  precision : Nat
  leastExponent : Int
  ceiling : Nat

namespace BinaryFormat

/-- Double precision. -/
def double : BinaryFormat := ⟨53, -1074, 1024⟩

/-- Single precision. -/
def single : BinaryFormat := ⟨24, -149, 128⟩

/-- The quotient `num / den` rounded to the nearest integer, a tie to the even one. -/
def roundDiv (num den : Nat) : Nat :=
  let q := num / den
  let r := num % den
  if 2 * r < den then q
  else if den < 2 * r then q + 1
  else q + q % 2

/-- The exponent `k` with `2 ^ k ≤ num / den < 2 ^ (k + 1)`, for positive `num` and `den`. -/
def floorLog2 (num den : Nat) : Int :=
  let k : Int := (num.log2 : Int) - (den.log2 : Int)
  if num * twoPow (-k).toNat < den * twoPow k.toNat then k - 1 else k

/-- The mantissa and the exponent nearest to `num / den`. -/
def round (f : BinaryFormat) (num den : Nat) : Nat × Int :=
  let e := max f.leastExponent (floorLog2 num den - (f.precision - 1 : Nat))
  (roundDiv (num * twoPow (-e).toNat) (den * twoPow e.toNat), e)

/-- Whether `m · 2 ^ e` lies beyond the numbers of the format. -/
def overflows (f : BinaryFormat) (m : Nat) (e : Int) : Bool :=
  m ≠ 0 && (f.ceiling : Int) ≤ m.log2 + e

end BinaryFormat

namespace Double

/-- The double nearest to `± num / den`. -/
def ofRatio (negative : Bool) (num den : Nat) : Double :=
  if num = 0 then ofRank negative 0
  else
    let (m, e) := BinaryFormat.double.round num den
    ofRank negative (rankOf m e)

/-- The double nearest to an integer. -/
def ofInt (n : Int) : Double := ofRatio (decide (n < 0)) n.natAbs 1

/-- The exponents outside of which a decimal number is infinite or zero as a double. -/
def decimalReach : Int := 400

/-- The double nearest to `± coefficient · 10 ^ exponent`. -/
def ofScaled (negative : Bool) (coefficient : Nat) (exponent : Int) : Double :=
  if coefficient = 0 then ofRank negative 0
  else
    let first := exponent + (digitCount coefficient - 1 : Nat)
    if decimalReach < first then .infinity negative
    else if first < -decimalReach then ofRank negative 0
    else ofRatio negative (coefficient * tenPow exponent.toNat) (tenPow (-exponent).toNat)

/-- The double nearest to a numeral. -/
def ofNumeral (n : Numeral) : Double := ofScaled n.negative n.coefficient n.exponent

/-- The nearest number of single precision, as a double. -/
def toSingle : Double → Double
  | .nan => .nan
  | .infinity negative => .infinity negative
  | .finite negative r =>
    if r.val = 0 then .finite negative r
    else
      let m := mantissa r
      let e := exponent r
      let (m', e') := BinaryFormat.single.round (m * twoPow e.toNat) (twoPow (-e).toNat)
      if BinaryFormat.single.overflows m' e' then .infinity negative
      else ofRatio negative (m' * twoPow e'.toNat) (twoPow (-e').toNat)

end Double

end RowLiteral
