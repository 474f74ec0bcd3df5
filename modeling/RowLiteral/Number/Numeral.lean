import RowLiteral.Number.Power

/-!
# Number — numerals

The grammar of numbers in text: an optional sign, digits with an optional point, at least one digit
on some side of it, and an optional exponent.  A *numeral* is the number that such a text denotes,
`± coefficient · 10 ^ exponent`, kept exactly and as written.
-/

namespace RowLiteral.Number

/-- A number in decimal notation, `± coefficient · 10 ^ exponent`. -/
structure Numeral where
  negative : Bool
  coefficient : Nat
  exponent : Int
deriving DecidableEq, Repr

/-- The value of a decimal digit. -/
def digitValue (c : Char) : Nat := c.toNat - '0'.toNat

/-- The number that a sequence of decimal digits denotes. -/
def ofDigits (cs : List Char) : Nat := cs.foldl (fun n c => 10 * n + digitValue c) 0

/-- The decimal digits of a number. -/
def digits (n : Nat) : List Char := Nat.toDigits 10 n

/-- The number of decimal digits of a number; zero has one. -/
def digitCount (n : Nat) : Nat := (digits n).length

/-- Takes at most `fuel` trailing zeros off a coefficient and adds them to the exponent. -/
def stripZerosFrom : Nat → Nat → Int → Nat × Int
  | 0, c, e => (c, e)
  | fuel + 1, c, e => if c % 10 = 0 then stripZerosFrom fuel (c / 10) (e + 1) else (c, e)

/-- The same number with no trailing zeros in its coefficient; zero has the exponent zero. -/
def stripZeros (c : Nat) (e : Int) : Nat × Int := if c = 0 then (0, 0) else stripZerosFrom c c e

/-- A coefficient has no trailing zeros, and zero has the exponent zero. -/
def Stripped (c : Nat) (e : Int) : Prop := if c = 0 then e = 0 else c % 10 ≠ 0

theorem stripZerosFrom_mod {fuel c : Nat} {e : Int} (pos : 0 < c) (le : c ≤ fuel) :
    0 < (stripZerosFrom fuel c e).1 ∧ (stripZerosFrom fuel c e).1 % 10 ≠ 0 := by
  induction fuel generalizing c e with
  | zero => omega
  | succ fuel ih =>
    unfold stripZerosFrom
    split
    · exact ih (by omega) (by omega)
    · exact ⟨pos, ‹_›⟩

theorem stripped_stripZeros (c : Nat) (e : Int) :
    Stripped (stripZeros c e).1 (stripZeros c e).2 := by
  unfold stripZeros
  split
  · simp [Stripped]
  · have := stripZerosFrom_mod (e := e) (Nat.pos_of_ne_zero ‹_›) (Nat.le_refl c)
    simp only [Stripped]
    split
    · omega
    · exact this.2

/-- A sign, if there is one, and what follows; `true` for minus. -/
def readSign : List Char → Bool × List Char
  | '-' :: cs => (true, cs)
  | '+' :: cs => (false, cs)
  | cs => (false, cs)

/-- A number with its sign. -/
def signed (negative : Bool) (n : Nat) : Int := if negative then -(n : Int) else n

/-- An integer in digits, with an optional sign, that takes up the whole text. -/
def integer? (cs : List Char) : Option Int :=
  let (negative, ds) := readSign cs
  if ds ≠ [] && ds.all Char.isDigit then some (signed negative (ofDigits ds)) else none

/-- The exponent that ends a numeral: nothing, or `e` and an integer. -/
def exponent? : List Char → Option Int
  | [] => some 0
  | c :: cs => if c = 'e' || c = 'E' then integer? cs else none

/-- The digits before the point, those after it, and what follows them. -/
def readMantissa (cs : List Char) : List Char × List Char × List Char :=
  let whole := cs.takeWhile Char.isDigit
  match cs.dropWhile Char.isDigit with
  | '.' :: rest => (whole, rest.takeWhile Char.isDigit, rest.dropWhile Char.isDigit)
  | rest => (whole, [], rest)

/-- The numeral that a text without a sign spells. -/
def unsigned? (negative : Bool) (cs : List Char) : Option Numeral :=
  let (whole, fraction, rest) := readMantissa cs
  if whole = [] && fraction = [] then none
  else (exponent? rest).map fun e =>
    ⟨negative, ofDigits (whole ++ fraction), e - fraction.length⟩

/-- The numeral that a text spells. -/
def numeral? (cs : List Char) : Option Numeral :=
  let (negative, rest) := readSign cs
  unsigned? negative rest

end RowLiteral.Number
