/-!
# Number — powers

The powers of two and of ten, the bases of the numbers that are read and written here.
-/

namespace RowLiteral.Number

/-- The power `2 ^ n`. -/
def twoPow (n : Nat) : Nat := Nat.pow 2 n

/-- The power `10 ^ n`. -/
def tenPow (n : Nat) : Nat := Nat.pow 10 n

end RowLiteral.Number
