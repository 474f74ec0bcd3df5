import RowLiteral.Text.Units

/-!
# Text — hash

The polynomial hash in base 31, kept in the signed 32-bit range: a sequence `c₀, …, cₙ₋₁` after a
seed `s` has the signed 32-bit residue of `s·31ⁿ + Σ cᵢ·31ⁿ⁻¹⁻ⁱ`.
-/

namespace RowLiteral.Text

/-- The number of the signed 32-bit range that is congruent to `n`. -/
def wrap32 (n : Int) : Int := n.bmod 4294967296

/-- One step of the hash: shift by 31 and add. -/
def mix (hash next : Int) : Int := wrap32 (31 * hash + next)

/-- The hash of a sequence of numbers after a seed. -/
def hashFrom (seed : Int) (ns : List Int) : Int := ns.foldl mix seed

/-- The hash of the units of a text. -/
def hashText (s : String) : Int := hashFrom 0 ((units s).map Int.ofNat)

/-- The hash of a sequence of bytes; it starts from one, so that leading zeros count. -/
def hashBytes (bs : List UInt8) : Int := hashFrom 1 (bs.map fun b => (b.toNat : Int))

end RowLiteral.Text
