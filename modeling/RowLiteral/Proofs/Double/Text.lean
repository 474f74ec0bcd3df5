import RowLiteral.Double.Text
import RowLiteral.Proofs.Double.Shortest
import RowLiteral.Proofs.Double.Whole
import RowLiteral.Proofs.Number.Reading

/-!
# Double — the text of whole doubles

A double is written by its shortest decimal, which need not be the double itself.  For a whole
double it is a whole number at most one part in `2 ^ 53` away, and therefore the double itself if
that is below `2 ^ 53` in size.

* `exists_spells_toText`: the whole number that the text of a whole double spells.
-/

namespace RowLiteral.Double
open Number

variable {x : Double} {n : Int}

theorem spells_toText (negative : Bool) (r : Fin finiteCount) :
    Spells (finite negative r).toText (withSign negative (shown r)) :=
  spells_signedLayout negative (shortest r).1 (shortest r).2

/-- A finite double is below `2 ^ 1024` in size. -/
theorem magnitude_lt (r : Fin finiteCount) : magnitude r < 2 ^ (1024 : Int) := by
  have two : (2 : ℚ) ≠ 0 := by norm_num
  have one : (1 : ℚ) ≤ 2 := by norm_num
  have bits : (mantissa r : ℚ) < 2 ^ (53 : Int) := by exact_mod_cast mantissa_lt r
  have top : exponent r ≤ 971 := by
    have block : (r : Nat) / binade < 2047 :=
      Nat.div_lt_of_lt_mul (Nat.mul_comm 2047 binade ▸ r.isLt)
    rw [exponent]
    split <;> omega
  calc magnitude r = mantissa r * 2 ^ exponent r := rfl
    _ ≤ mantissa r * 2 ^ (971 : Int) :=
        mul_le_mul_of_nonneg_left (zpow_le_zpow_right₀ one top) (Nat.cast_nonneg _)
    _ < 2 ^ (53 : Int) * 2 ^ (971 : Int) := mul_lt_mul_of_pos_right bits (by positivity)
    _ = 2 ^ (1024 : Int) := by
        rw [← zpow_add₀ two]
        rfl

/-- Twice a whole double is far below the greatest decimal. -/
theorem two_mul_lt_of_whole {r : Fin finiteCount} {m : Nat}
    (whole : wholeScaled? (mantissa r) (exponent r) = some m) :
    (2 : ℚ) * m < 10 ^ (Decimal.exponentLimit + 1) := by
  have two : (2 : ℚ) ≠ 0 := by norm_num
  have ten : (1 : ℚ) ≤ 10 := by norm_num
  have bound := magnitude_lt r
  rw [magnitude_of_whole whole] at bound
  calc (2 : ℚ) * m < 2 * 2 ^ (1024 : Int) := mul_lt_mul_of_pos_left bound (by norm_num)
    _ = 2 ^ (1025 : Int) := (zpow_one_add₀ two 1024).symm
    _ ≤ 10 ^ (1025 : Int) := zpow_le_zpow_left₀ (by decide) (by norm_num) (by norm_num)
    _ ≤ 10 ^ (Decimal.exponentLimit + 1) := zpow_le_zpow_right₀ ten (by decide)

theorem natAbs_signed (negative : Bool) (n : Nat) : (signed negative n).natAbs = n := by
  cases negative with
  | false => rfl
  | true => exact Int.natAbs_neg n

theorem natAbs_signed_sub (negative : Bool) (k m : Nat) :
    (signed negative k - signed negative m).natAbs = ((k : Int) - m).natAbs := by
  cases negative with
  | false => rfl
  | true =>
      show (-(k : Int) - -(m : Int)).natAbs = ((k : Int) - m).natAbs
      omega

/-- **The text of a whole double spells a whole number that is at most one part in `2 ^ 53`
away.** -/
theorem exists_spells_toText (whole : x.toInt? = some n) :
    ∃ k : Int, Spells x.toText k ∧ (k - n).natAbs * 2 ^ 53 ≤ n.natAbs ∧
      |(k : ℚ)| < 10 ^ (Decimal.exponentLimit + 1) := by
  obtain ⟨negative, r, m, rfl, size, rfl⟩ := exists_of_toInt? whole
  obtain ⟨k, value⟩ := exists_shown_of_whole size
  have signs : withSign negative (shown r) = ((signed negative k : Int) : ℚ) := by
    rw [value, signed_eq_withSign, scaled_whole]
  have near : ((k : Int) - m).natAbs * 2 ^ 53 ≤ m := by
    have parts := abs_shown_sub_of_whole size
    rw [value] at parts
    have parts : |(k : Int) - m| * 2 ^ 53 ≤ m := by exact_mod_cast parts
    rw [Int.abs_eq_natAbs] at parts
    exact_mod_cast parts
  refine ⟨signed negative k, signs ▸ spells_toText negative r, ?_, ?_⟩
  · rw [natAbs_signed_sub, natAbs_signed]
    exact near
  · have double : k ≤ 2 * m := by omega
    have size' : |((signed negative k : Int) : ℚ)| = k := by
      rw [signed_eq_withSign, Decimal.abs_withSign, scaled_whole]
    calc |((signed negative k : Int) : ℚ)| = k := size'
      _ ≤ 2 * m := by exact_mod_cast double
      _ < 10 ^ (Decimal.exponentLimit + 1) := two_mul_lt_of_whole size

end RowLiteral.Double
