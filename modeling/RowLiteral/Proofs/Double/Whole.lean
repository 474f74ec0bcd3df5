import Mathlib.Algebra.Order.Ring.Nat
import Mathlib.Tactic.Ring
import RowLiteral.Double.Rounding

/-!
# Double — whole numbers

The mantissa and the exponent of a number with all of its bits are read back from its rank
(`mantissa_rankOf`, `exponent_rankOf`).  An integer of at most 53 bits needs no rounding.

* `toInt?_ofInt`: the double nearest to an integer below `2 ^ 53` in size is that integer.
-/

namespace RowLiteral.Double
open Number

variable {m n : Nat} {e : Int}

/-! ### Ranks -/

theorem rankOf_eq (he : -1074 ≤ e) (low : binade ≤ m) :
    rankOf m e = binade * ((e + 1075).toNat) + (m - binade) := by
  have next : (e + 1075).toNat = (e + 1074).toNat + 1 := by omega
  rw [rankOf, next, Nat.mul_succ, Nat.mul_comm]
  omega

theorem binade_le_rankOf (low : binade ≤ m) : binade ≤ rankOf m e :=
  low.trans (Nat.le_add_left _ _)

theorem mantissa_rankOf (he : -1074 ≤ e) (low : binade ≤ m) (high : m < 2 * binade) :
    mantissa (rankOf m e) = m := by
  have rest : m - binade < binade := by omega
  rw [mantissa, if_neg (not_lt.2 (binade_le_rankOf low)), rankOf_eq he low, Nat.mul_add_mod,
    Nat.mod_eq_of_lt rest]
  omega

theorem exponent_rankOf (he : -1074 ≤ e) (low : binade ≤ m) (high : m < 2 * binade) :
    exponent (rankOf m e) = e := by
  have rest : m - binade < binade := by omega
  rw [exponent, if_neg (not_lt.2 (binade_le_rankOf low)), rankOf_eq he low,
    Nat.mul_add_div (by decide), Nat.div_eq_of_lt rest]
  omega

/-! ### Whole doubles -/

theorem toInt?_finite (negative : Bool) (r : Fin finiteCount) : (finite negative r).toInt? =
    (wholeScaled? (mantissa r) (exponent r)).map (signed negative) := by
  rw [toInt?]
  cases wholeScaled? (mantissa r) (exponent r) <;> rfl

/-- A whole double is finite, and its size is whole. -/
theorem exists_of_toInt? {x : Double} {n : Int} (h : x.toInt? = some n) :
    ∃ negative r k, x = finite negative r ∧
      wholeScaled? (mantissa r) (exponent r) = some k ∧ signed negative k = n := by
  cases x with
  | nan => exact absurd h nofun
  | infinity => exact absurd h nofun
  | finite negative r =>
      rw [toInt?_finite] at h
      obtain ⟨k, whole, value⟩ := Option.map_eq_some_iff.1 h
      exact ⟨negative, r, k, rfl, whole, value⟩

/-! ### Rounding nothing -/

theorem roundDiv_one (n : Nat) : BinaryFormat.roundDiv n 1 = n := by
  simp only [BinaryFormat.roundDiv, Nat.div_one, Nat.mod_one]
  rfl

theorem floorLog2_one (h : n ≠ 0) : BinaryFormat.floorLog2 n 1 = n.log2 := by
  have below := Nat.log2_self_le h
  have log : Nat.log2 1 = 0 := by decide
  have none : (-(n.log2 : Int)).toNat = 0 := by omega
  simp only [BinaryFormat.floorLog2, log, Nat.cast_zero, sub_zero, none, Int.toNat_natCast, twoPow,
    Nat.pow_eq, pow_zero, one_mul, mul_one]
  rw [if_neg (not_lt.2 below)]

/-- An integer of at most 53 bits is filled up with zeros. -/
theorem round_double_one (h : n ≠ 0) (small : n < 2 ^ 53) :
    BinaryFormat.double.round n 1 = (n * 2 ^ (52 - n.log2), (n.log2 : Int) - 52) := by
  have bits : n.log2 < 53 := (Nat.log2_lt h).2 small
  have exponent : max (-1074 : Int) (BinaryFormat.floorLog2 n 1 - (53 - 1 : Nat)) =
      (n.log2 : Int) - 52 := by
    rw [floorLog2_one h]
    omega
  have shift : (-((n.log2 : Int) - 52)).toNat = 52 - n.log2 := by omega
  have none : ((n.log2 : Int) - 52).toNat = 0 := by omega
  simp only [BinaryFormat.round, BinaryFormat.double, exponent, shift, none, twoPow, Nat.pow_eq,
    pow_zero, mul_one, roundDiv_one]

theorem wholeScaled?_mul_two_pow (n : Nat) {k : Nat} (he : e = -(k : Int)) :
    wholeScaled? (n * 2 ^ k) e = some n := by
  have shift : (-e).toNat = k := by omega
  rw [wholeScaled?]
  split
  · next whole =>
      obtain rfl : k = 0 := by omega
      have none : e.toNat = 0 := by omega
      rw [none, pow_zero, mul_one]
      exact congrArg some (mul_one n)
  · rw [shift, twoPow, Nat.pow_eq, Nat.mul_mod_left, if_pos rfl,
      Nat.mul_div_cancel _ (Nat.pow_pos (by decide))]

/-- Filled up with zeros, an integer of at most 53 bits is a mantissa with all of its bits. -/
theorem filled_bounds (h : n ≠ 0) (small : n < 2 ^ 53) :
    binade ≤ n * 2 ^ (52 - n.log2) ∧ n * 2 ^ (52 - n.log2) < 2 * binade := by
  have bits : n.log2 < 53 := (Nat.log2_lt h).2 small
  have fill : n.log2 + (52 - n.log2) = 52 := by omega
  constructor
  · calc binade = 2 ^ n.log2 * 2 ^ (52 - n.log2) := by
          rw [← Nat.pow_add, fill]
          rfl
      _ ≤ n * 2 ^ (52 - n.log2) := Nat.mul_le_mul_right _ (Nat.log2_self_le h)
  · calc n * 2 ^ (52 - n.log2)
        < 2 ^ (n.log2 + 1) * 2 ^ (52 - n.log2) :=
          Nat.mul_lt_mul_of_pos_right Nat.lt_log2_self (Nat.pow_pos (by decide))
      _ = 2 * 2 ^ 52 := by
          rw [Nat.pow_succ, Nat.mul_comm _ 2, Nat.mul_assoc, ← Nat.pow_add, fill]
      _ = 2 * binade := rfl

theorem rankOf_filled_lt (h : n ≠ 0) (small : n < 2 ^ 53) :
    rankOf (n * 2 ^ (52 - n.log2)) (n.log2 - 52) < finiteCount := by
  obtain ⟨low, high⟩ := filled_bounds h small
  have bits : n.log2 < 53 := (Nat.log2_lt h).2 small
  have top : ((n.log2 : Int) - 52 + 1075).toNat ≤ 1075 := by omega
  have block := Nat.mul_le_mul_left binade top
  rw [rankOf_eq (by omega) low, finiteCount]
  omega

theorem wholeScaled?_filled (h : n ≠ 0) (small : n < 2 ^ 53) :
    wholeScaled? (mantissa (rankOf (n * 2 ^ (52 - n.log2)) (n.log2 - 52)))
      (exponent (rankOf (n * 2 ^ (52 - n.log2)) (n.log2 - 52))) = some n := by
  obtain ⟨low, high⟩ := filled_bounds h small
  have bits : n.log2 < 53 := (Nat.log2_lt h).2 small
  have least : -1074 ≤ (n.log2 : Int) - 52 := by omega
  rw [mantissa_rankOf least low high, exponent_rankOf least low high]
  exact wholeScaled?_mul_two_pow n (by omega)

/-- **The double nearest to an integer of at most 53 bits is that integer.** -/
theorem toInt?_ofInt {n : Int} (small : n.natAbs < 2 ^ 53) : (ofInt n).toInt? = some n := by
  by_cases zero : n = 0
  · subst zero
    decide +kernel
  · have h : n.natAbs ≠ 0 := by omega
    rw [ofInt, ofRatio, if_neg h, round_double_one h small]
    simp only [ofRank]
    rw [dif_pos (rankOf_filled_lt h small), toInt?_finite, wholeScaled?_filled h small,
      Option.map_some, signed]
    refine congrArg some ?_
    by_cases negative : n < 0
    · rw [decide_eq_true negative, if_pos rfl]
      omega
    · rw [decide_eq_false negative, if_neg Bool.false_ne_true]
      omega

end RowLiteral.Double
