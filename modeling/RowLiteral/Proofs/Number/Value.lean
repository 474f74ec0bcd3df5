import Mathlib.Algebra.Order.Field.Power
import Mathlib.Algebra.Order.Floor.Semifield
import Mathlib.Data.Rat.Floor
import Mathlib.Tactic.Linarith
import Mathlib.Tactic.NormNum
import Mathlib.Tactic.Positivity
import Mathlib.Tactic.Ring
import RowLiteral.Decimal.Basic
import RowLiteral.Proofs.Number.Digits

/-!
# Number — the numbers that are denoted

A numeral and a finite decimal denote a rational number, `± coefficient · 10 ^ exponent`.  The
exponent of the first digit (`leading`) locates it between two powers of ten (`scaled_bounds`), and
taking off trailing zeros changes neither (`scaled_stripZeros`).

* `Decimal.value?_ofScaled`: a decimal denotes the number that it was made of, if the first digit is
  within the limits.
* `floor_scaled`: the integer part of a number, in whole numbers.
-/

namespace RowLiteral.Number

/-! ### Numbers in decimal notation -/

/-- A power is a quotient of powers with natural exponents. -/
theorem zpow_eq_div (b : ℚ) (e : Int) : b ^ e = b ^ e.toNat / b ^ (-e).toNat := by
  rcases Int.le_total 0 e with whole | fraction
  · obtain ⟨n, rfl⟩ := Int.eq_ofNat_of_zero_le whole
    have none : (-(n : Int)).toNat = 0 := by omega
    rw [none, Int.toNat_natCast, pow_zero, div_one, zpow_natCast]
  · obtain ⟨n, negated⟩ := Int.eq_ofNat_of_zero_le (Int.neg_nonneg_of_nonpos fraction)
    obtain rfl : e = -(n : Int) := by omega
    have none : (-(n : Int)).toNat = 0 := by omega
    rw [none, neg_neg, Int.toNat_natCast, pow_zero, zpow_neg, zpow_natCast, one_div]

/-- The number `coefficient · 10 ^ exponent`. -/
def scaled (c : Nat) (e : Int) : ℚ := c * 10 ^ e

/-- A number with a sign. -/
def withSign (negative : Bool) (q : ℚ) : ℚ := if negative then -q else q

/-- The number that a numeral denotes. -/
def Numeral.value (n : Numeral) : ℚ := withSign n.negative (scaled n.coefficient n.exponent)

/-- The exponent of the first digit of a number. -/
def leading (c : Nat) (e : Int) : Int := e + (digitCount c - 1 : Nat)

variable {c c' : Nat} {e e' : Int}

theorem scaled_whole (c : Nat) : scaled c 0 = c := by rw [scaled, zpow_zero, mul_one]

theorem scaled_zero (e : Int) : scaled 0 e = 0 := by simp [scaled]

theorem scaled_nonneg (c : Nat) (e : Int) : 0 ≤ scaled c e := by
  rw [scaled]
  positivity

theorem scaled_pos (h : 0 < c) (e : Int) : 0 < scaled c e := by
  rw [scaled]
  positivity

theorem scaled_mul_tenPow (c n : Nat) (e : Int) : scaled (c * tenPow n) e = scaled c (e + n) := by
  have ten : (10 : ℚ) ≠ 0 := by norm_num
  rw [scaled, scaled, zpow_add₀ ten, zpow_natCast, tenPow]
  push_cast [Nat.pow_eq]
  ring

theorem scaled_stripZerosFrom (fuel c : Nat) (e : Int) :
    scaled (stripZerosFrom fuel c e).1 (stripZerosFrom fuel c e).2 = scaled c e := by
  induction fuel generalizing c e with
  | zero => rfl
  | succ fuel ih =>
      rw [stripZerosFrom]
      split
      · next last =>
          have tens : c = c / 10 * tenPow 1 := by
            show c = c / 10 * 10
            omega
          rw [ih, ← Nat.cast_one, ← scaled_mul_tenPow, ← tens]
      · rfl

/-- Taking off trailing zeros does not change the number. -/
theorem scaled_stripZeros (c : Nat) (e : Int) :
    scaled (stripZeros c e).1 (stripZeros c e).2 = scaled c e := by
  rw [stripZeros]
  split
  · next zero => rw [zero, scaled_zero, scaled_zero]
  · exact scaled_stripZerosFrom c c e

/-- A number as a ratio of whole numbers. -/
theorem scaled_eq_div (c : Nat) (e : Int) :
    scaled c e = ((c * tenPow e.toNat : Nat) : ℚ) / (tenPow (-e).toNat : Nat) := by
  rw [scaled, zpow_eq_div, ← mul_div_assoc, tenPow, tenPow]
  push_cast [Nat.pow_eq]
  rfl

/-! ### The first digit -/

theorem digitCount_pos (c : Nat) : 0 < digitCount c := List.length_pos_of_ne_nil (digits_ne_nil c)

theorem lt_tenPow_digitCount (c : Nat) : c < 10 ^ digitCount c :=
  (Nat.length_toDigits_le_iff (by decide) (digitCount_pos c)).1 le_rfl

theorem tenPow_digitCount_le (h : 0 < c) : 10 ^ (digitCount c - 1) ≤ c := by
  by_cases single : digitCount c ≤ 1
  · rw [show digitCount c - 1 = 0 by omega]
    exact h
  · have less : ¬ digitCount c ≤ digitCount c - 1 := by omega
    exact not_lt.1 fun low => less
      ((Nat.length_toDigits_le_iff (by decide) (by omega)).2 low)

/-- A number lies between the power of ten of its first digit and the next one. -/
theorem scaled_bounds (h : 0 < c) (e : Int) :
    (10 : ℚ) ^ leading c e ≤ scaled c e ∧ scaled c e < 10 ^ (leading c e + 1) := by
  have ten : (10 : ℚ) ≠ 0 := by norm_num
  have pos : (0 : ℚ) < 10 ^ e := by positivity
  have filled := digitCount_pos c
  have least : ((10 ^ (digitCount c - 1) : Nat) : ℚ) ≤ c := by
    exact_mod_cast tenPow_digitCount_le h
  have greatest : (c : ℚ) < ((10 ^ digitCount c : Nat) : ℚ) := by
    exact_mod_cast lt_tenPow_digitCount c
  have next : leading c e + 1 = (digitCount c : Int) + e := by
    rw [leading]
    omega
  rw [next, leading, add_comm e, zpow_add₀ ten, zpow_add₀ ten, zpow_natCast, zpow_natCast, scaled]
  push_cast at least greatest
  exact ⟨mul_le_mul_of_nonneg_right least pos.le, mul_lt_mul_of_pos_right greatest pos⟩

/-- The exponent of the first digit is one of the number. -/
theorem leading_eq (h : 0 < c) (h' : 0 < c') (same : scaled c e = scaled c' e') :
    leading c e = leading c' e' := by
  have bounds := scaled_bounds h e
  have bounds' := scaled_bounds h' e'
  rw [same] at bounds
  have one : (1 : ℚ) < 10 := by norm_num
  have below := (zpow_lt_zpow_iff_right₀ one).1 (bounds.1.trans_lt bounds'.2)
  have above := (zpow_lt_zpow_iff_right₀ one).1 (bounds'.1.trans_lt bounds.2)
  omega

theorem stripZeros_pos (h : 0 < c) (e : Int) : 0 < (stripZeros c e).1 := by
  have same := scaled_stripZeros c e
  rcases Nat.eq_zero_or_pos (stripZeros c e).1 with zero | pos
  · rw [zero, scaled_zero] at same
    exact absurd same (scaled_pos h e).ne
  · exact pos

/-- Taking off trailing zeros leaves the first digit where it is. -/
theorem leading_stripZeros (h : 0 < c) (e : Int) :
    leading (stripZeros c e).1 (stripZeros c e).2 = leading c e :=
  leading_eq (stripZeros_pos h e) h (scaled_stripZeros c e)

/-! ### Ratios -/

/-- A ratio lies between two powers, by those between which its parts lie. -/
theorem ratio_bounds {b n d : ℚ} {i j : Int} (base : 0 < b) (num : b ^ i ≤ n ∧ n < b ^ (i + 1))
    (den : b ^ j ≤ d ∧ d < b ^ (j + 1)) : b ^ (i - j - 1) < n / d ∧ n / d < b ^ (i - j + 1) := by
  have pos : 0 < d := (zpow_pos base j).trans_le den.1
  constructor
  · rw [lt_div_iff₀ pos]
    calc b ^ (i - j - 1) * d < b ^ (i - j - 1) * b ^ (j + 1) :=
          mul_lt_mul_of_pos_left den.2 (zpow_pos base _)
      _ = b ^ i := by
          rw [← zpow_add₀ base.ne']
          congr 1
          omega
      _ ≤ n := num.1
  · rw [div_lt_iff₀ pos]
    calc n < b ^ (i + 1) := num.2
      _ = b ^ (i - j + 1) * b ^ j := by
          rw [← zpow_add₀ base.ne']
          congr 1
          omega
      _ ≤ b ^ (i - j + 1) * d := mul_le_mul_of_nonneg_left den.1 (zpow_pos base _).le

/-- A ratio and a power are compared in whole numbers. -/
theorem mul_pow_lt_iff {num den b : Nat} (base : 0 < b) (hd : 0 < den) (k : Int) :
    num * b ^ (-k).toNat < den * b ^ k.toNat ↔ (num : ℚ) / den < (b : ℚ) ^ k := by
  have base' : (0 : ℚ) < b := by exact_mod_cast base
  have pos : (0 : ℚ) < den := by exact_mod_cast hd
  rw [div_lt_iff₀ pos, zpow_eq_div, ← Nat.cast_lt (α := ℚ), div_mul_eq_mul_div,
    lt_div_iff₀ (pow_pos base' _)]
  push_cast
  rw [mul_comm (den : ℚ)]

/-! ### Integer parts -/

/-- The integer part of a number, toward zero. -/
def truncated (q : ℚ) : Int := if q < 0 then ⌈q⌉ else ⌊q⌋

theorem truncated_withSign (negative : Bool) {q : ℚ} (h : 0 ≤ q) :
    truncated (withSign negative q) = signed negative ⌊q⌋₊ := by
  have floor : (⌊q⌋₊ : Int) = ⌊q⌋ := Int.natCast_floor_eq_floor h
  cases negative with
  | false =>
      show truncated q = (⌊q⌋₊ : Int)
      rw [truncated, if_neg (not_lt.2 h), floor]
  | true =>
      show truncated (-q) = -(⌊q⌋₊ : Int)
      rw [truncated, floor]
      split
      · exact Int.ceil_neg
      · next positive =>
          have zero : q = 0 := by linarith
          rw [zero]
          simp

theorem truncated_intCast (n : Int) : truncated n = n := by
  rw [truncated, Int.ceil_intCast, Int.floor_intCast, ite_self]

/-- The integer part of a number, in whole numbers. -/
theorem floor_scaled (c : Nat) (e : Int) :
    ⌊scaled c e⌋₊ = c * tenPow e.toNat / tenPow (-e).toNat := by
  rw [scaled_eq_div, Nat.floor_div_eq_div]

theorem floor_scaled_of_leading_neg (h : leading c e < 0) : ⌊scaled c e⌋₊ = 0 := by
  rw [Nat.floor_eq_zero]
  rcases Nat.eq_zero_or_pos c with rfl | pos
  · rw [scaled_zero]
    exact one_pos
  · refine (scaled_bounds pos e).2.trans_le ?_
    have one : (1 : ℚ) ≤ 10 := by norm_num
    exact (zpow_le_zpow_right₀ one (show leading c e + 1 ≤ 0 by omega)).trans_eq (zpow_zero _)

end RowLiteral.Number

/-! ### Decimals -/

namespace RowLiteral.Decimal
open Number

variable {negative : Bool} {c : Nat} {e : Int}

/-- The number that a decimal denotes, if it is finite. -/
def value? : Decimal → Option ℚ
  | .nan | .infinity _ => none
  | .finite negative c e _ => some (withSign negative (scaled c e))

/-- The exponent of the first digit of a number is within the limits of decimals. -/
def InLimits (q : ℚ) : Prop :=
  q = 0 ∨ (10 : ℚ) ^ (-exponentLimit) ≤ |q| ∧ |q| < 10 ^ (exponentLimit + 1)

theorem abs_withSign (negative : Bool) (c : Nat) (e : Int) :
    |withSign negative (scaled c e)| = scaled c e := by
  have nonneg := abs_of_nonneg (scaled_nonneg c e)
  cases negative with
  | false => exact nonneg
  | true => exact (abs_neg _).trans nonneg

/-- A whole number is in the limits unless it is too large. -/
theorem inLimits_intCast {n : Int} (small : |(n : ℚ)| < 10 ^ (exponentLimit + 1)) :
    InLimits n := by
  have one : (1 : ℚ) ≤ 10 := by norm_num
  by_cases zero : n = 0
  · exact .inl (by rw [zero, Int.cast_zero])
  · refine .inr ⟨?_, small⟩
    calc (10 : ℚ) ^ (-exponentLimit) ≤ 10 ^ (0 : Int) := zpow_le_zpow_right₀ one (by decide)
      _ = 1 := zpow_zero _
      _ ≤ |(n : ℚ)| := by exact_mod_cast Int.one_le_abs zero

theorem leading_of_inLimits (h : 0 < c) (limits : InLimits (withSign negative (scaled c e))) :
    -exponentLimit ≤ leading c e ∧ leading c e ≤ exponentLimit := by
  have one : (1 : ℚ) < 10 := by norm_num
  obtain ⟨least, greatest⟩ := scaled_bounds h e
  have size := abs_withSign negative c e
  rcases limits with zero | ⟨low, high⟩
  · rw [zero, abs_zero] at size
    exact absurd size (scaled_pos h e).ne
  · rw [size] at low high
    have above := (zpow_lt_zpow_iff_right₀ one).1 (low.trans_lt greatest)
    have below := (zpow_lt_zpow_iff_right₀ one).1 (least.trans_lt high)
    omega

/-- What is made of a coefficient and an exponent, by the exponent of the first digit. -/
theorem ofScaled_eq (negative : Bool) (h : 0 < c) (e : Int) : ofScaled negative c e =
    if exponentLimit < leading c e then .infinity negative
    else if leading c e < -exponentLimit then zero negative
    else .finite negative (stripZeros c e).1 (stripZeros c e).2 (stripped_stripZeros c e) := by
  have pos := stripZeros_pos h e
  have first := leading_stripZeros h e
  rw [leading] at first
  rw [ofScaled]
  simp only [Nat.pos_iff_ne_zero.1 pos, if_false, first]

theorem ofScaled_zero (negative : Bool) (e : Int) : ofScaled negative 0 e = zero negative := rfl

/-- A decimal denotes the number that it was made of, within the limits. -/
theorem value?_ofScaled (limits : InLimits (withSign negative (scaled c e))) :
    (ofScaled negative c e).value? = some (withSign negative (scaled c e)) := by
  rcases Nat.eq_zero_or_pos c with rfl | pos
  · rw [ofScaled_zero, scaled_zero]
    exact congrArg (fun q => some (withSign negative q)) (scaled_zero 0)
  · obtain ⟨least, greatest⟩ := leading_of_inLimits pos limits
    rw [ofScaled_eq negative pos, if_neg (not_lt.2 greatest), if_neg (not_lt.2 least), value?,
      scaled_stripZeros]

theorem truncateBelow?_finite (bound : Nat) {stripped : Stripped c e} :
    (finite negative c e stripped).truncateBelow? bound =
      if leading c e < 0 then some 0
      else if (bound : Int) ≤ leading c e then none
      else some (signed negative ⌊scaled c e⌋₊) := by
  rw [floor_scaled]
  rfl

/-- The integer part of a decimal, unless the number has more digits before the point. -/
theorem truncateBelow?_ofScaled (negative : Bool) (c : Nat) (e : Int) {bound : Nat}
    (pos : 0 < bound) (le : (bound : Int) ≤ exponentLimit) :
    (ofScaled negative c e).truncateBelow? bound =
      if 0 < c ∧ (bound : Int) ≤ leading c e then none
      else some (signed negative ⌊scaled c e⌋₊) := by
  have unsigned : signed negative 0 = 0 := by cases negative <;> rfl
  have truncated_zero : (zero negative).truncateBelow? bound = some 0 := by
    have first : leading 0 0 = 0 := by decide
    have shape : (zero negative).truncateBelow? bound = if leading 0 0 < 0 then some 0
        else if (bound : Int) ≤ leading 0 0 then none
        else some (signed negative ⌊scaled 0 0⌋₊) := truncateBelow?_finite bound
    rw [shape, first, if_neg (by decide), if_neg (by omega), scaled_zero, Nat.floor_zero, unsigned]
  rcases Nat.eq_zero_or_pos c with rfl | positive
  · rw [ofScaled_zero, truncated_zero, scaled_zero, Nat.floor_zero, unsigned, if_neg (by simp)]
  · rw [ofScaled_eq negative positive]
    split
    · next above =>
        rw [if_pos ⟨positive, by omega⟩]
        rfl
    · split
      · next below =>
          rw [if_neg (by omega), truncated_zero, floor_scaled_of_leading_neg (by omega), unsigned]
      · have stripped := leading_stripZeros positive e
        rw [truncateBelow?_finite, stripped, scaled_stripZeros]
        split
        · next fraction =>
            rw [if_neg (by omega), floor_scaled_of_leading_neg fraction, unsigned]
        · simp only [positive, true_and]

end RowLiteral.Decimal
