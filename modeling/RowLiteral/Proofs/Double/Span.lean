import Mathlib.Order.Monotone.Basic
import RowLiteral.Proofs.Double.Shortest
import RowLiteral.Proofs.Double.Whole

/-!
# Double — spans

The spans of the doubles of one sign lie side by side.  Each begins where the one before it ends
(`highEnd_eq_lowEnd`), and of two neighbours one has its ends and the other has not (`closed_iff`).

* `InSpan.unique`: no number lies in the spans of two doubles.
* `inSpan_magnitude`, `inSpan_shown`: a double and its shortest decimal lie in the span of the
  double.
* `Near.inSpan`: so does what is at most half a unit away.
-/

namespace RowLiteral.Double
open Number

variable {rank rank' m : Nat} {e : Int} {q : ℚ}

/-! ### Neighbours -/

theorem two_zpow_add_one (e : Int) : (2 : ℚ) ^ (e + 1) = 2 * 2 ^ e := by
  rw [zpow_add_one₀ two_ne_zero, mul_comm]

/-- The next double has the next mantissa, or it is the first one of the next exponent. -/
theorem succ_cases (rank : Nat) :
    (exponent (rank + 1) = exponent rank ∧ mantissa (rank + 1) = mantissa rank + 1 ∧
      (mantissa (rank + 1) = binade → rank + 1 < 2 * binade)) ∨
    (exponent (rank + 1) = exponent rank + 1 ∧ mantissa (rank + 1) = binade ∧
      mantissa rank + 1 = 2 * binade ∧ 2 * binade ≤ rank + 1) := by
  have small (r : Nat) (h : r < binade) : mantissa r = r ∧ exponent r = -1074 := by
    rw [mantissa, exponent, if_pos h, if_pos h]
    exact ⟨rfl, rfl⟩
  have large (r : Nat) (h : binade ≤ r) :
      mantissa r = binade + r % binade ∧ exponent r = (r / binade : Nat) - 1075 := by
    rw [mantissa, exponent, if_neg (not_lt.2 h), if_neg (not_lt.2 h)]
    exact ⟨rfl, rfl⟩
  rcases Nat.lt_trichotomy (rank + 1) binade with below | least | above
  · obtain ⟨m, e⟩ := small rank (by omega)
    obtain ⟨m', e'⟩ := small (rank + 1) below
    omega
  · obtain ⟨m, e⟩ := small rank (by omega)
    obtain ⟨m', e'⟩ := large (rank + 1) least.ge
    rw [binade] at *
    omega
  · obtain ⟨m, e⟩ := large rank (by omega)
    obtain ⟨m', e'⟩ := large (rank + 1) above.le
    rw [binade] at *
    omega

theorem mantissa_mod_two (rank : Nat) : mantissa rank % 2 = rank % 2 := by
  rw [mantissa, binade]
  split <;> omega

theorem closed_iff (rank : Nat) : (span rank).closed = true ↔ rank % 2 = 0 := by
  simp only [span, decide_eq_true_eq, mantissa_mod_two]

/-! ### Spans side by side -/

/-- Below a power of two the doubles stand closer. -/
theorem span_low (rank : Nat) : (span rank).low =
    if mantissa rank = binade ∧ 2 * binade ≤ rank then 4 * mantissa rank - 1
    else 4 * mantissa rank - 2 := by
  simp only [span, Bool.and_eq_true, decide_eq_true_eq]
  split <;> rfl

/-- The lower end of the span of the double with a rank. -/
def lowEnd (rank : Nat) : ℚ := (span rank).low * 2 ^ (exponent rank - 2)

/-- The upper end of the span of the double with a rank. -/
def highEnd (rank : Nat) : ℚ := (span rank).high * 2 ^ (exponent rank - 2)

/-- A number lies in the span of the double with a rank, at one of its ends only where it has
them. -/
structure InSpan (rank : Nat) (q : ℚ) : Prop where
  low : lowEnd rank ≤ q
  high : q ≤ highEnd rank
  inner : (span rank).closed = false → lowEnd rank < q ∧ q < highEnd rank

theorem highEnd_eq (rank : Nat) :
    highEnd rank = (4 * mantissa rank + 2) * 2 ^ (exponent rank - 2) := by
  obtain ⟨-, -, high⟩ := span_bounds rank
  rw [highEnd, high]
  push_cast
  rfl

theorem highEnd_eq_lowEnd (rank : Nat) : highEnd rank = lowEnd (rank + 1) := by
  rw [highEnd_eq]
  rcases succ_cases rank with ⟨same, next, first⟩ | ⟨more, least, last, large⟩
  · have low : (span (rank + 1)).low = 4 * mantissa rank + 2 := by
      rw [span_low, if_neg fun h => absurd (first h.1) (not_lt.2 h.2), next]
      omega
    rw [lowEnd, low, same]
    push_cast
    rfl
  · have low : (span (rank + 1)).low + 1 = 4 * binade := by
      rw [span_low, if_pos ⟨least, large⟩, least, binade]
    have low' : ((span (rank + 1)).low : ℚ) + 1 = 4 * binade := by exact_mod_cast low
    have last' : (mantissa rank : ℚ) + 1 = 2 * binade := by exact_mod_cast last
    have unit : (2 : ℚ) ^ (exponent (rank + 1) - 2) = 2 * 2 ^ (exponent rank - 2) := by
      rw [more, ← two_zpow_add_one]
      congr 1
      omega
    rw [lowEnd, unit, ← mul_assoc]
    congr 1
    linarith

/-- Where a span begins: half a unit below its double, nearer below the first double of an exponent,
and at zero for zero. -/
theorem lowEnd_cases (rank : Nat) :
    (0 < mantissa rank ∧ lowEnd rank = (4 * mantissa rank - 2) * 2 ^ (exponent rank - 2)) ∨
    (mantissa rank = binade ∧ 2 * binade ≤ rank ∧
      lowEnd rank = (4 * mantissa rank - 1) * 2 ^ (exponent rank - 2)) ∨
    (mantissa rank = 0 ∧ lowEnd rank = 0) := by
  rw [lowEnd, span_low]
  split
  · next first =>
      have filled : 1 ≤ 4 * mantissa rank := by
        rw [first.1, binade]
        omega
      refine .inr (.inl ⟨first.1, first.2, ?_⟩)
      push_cast [filled]
      rfl
  · rcases Nat.eq_zero_or_pos (mantissa rank) with zero | pos
    · refine .inr (.inr ⟨zero, ?_⟩)
      rw [zero]
      simp
    · have filled : 2 ≤ 4 * mantissa rank := by omega
      refine .inl ⟨pos, ?_⟩
      push_cast [filled]
      rfl

theorem lowEnd_lt_highEnd (rank : Nat) : lowEnd rank < highEnd rank := by
  obtain ⟨-, -, high⟩ := span_bounds rank
  have less : (span rank).low < (span rank).high := by
    rw [high, span]
    dsimp only
    omega
  rw [lowEnd, highEnd]
  exact mul_lt_mul_of_pos_right (by exact_mod_cast less) (by positivity)

theorem lowEnd_strictMono : StrictMono lowEnd :=
  strictMono_nat_of_lt_succ fun rank =>
    (lowEnd_lt_highEnd rank).trans_eq (highEnd_eq_lowEnd rank)

theorem highEnd_le_lowEnd (less : rank < rank') : highEnd rank ≤ lowEnd rank' := by
  rw [highEnd_eq_lowEnd]
  exact lowEnd_strictMono.monotone less

theorem inSpan_of_lt (low : lowEnd rank < q) (high : q < highEnd rank) : InSpan rank q :=
  ⟨low.le, high.le, fun _ => ⟨low, high⟩⟩

/-- A span that has one of its ends in it belongs to a double with an even mantissa. -/
theorem InSpan.even (h : InSpan rank q) (atEnd : q = lowEnd rank ∨ q = highEnd rank) :
    rank % 2 = 0 := by
  rw [← closed_iff, ← Bool.not_eq_false]
  intro opened
  obtain ⟨low, high⟩ := h.inner opened
  rcases atEnd with lower | upper
  · exact low.ne' lower
  · exact high.ne upper

theorem InSpan.not_lt (h : InSpan rank q) (h' : InSpan rank' q) : ¬ rank < rank' := by
  intro less
  have between := highEnd_le_lowEnd less
  have upper : q = highEnd rank := le_antisymm h.high (between.trans h'.low)
  have lower : q = lowEnd rank' := le_antisymm (h.high.trans between) h'.low
  have next : rank' = rank + 1 := by
    refine lowEnd_strictMono.injective ?_
    rw [← highEnd_eq_lowEnd, ← lower, upper]
  -- neighbours do not both have the end that they share
  have even := h.even (.inr upper)
  have even' := h'.even (.inl lower)
  omega

/-- No number lies in the spans of two doubles. -/
theorem InSpan.unique (h : InSpan rank q) (h' : InSpan rank' q) : rank = rank' :=
  Nat.le_antisymm (Nat.not_lt.1 (h'.not_lt h)) (Nat.not_lt.1 (h.not_lt h'))

theorem lowEnd_zero : lowEnd 0 = 0 := by simp [lowEnd, span, mantissa, binade]

/-- Every double lies in its own span. -/
theorem inSpan_magnitude (rank : Nat) : InSpan rank (magnitude rank) := by
  obtain ⟨-, below, high⟩ := span_bounds rank
  have unit : (0 : ℚ) < 2 ^ (exponent rank - 2) := by positivity
  rcases Nat.eq_zero_or_pos rank with rfl | pos
  · have wide := lowEnd_lt_highEnd 0
    rw [lowEnd_zero] at wide
    rw [magnitude_zero]
    exact ⟨lowEnd_zero.le, wide.le, fun opened => absurd opened (by decide)⟩
  · have low : ((span rank).low : ℚ) < 4 * mantissa rank := by
      exact_mod_cast below (mantissa_pos pos)
    rw [magnitude_quarters]
    refine inSpan_of_lt ?_ ?_
    · exact mul_lt_mul_of_pos_right low unit
    · rw [highEnd_eq]
      exact mul_lt_mul_of_pos_right (lt_add_of_pos_right _ two_pos) unit

/-- What is found on a grid lies in the span. -/
theorem inSpan_of_isHit {c : Nat} (h : isHit rank e c = true) : InSpan rank (scaled c e) := by
  obtain ⟨low, high⟩ := le_of_isHit h
  refine ⟨low, high, fun opened => ?_⟩
  simp only [isHit, opened, Bool.false_eq_true, if_false, Bool.and_eq_true, decide_eq_true_eq] at h
  rw [lowEnd, highEnd, ← not_le, ← not_le, scaled_le_iff, le_scaled_iff, not_le, not_le]
  exact h

theorem magnitude_injective : Function.Injective magnitude := fun rank rank' same =>
  (inSpan_magnitude rank).unique (same ▸ inSpan_magnitude rank')

/-- The shortest decimal of a double lies in its span. -/
theorem inSpan_shown (rank : Nat) : InSpan rank (shown rank) := by
  rcases Nat.eq_zero_or_pos rank with rfl | pos
  · rw [shown_zero, ← magnitude_zero]
    exact inSpan_magnitude 0
  · obtain ⟨k, fine⟩ := exists_onGrid?_top pos
    obtain ⟨c, j, -, value, hit⟩ := exists_shown (by decide) fine
    rw [value]
    exact inSpan_of_isHit hit

/-! ### Half a unit -/

/-- A number is at most half a unit away from `m · 2 ^ e`, and less than that if `m` is odd. -/
structure Near (m : Nat) (e : Int) (q : ℚ) : Prop where
  low : (4 * m - 2) * 2 ^ (e - 2) ≤ q
  high : q ≤ (4 * m + 2) * 2 ^ (e - 2)
  odd : m % 2 = 1 → (4 * m - 2) * 2 ^ (e - 2) < q ∧ q < (4 * m + 2) * 2 ^ (e - 2)

/-- What lies below a whole number of units is near to no greater number of them. -/
theorem Near.le_of_lt (near : Near m e q) {n : Nat} (below : q < n * 2 ^ e) : m ≤ n := by
  have unit : (0 : ℚ) < 2 ^ (e - 2) := by positivity
  rw [two_zpow_quarters, ← mul_assoc] at below
  have wide := lt_of_mul_lt_mul_right (near.low.trans_lt below) unit.le
  have less : m < n + 1 := by
    have less : (m : ℚ) < n + 1 := by linarith only [wide]
    exact_mod_cast less
  omega

/-- What does not lie below a whole number of units is near to no smaller number of them. -/
theorem Near.le_of_le (near : Near m e q) {n : Nat} (above : n * 2 ^ e ≤ q) : n ≤ m := by
  have unit : (0 : ℚ) < 2 ^ (e - 2) := by positivity
  rw [two_zpow_quarters, ← mul_assoc] at above
  have wide := le_of_mul_le_mul_right (above.trans near.high) unit
  have less : n * 4 ≤ 4 * m + 2 := by exact_mod_cast wide
  omega

/-- What is near to a double lies in its span.  Below the first double of an exponent the span is
narrower. -/
theorem Near.inSpan (near : Near (mantissa rank) (exponent rank) q) (nonneg : 0 ≤ q)
    (first : mantissa rank = binade → 2 * binade ≤ rank →
      (4 * mantissa rank - 1) * 2 ^ (exponent rank - 2) ≤ q) : InSpan rank q := by
  refine ⟨?_, near.high.trans_eq (highEnd_eq rank).symm, fun opened => ?_⟩
  · rcases lowEnd_cases rank with ⟨-, half⟩ | ⟨least, large, quarter⟩ | ⟨-, zero⟩
    · exact half.trans_le near.low
    · exact quarter.trans_le (first least large)
    · exact zero.trans_le nonneg
  · have odd : mantissa rank % 2 = 1 := by
      rw [← Bool.not_eq_true, closed_iff] at opened
      rw [mantissa_mod_two]
      omega
    obtain ⟨above, below⟩ := near.odd odd
    refine ⟨?_, below.trans_eq (highEnd_eq rank).symm⟩
    rcases lowEnd_cases rank with ⟨-, half⟩ | ⟨least, -, -⟩ | ⟨zero, -⟩
    · exact half.trans_lt above
    · rw [least] at odd
      exact absurd odd (by decide)
    · rw [zero] at odd
      exact absurd odd (by decide)

/-- With the least exponent a mantissa need not have all of its bits. -/
theorem Near.inSpan_of_lt (near : Near m (-1074) q) (nonneg : 0 ≤ q) (below : m < binade) :
    InSpan (rankOf m (-1074)) q := by
  have rank : rankOf m (-1074) = m := Nat.zero_add m
  have mantissa_eq : mantissa m = m := by rw [mantissa, if_pos below]
  have exponent_eq : exponent m = -1074 := by rw [exponent, if_pos below]
  rw [rank]
  refine Near.inSpan ?_ nonneg ?_
  · rwa [mantissa_eq, exponent_eq]
  · rw [mantissa_eq]
    intro last
    exact absurd last below.ne

theorem Near.inSpan_of_le (near : Near m e q) (nonneg : 0 ≤ q) (he : -1074 ≤ e)
    (filled : binade ≤ m) (full : m < 2 * binade) (least : e = -1074 ∨ binade * 2 ^ e ≤ q) :
    InSpan (rankOf m e) q := by
  have mantissa_eq := mantissa_rankOf he filled full
  have exponent_eq := exponent_rankOf he filled full
  refine Near.inSpan ?_ nonneg ?_
  · rwa [mantissa_eq, exponent_eq]
  · rw [mantissa_eq, exponent_eq]
    rintro rfl large
    have normal : binade * 2 ^ e ≤ q := least.resolve_left fun lowest => by
      rw [lowest] at large
      exact absurd large (by decide)
    have unit : (0 : ℚ) < 2 ^ (e - 2) := by positivity
    rw [two_zpow_quarters] at normal
    linarith only [normal, unit]

/-- What is rounded up to the next power of two gets the next exponent, where the unit is twice as
large. -/
theorem Near.inSpan_carry (near : Near (2 * binade) e q) (nonneg : 0 ≤ q) (he : -1074 ≤ e) :
    InSpan (rankOf (2 * binade) e) q := by
  have he' : -1074 ≤ e + 1 := by omega
  have single : binade < 2 * binade := by decide
  have unit : (0 : ℚ) < 2 ^ (e - 2) := by positivity
  have double : (2 : ℚ) ^ (e + 1 - 2) = 2 * 2 ^ (e - 2) := by
    rw [← two_zpow_add_one]
    congr 1
    omega
  have carried : rankOf (2 * binade) e = rankOf binade (e + 1) := by
    have next : (e + 1 + 1074).toNat = (e + 1074).toNat + 1 := by omega
    rw [rankOf, rankOf, next, Nat.succ_mul (e + 1074).toNat, two_mul binade, Nat.add_assoc]
  have mantissa_eq : mantissa (rankOf binade (e + 1)) = binade := mantissa_rankOf he' le_rfl single
  have exponent_eq : exponent (rankOf binade (e + 1)) = e + 1 := exponent_rankOf he' le_rfl single
  obtain ⟨low, high, -⟩ := near
  push_cast at low high
  rw [carried]
  refine Near.inSpan ?_ nonneg ?_
  · rw [mantissa_eq, exponent_eq]
    refine ⟨?_, ?_, fun odd => absurd odd (by decide)⟩
    · rw [double]
      linarith only [low, unit]
    · rw [double]
      linarith only [high, unit]
  · rw [mantissa_eq, exponent_eq, double]
    intro _ _
    linarith only [low]

end RowLiteral.Double
