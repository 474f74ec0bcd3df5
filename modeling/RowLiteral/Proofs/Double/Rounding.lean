import RowLiteral.Proofs.Double.Span

/-!
# Double — what numbers are rounded to

A ratio lies in the span of the double that it is rounded to (`inSpan_round`).  As no number lies in
two spans, the spans say what rounding does, and no proof about particular numbers has to look at a
quotient again.

* `ofRatio_of_inSpan`, `ofScaled_of_inSpan`: a number is rounded to the double in whose span it
  lies.
* `ofScaled_shortest`: the shortest decimal of a double reads back as that double.
* `ofRank_eq_one_iff`, `isZero_ofRank_iff`: the numbers that are rounded to one and to zero.
* `value?_eq_one_iff`, `value?_eq_zero_iff`: the doubles that are one and zero.
-/

namespace RowLiteral.Double
open Number

variable {rank rank' m num den : Nat} {e : Int} {q : ℚ} {negative : Bool}

/-! ### Rounding a ratio -/

/-- A ratio lies between the power of two of its logarithm and the next one. -/
theorem floorLog2_bounds (hn : 0 < num) (hd : 0 < den) :
    (2 : ℚ) ^ BinaryFormat.floorLog2 num den ≤ num / den ∧
      (num : ℚ) / den < 2 ^ (BinaryFormat.floorLog2 num den + 1) := by
  have bounds {n : Nat} (hn : 0 < n) :
      (2 : ℚ) ^ (n.log2 : Int) ≤ n ∧ (n : ℚ) < 2 ^ ((n.log2 : Int) + 1) := by
    have low := Nat.log2_self_le (Nat.pos_iff_ne_zero.1 hn)
    have high := Nat.lt_log2_self (n := n)
    exact ⟨by exact_mod_cast low, by exact_mod_cast high⟩
  obtain ⟨above, below⟩ := ratio_bounds two_pos (bounds hn) (bounds hd)
  have test (k : Int) : num * twoPow (-k).toNat < den * twoPow k.toNat ↔
      (num : ℚ) / den < 2 ^ k := mul_pow_lt_iff two_pos hd k
  rw [BinaryFormat.floorLog2]
  simp only [test]
  split
  · next less => exact ⟨above.le, by rwa [sub_add_cancel]⟩
  · next more => exact ⟨not_lt.1 more, below⟩

/-- A quotient is rounded by at most one half, and by less to an odd number. -/
theorem roundDiv_bounds (num : Nat) (hd : 0 < den) :
    (BinaryFormat.roundDiv num den : ℚ) - 1 / 2 ≤ num / den ∧
      (num : ℚ) / den ≤ BinaryFormat.roundDiv num den + 1 / 2 ∧
      (BinaryFormat.roundDiv num den % 2 = 1 →
        (BinaryFormat.roundDiv num den : ℚ) - 1 / 2 < num / den ∧
          (num : ℚ) / den < BinaryFormat.roundDiv num den + 1 / 2) := by
  have pos : (0 : ℚ) < den := by exact_mod_cast hd
  have whole : num / den * den + num % den = num := Nat.div_add_mod' num den
  have rest := Nat.mod_lt num hd
  have next : (num / den + 1) * den = num / den * den + den := Nat.succ_mul _ _
  have halves : 2 * (BinaryFormat.roundDiv num den * den) ≤ 2 * num + den ∧
      2 * num ≤ 2 * (BinaryFormat.roundDiv num den * den) + den ∧
      (BinaryFormat.roundDiv num den % 2 = 1 →
        2 * (BinaryFormat.roundDiv num den * den) < 2 * num + den ∧
          2 * num < 2 * (BinaryFormat.roundDiv num den * den) + den) := by
    simp only [BinaryFormat.roundDiv]
    split
    · omega
    · split
      · rw [next]
        omega
      · rcases Nat.mod_two_eq_zero_or_one (num / den) with even | odd
        · rw [even, Nat.add_zero]
          omega
        · rw [odd, next]
          omega
  generalize BinaryFormat.roundDiv num den = m at *
  simp only [← Nat.cast_le (α := ℚ), ← Nat.cast_lt (α := ℚ)] at halves
  push_cast at halves
  obtain ⟨up, down, odd⟩ := halves
  refine ⟨?_, ?_, fun h => ⟨?_, ?_⟩⟩
  · rw [le_div_iff₀ pos]
    linarith
  · rw [div_le_iff₀ pos]
    linarith
  · rw [lt_div_iff₀ pos]
    linarith [odd h]
  · rw [div_lt_iff₀ pos]
    linarith [odd h]

/-- The quotient that is rounded to a mantissa. -/
theorem quotient_eq (num den : Nat) (e : Int) :
    ((num * twoPow (-e).toNat : Nat) : ℚ) / (den * twoPow e.toNat : Nat) = num / den / 2 ^ e := by
  rw [zpow_eq_div, twoPow, twoPow]
  push_cast [Nat.pow_eq]
  rw [div_div_div_eq]

/-- A ratio is near to what it is rounded to. -/
theorem near_roundDiv (num : Nat) (hd : 0 < den) (e : Int) :
    Near (BinaryFormat.roundDiv (num * twoPow (-e).toNat) (den * twoPow e.toNat)) e
      (num / den) := by
  have unit : (0 : ℚ) < 2 ^ e := by positivity
  have divisor : 0 < den * twoPow e.toNat := Nat.mul_pos hd (Nat.pow_pos two_pos)
  obtain ⟨low, high, odd⟩ := roundDiv_bounds (num * twoPow (-e).toNat) divisor
  rw [quotient_eq, le_div_iff₀ unit, two_zpow_quarters] at low
  rw [quotient_eq, div_le_iff₀ unit, two_zpow_quarters] at high
  rw [quotient_eq, lt_div_iff₀ unit, div_lt_iff₀ unit, two_zpow_quarters] at odd
  refine ⟨by linarith, by linarith, fun h => ?_⟩
  obtain ⟨low', high'⟩ := odd h
  exact ⟨by linarith, by linarith⟩

/-- The exponent of what a ratio is rounded to: the least one, or that of the ratio. -/
theorem exponent_round_cases (num den : Nat) :
    -1074 ≤ (BinaryFormat.double.round num den).2 ∧
      BinaryFormat.floorLog2 num den ≤ (BinaryFormat.double.round num den).2 + 52 ∧
      ((BinaryFormat.double.round num den).2 = -1074 ∨
        (BinaryFormat.double.round num den).2 + 52 = BinaryFormat.floorLog2 num den) := by
  have shape : (BinaryFormat.double.round num den).2 =
      max (-1074) (BinaryFormat.floorLog2 num den - 52) := rfl
  rw [shape]
  omega

/-- **A ratio lies in the span of the double that it is rounded to.** -/
theorem inSpan_round (hn : 0 < num) (hd : 0 < den) :
    InSpan (rankOf (BinaryFormat.double.round num den).1 (BinaryFormat.double.round num den).2)
      (num / den) := by
  have size : (2 : ℚ) ^ (52 : Int) = binade := by
    rw [binade]
    norm_num
  obtain ⟨above, below⟩ := floorLog2_bounds hn hd
  obtain ⟨least, enough, choice⟩ := exponent_round_cases num den
  have near : Near (BinaryFormat.double.round num den).1 (BinaryFormat.double.round num den).2
      (num / den) := near_roundDiv num hd _
  generalize (BinaryFormat.double.round num den).1 = m at *
  generalize (BinaryFormat.double.round num den).2 = e at *
  have nonneg : (0 : ℚ) ≤ num / den := by positivity
  have normal : e = -1074 ∨ (binade : ℚ) * 2 ^ e ≤ num / den := by
    refine choice.imp_right fun same => ?_
    rwa [← same, zpow_add₀ two_ne_zero, size, mul_comm] at above
  have few : m ≤ 2 * binade := by
    refine near.le_of_lt ?_
    calc (num : ℚ) / den < 2 ^ (BinaryFormat.floorLog2 num den + 1) := below
      _ ≤ 2 ^ (e + 52 + 1) := zpow_le_zpow_right₀ one_le_two (by omega)
      _ = (2 * binade : Nat) * 2 ^ e := by
          rw [two_zpow_add_one, zpow_add₀ two_ne_zero, size]
          push_cast
          ring
  -- a mantissa lacks bits at the least exponent only, and gets one too many by a carry
  rcases Nat.lt_or_ge m binade with small | filled
  · have lowest : e = -1074 :=
      normal.resolve_right fun large => absurd (near.le_of_le large) (not_le.2 small)
    subst lowest
    exact near.inSpan_of_lt nonneg small
  · rcases Nat.lt_or_ge m (2 * binade) with full | top
    · exact near.inSpan_of_le nonneg least filled full normal
    · obtain rfl : m = 2 * binade := Nat.le_antisymm few top
      exact near.inSpan_carry nonneg least

/-- Every size lies in the span of a double, if those beyond the greatest one are counted on. -/
theorem exists_inSpan (nonneg : 0 ≤ q) : ∃ rank, InSpan rank q := by
  rcases nonneg.eq_or_lt with rfl | pos
  · exact ⟨0, magnitude_zero ▸ inSpan_magnitude 0⟩
  · obtain ⟨num, whole⟩ := Int.eq_ofNat_of_zero_le (Rat.num_pos.2 pos).le
    have ratio : q = num / q.den := by
      rw [← Int.cast_natCast, ← whole]
      exact (Rat.num_div_den q).symm
    have filled : 0 < num := by
      have := Rat.num_pos.2 pos
      omega
    rw [ratio]
    exact ⟨_, inSpan_round filled q.den_pos⟩

/-! ### What numbers are rounded to -/

theorem ofRank_eq_iff {negative' : Bool} (finite : rank' < finiteCount) :
    ofRank negative rank = ofRank negative' rank' ↔ negative = negative' ∧ rank = rank' := by
  rw [ofRank, ofRank, dif_pos finite]
  split
  · rw [Double.finite.injEq, Fin.mk.injEq]
  · next beyond =>
      constructor
      · intro same
        cases same
      · rintro ⟨-, rfl⟩
        exact absurd finite beyond

theorem isZero_ofRank : (ofRank negative rank).isZero = true ↔ rank = 0 := by
  rw [ofRank]
  split
  · exact beq_iff_eq
  · next beyond =>
      constructor
      · intro zero
        exact absurd zero Bool.false_ne_true
      · rintro rfl
        exact absurd (by decide) beyond

/-- A ratio is rounded to the double in whose span it lies. -/
theorem ofRatio_of_inSpan (hd : 0 < den) (h : InSpan rank (num / den)) :
    ofRatio negative num den = ofRank negative rank := by
  rw [ofRatio]
  split
  · next zero =>
      rw [zero, Nat.cast_zero, zero_div, ← magnitude_zero] at h
      rw [(inSpan_magnitude 0).unique h]
  · next nonzero =>
      have hn : 0 < num := Nat.pos_of_ne_zero nonzero
      exact congrArg (ofRank negative) ((inSpan_round hn hd).unique h)

theorem magnitude_rankOf (he : -1074 ≤ e) (low : binade ≤ m) (high : m < 2 * binade) :
    magnitude (rankOf m e) = m * 2 ^ e := by
  rw [magnitude, mantissa_rankOf he low high, exponent_rankOf he low high]

theorem two_pow_lt_ten_pow {n : Nat} (pos : 0 < n) : (2 : ℚ) ^ (3 * n) < 10 ^ n := by
  rw [pow_mul]
  exact pow_lt_pow_left₀ (by norm_num) (by norm_num) (Nat.pos_iff_ne_zero.1 pos)

/-- The numbers beyond the reach of decimal exponents lie beyond the finite doubles. -/
theorem lowEnd_finiteCount_lt : lowEnd finiteCount < 10 ^ (decimalReach + 1) := by
  have first : finiteCount = rankOf binade 972 := by decide
  have size : magnitude finiteCount = binade * 2 ^ (972 : Int) := by
    rw [first]
    exact magnitude_rankOf (by decide) le_rfl (by decide)
  refine (inSpan_magnitude finiteCount).low.trans_lt ?_
  calc magnitude finiteCount = 2 ^ 52 * 2 ^ 972 := by
        rw [size, zpow_ofNat, binade]
        norm_num
    _ ≤ 2 ^ (3 * 401) := by
        rw [← pow_add]
        exact pow_le_pow_right₀ one_le_two (by decide)
    _ < 10 ^ 401 := two_pow_lt_ten_pow (by decide)

theorem highEnd_zero : highEnd 0 = 1 / 2 ^ 1075 := by
  have mantissa_eq : mantissa 0 = 0 := rfl
  have exponent_eq : exponent 0 - 2 = -1076 := rfl
  have next : (-1076 + 1 : Int) = -1075 := rfl
  rw [highEnd_eq, mantissa_eq, exponent_eq, Nat.cast_zero, mul_zero, zero_add,
    ← two_zpow_add_one, next, zpow_neg, zpow_ofNat, one_div]

/-- The numbers below the reach of decimal exponents lie in the span of zero. -/
theorem lt_highEnd_zero : (10 : ℚ) ^ (-decimalReach) < highEnd 0 := by
  have less : (2 : ℚ) ^ 1075 < 10 ^ 400 :=
    (pow_le_pow_right₀ one_le_two (by decide)).trans_lt
      (two_pow_lt_ten_pow (show 0 < 400 by decide))
  rw [highEnd_zero, decimalReach, zpow_neg, ← one_div]
  exact one_div_lt_one_div_of_lt (by positivity) less

/-- **A number is rounded to the double in whose span it lies.** -/
theorem ofScaled_of_inSpan {c : Nat} (h : InSpan rank (scaled c e)) :
    ofScaled negative c e = ofRank negative rank := by
  have one : (1 : ℚ) ≤ 10 := by norm_num
  rcases Nat.eq_zero_or_pos c with rfl | pos
  · rw [scaled_zero, ← magnitude_zero] at h
    rw [← (inSpan_magnitude 0).unique h]
    rfl
  · obtain ⟨least, greatest⟩ := scaled_bounds pos e
    have cases : ofScaled negative c e =
        if decimalReach < leading c e then .infinity negative
        else if leading c e < -decimalReach then ofRank negative 0
        else ofRatio negative (c * tenPow e.toNat) (tenPow (-e).toNat) := by
      rw [ofScaled, if_neg (Nat.pos_iff_ne_zero.1 pos)]
      rfl
    rw [cases]
    split
    · next large =>
        have beyond : ¬ rank < finiteCount := fun finite => by
          have high := h.high.trans (highEnd_le_lowEnd finite)
          have reach := zpow_le_zpow_right₀ one (show decimalReach + 1 ≤ leading c e from large)
          exact absurd (high.trans_lt lowEnd_finiteCount_lt) (not_lt.2 (reach.trans least))
        rw [ofRank, dif_neg beyond]
    · split
      · next small =>
          have reach := zpow_le_zpow_right₀ one (show leading c e + 1 ≤ -decimalReach from small)
          have zero : InSpan 0 (scaled c e) :=
            inSpan_of_lt (lowEnd_zero.trans_lt (scaled_pos pos e))
              ((greatest.trans_le reach).trans lt_highEnd_zero)
          rw [zero.unique h]
      · refine ofRatio_of_inSpan (Nat.pow_pos (by decide)) ?_
        rwa [scaled_eq_div] at h

/-- **The shortest decimal of a double reads back as that double.** -/
theorem ofScaled_shortest (negative : Bool) (rank : Nat) :
    ofScaled negative (shortest rank).1 (shortest rank).2 = ofRank negative rank :=
  ofScaled_of_inSpan (inSpan_shown rank)

/-! ### One and zero -/

/-- The rank of one. -/
def rankOfOne : Nat := rankOf binade (-52)

theorem inSpan_rankOfOne_iff : InSpan rankOfOne q ↔ 1 - 1 / 2 ^ 54 ≤ q ∧ q ≤ 1 + 1 / 2 ^ 53 := by
  have least : -1074 ≤ (-52 : Int) := by decide
  have single : binade < 2 * binade := by decide
  have closed : (span rankOfOne).closed = true := (closed_iff rankOfOne).2 (by decide)
  have mantissa_eq : mantissa rankOfOne = binade := mantissa_rankOf least le_rfl single
  have exponent_eq : exponent rankOfOne = -52 := exponent_rankOf least le_rfl single
  have low : lowEnd rankOfOne = 1 - 1 / 2 ^ 54 := by
    rw [lowEnd, span_low, if_pos ⟨mantissa_eq, by decide⟩, mantissa_eq, exponent_eq, binade]
    norm_num
  have high : highEnd rankOfOne = 1 + 1 / 2 ^ 53 := by
    rw [highEnd_eq, mantissa_eq, exponent_eq, binade]
    norm_num
  rw [← low, ← high]
  constructor
  · intro h
    exact ⟨h.low, h.high⟩
  · rintro ⟨above, below⟩
    refine ⟨above, below, fun opened => ?_⟩
    rw [closed] at opened
    exact absurd opened.symm Bool.false_ne_true

theorem inSpan_zero_iff (nonneg : 0 ≤ q) : InSpan 0 q ↔ q ≤ 1 / 2 ^ 1075 := by
  rw [← highEnd_zero]
  exact ⟨fun h => h.high, fun h => ⟨lowEnd_zero.trans_le nonneg, h, nofun⟩⟩

/-- The numbers that are rounded to one. -/
theorem ofRank_eq_one_iff (h : InSpan rank q) :
    ofRank negative rank = one ↔ negative = false ∧ 1 - 1 / 2 ^ 54 ≤ q ∧ q ≤ 1 + 1 / 2 ^ 53 := by
  have finite : rankOfOne < finiteCount := by decide
  have same : rank = rankOfOne ↔ InSpan rankOfOne q := ⟨fun eq => eq ▸ h, h.unique⟩
  rw [← inSpan_rankOfOne_iff, ← same]
  exact ofRank_eq_iff finite

/-- The numbers that are rounded to zero. -/
theorem isZero_ofRank_iff (h : InSpan rank q) (nonneg : 0 ≤ q) :
    (ofRank negative rank).isZero = true ↔ q ≤ 1 / 2 ^ 1075 := by
  rw [isZero_ofRank, ← inSpan_zero_iff nonneg]
  exact ⟨fun eq => eq ▸ h, h.unique⟩

theorem ofInt_eq_one_iff {n : Int} : ofInt n = one ↔ n = 1 := by
  obtain ⟨rank, h⟩ := exists_inSpan (q := (n.natAbs : ℚ) / (1 : Nat)) (by positivity)
  rw [ofInt, ofRatio_of_inSpan one_pos h, ofRank_eq_one_iff h, Nat.cast_one, div_one]
  constructor
  · rintro ⟨sign, low, high⟩
    have least : (0 : ℚ) < n.natAbs := lt_of_lt_of_le (by norm_num) low
    have most : (n.natAbs : ℚ) < 2 := lt_of_le_of_lt high (by norm_num)
    have least' : 0 < n.natAbs := by exact_mod_cast least
    have most' : n.natAbs < 2 := by exact_mod_cast most
    have sign' : ¬ n < 0 := of_decide_eq_false sign
    omega
  · rintro rfl
    norm_num

theorem isZero_ofInt_iff {n : Int} : (ofInt n).isZero = true ↔ n = 0 := by
  obtain ⟨rank, h⟩ := exists_inSpan (q := (n.natAbs : ℚ) / (1 : Nat)) (by positivity)
  rw [ofInt, ofRatio_of_inSpan one_pos h, isZero_ofRank_iff h (by positivity), Nat.cast_one,
    div_one]
  constructor
  · intro small
    have most : (n.natAbs : ℚ) < 1 := small.trans_lt (by
      rw [div_lt_one (by positivity)]
      exact one_lt_pow₀ one_lt_two (by decide))
    have most' : n.natAbs < 1 := by exact_mod_cast most
    omega
  · rintro rfl
    rw [Int.natAbs_zero, Nat.cast_zero]
    positivity

/-! ### The numbers that doubles are -/

/-- The number that a double is, if it is finite. -/
def value? : Double → Option ℚ
  | .nan | .infinity _ => none
  | .finite negative r => some (withSign negative (magnitude r))

theorem magnitude_nonneg (rank : Nat) : 0 ≤ magnitude rank := by
  rw [magnitude]
  positivity

theorem withSign_eq_one_iff (nonneg : 0 ≤ q) :
    withSign negative q = 1 ↔ negative = false ∧ q = 1 := by
  cases negative with
  | false => exact (and_iff_right rfl).symm
  | true =>
      refine ⟨fun h => ?_, nofun⟩
      have : -q = 1 := h
      linarith

theorem withSign_eq_zero_iff : withSign negative q = 0 ↔ q = 0 := by
  cases negative with
  | false => rfl
  | true => exact neg_eq_zero

/-- Only one is one. -/
theorem value?_eq_one_iff {x : Double} : x.value? = some 1 ↔ x = one := by
  cases x with
  | nan | infinity => exact ⟨nofun, nofun⟩
  | finite negative r =>
      have size : magnitude rankOfOne = 1 := by
        rw [rankOfOne, magnitude_rankOf (by decide) le_rfl (by decide), binade]
        norm_num
      have rank : magnitude r = 1 ↔ r.val = rankOfOne := by
        rw [← size]
        exact magnitude_injective.eq_iff
      have bound : rankOfOne < finiteCount := by decide
      have shape : one = finite false ⟨rankOfOne, bound⟩ := by
        show ofRank false rankOfOne = _
        rw [ofRank, dif_pos bound]
      rw [value?, Option.some.injEq, withSign_eq_one_iff (magnitude_nonneg r), rank, shape,
        Double.finite.injEq, Fin.ext_iff]

/-- The zeros are zero. -/
theorem value?_eq_zero_iff {x : Double} : x.value? = some 0 ↔ x.isZero = true := by
  cases x with
  | nan | infinity => exact ⟨nofun, nofun⟩
  | finite negative r =>
      rw [value?, Option.some.injEq, withSign_eq_zero_iff, ← magnitude_zero,
        magnitude_injective.eq_iff]
      exact beq_iff_eq.symm

end RowLiteral.Double
