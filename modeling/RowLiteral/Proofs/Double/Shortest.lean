import Mathlib.Data.Nat.Cast.Field
import Mathlib.Tactic.FieldSimp
import RowLiteral.Double.Shortest
import RowLiteral.Proofs.Number.Value

/-!
# Double — the shortest decimal

The shortest decimal is looked for on grids of powers of ten, from the coarse ones to the fine ones.
A number on a grid and the span of a double are compared in whole numbers (`scaled_le_iff`,
`le_scaled_iff`), so whatever is found lies in the span (`le_of_isHit`).  Something is found: on the
grid of seventeen digits more than the first (`exists_onGrid?_top`), and for a whole double already
on the grid of the whole numbers (`exists_onGrid?_zero`).

* `abs_shown_sub_magnitude`: what is shown for a double with all of its bits is at most one part in
  `2 ^ 53` away from it.
* `exists_shown_of_whole`: what is shown for a whole double is a whole number.
-/

namespace RowLiteral.Double
open Number

/-! ### Powers in whole numbers -/

/-- A power of two in quarters. -/
theorem two_zpow_quarters (e : Int) : (2 : ℚ) ^ e = 4 * 2 ^ (e - 2) := by
  rw [zpow_sub₀ two_ne_zero]
  norm_num
  ring

variable {c k m num den rank : Nat} {e g grid top : Int}

/-- What a multiple of a power of two and one of a power of ten are multiplied with to be whole. -/
def common (e g : Int) : ℚ := 2 ^ (-e).toNat * 10 ^ (-g).toNat

theorem common_pos (e g : Int) : 0 < common e g := by
  rw [common]
  positivity

theorem cast_mul_twoPow (k : Nat) (e g : Int) :
    ((k * (twoPow e.toNat * tenPow (-g).toNat) : Nat) : ℚ) = k * 2 ^ e * common e g := by
  rw [zpow_eq_div, common, twoPow, tenPow]
  push_cast [Nat.pow_eq]
  field_simp

theorem cast_mul_tenPow (c : Nat) (e g : Int) :
    ((c * (twoPow (-e).toNat * tenPow g.toNat) : Nat) : ℚ) = scaled c g * common e g := by
  rw [scaled, zpow_eq_div, common, twoPow, tenPow]
  push_cast [Nat.pow_eq]
  field_simp

/-- A multiple of a power of ten and one of a power of two are compared in whole numbers. -/
theorem scaled_le_iff (c k : Nat) (e g : Int) : scaled c g ≤ k * 2 ^ e ↔
    c * (twoPow (-e).toNat * tenPow g.toNat) ≤ k * (twoPow e.toNat * tenPow (-g).toNat) := by
  rw [← Nat.cast_le (α := ℚ), cast_mul_twoPow, cast_mul_tenPow,
    mul_le_mul_iff_left₀ (common_pos e g)]

theorem le_scaled_iff (c k : Nat) (e g : Int) : k * 2 ^ e ≤ scaled c g ↔
    k * (twoPow e.toNat * tenPow (-g).toNat) ≤ c * (twoPow (-e).toNat * tenPow g.toNat) := by
  rw [← Nat.cast_le (α := ℚ), cast_mul_twoPow, cast_mul_tenPow,
    mul_le_mul_iff_left₀ (common_pos e g)]

/-- A ratio lies between the power of ten of its logarithm and the next one. -/
theorem floorLog10_bounds (hn : 0 < num) (hd : 0 < den) :
    (10 : ℚ) ^ floorLog10 num den ≤ num / den ∧
      (num : ℚ) / den < 10 ^ (floorLog10 num den + 1) := by
  have ten : (0 : ℚ) < 10 := by norm_num
  have bounds {n : Nat} (hn : 0 < n) :
      (10 : ℚ) ^ ((digitCount n : Int) - 1) ≤ n ∧ (n : ℚ) < 10 ^ ((digitCount n : Int) - 1 + 1) := by
    have first : leading n 0 = digitCount n - 1 := by
      have := digitCount_pos n
      rw [leading]
      omega
    have bounds := scaled_bounds hn 0
    rwa [scaled_whole, first] at bounds
  obtain ⟨above, below⟩ := ratio_bounds ten (bounds hn) (bounds hd)
  rw [sub_sub_sub_cancel_right] at above below
  have test (k : Int) : num * tenPow (-k).toNat < den * tenPow k.toNat ↔
      (num : ℚ) / den < 10 ^ k := mul_pow_lt_iff (show 0 < 10 by decide) hd k
  rw [floorLog10]
  simp only [test]
  split
  · next less => exact ⟨above.le, by rwa [sub_add_cancel]⟩
  · next more => exact ⟨not_lt.1 more, below⟩

/-! ### Spans -/

theorem mantissa_pos (h : 0 < rank) : 0 < mantissa rank := by
  rw [mantissa]
  split
  · exact h
  · exact Nat.lt_add_right _ (by decide)

theorem mantissa_lt (rank : Nat) : mantissa rank < 2 * binade := by
  have rest := Nat.mod_lt rank (show 0 < binade by decide)
  rw [mantissa]
  split <;> omega

theorem span_bounds (rank : Nat) : 4 * mantissa rank ≤ (span rank).low + 2 ∧
    (0 < mantissa rank → (span rank).low < 4 * mantissa rank) ∧
    (span rank).high = 4 * mantissa rank + 2 := by
  rw [span]
  dsimp only
  split <;> omega

/-! ### Hits -/

/-- The unit of a span, a quarter of that of the double, in whole numbers. -/
def unitOf (rank : Nat) (grid : Int) : Nat :=
  twoPow (exponent rank - 2).toNat * tenPow (-grid).toNat

/-- The unit of a grid in whole numbers. -/
def stepOf (rank : Nat) (grid : Int) : Nat :=
  twoPow (-(exponent rank - 2)).toNat * tenPow grid.toNat

theorem stepOf_pos (rank : Nat) (grid : Int) : 0 < stepOf rank grid :=
  Nat.mul_pos (Nat.pow_pos (by decide)) (Nat.pow_pos (by decide))

/-- A number on a grid lies in the span of a double. -/
def isHit (rank : Nat) (grid : Int) (c : Nat) : Bool :=
  let s := span rank
  if s.closed then
    s.low * unitOf rank grid ≤ c * stepOf rank grid &&
      c * stepOf rank grid ≤ s.high * unitOf rank grid
  else s.low * unitOf rank grid < c * stepOf rank grid &&
      c * stepOf rank grid < s.high * unitOf rank grid

theorem le_of_isHit (h : isHit rank grid c = true) :
    (span rank).low * 2 ^ (exponent rank - 2) ≤ scaled c grid ∧
      scaled c grid ≤ (span rank).high * 2 ^ (exponent rank - 2) := by
  rw [le_scaled_iff, scaled_le_iff]
  simp only [isHit] at h
  split at h
  · rwa [Bool.and_eq_true, decide_eq_true_eq, decide_eq_true_eq] at h
  · rw [Bool.and_eq_true, decide_eq_true_eq, decide_eq_true_eq] at h
    exact ⟨h.1.le, h.2.le⟩

theorem isHit_of_lt
    (low : (span rank).low * unitOf rank grid < c * stepOf rank grid)
    (high : c * stepOf rank grid < (span rank).high * unitOf rank grid) :
    isHit rank grid c = true := by
  simp only [isHit]
  split
  · rw [decide_eq_true low.le, decide_eq_true high.le]
    rfl
  · rw [decide_eq_true low, decide_eq_true high]
    rfl

/-- The greatest number on a grid that is not above the double. -/
def lower (rank : Nat) (grid : Int) : Nat :=
  4 * mantissa rank * unitOf rank grid / stepOf rank grid

/-- The neighbour on a grid that is nearer to the double, the even one in a tie. -/
def nearer (rank : Nat) (grid : Int) : Nat :=
  let number := 4 * mantissa rank * unitOf rank grid
  let toLower := number - lower rank grid * stepOf rank grid
  let toUpper := (lower rank grid + 1) * stepOf rank grid - number
  if toLower < toUpper then lower rank grid
  else if toUpper < toLower then lower rank grid + 1
  else lower rank grid + lower rank grid % 2

theorem nearer_cases (rank : Nat) (grid : Int) :
    nearer rank grid = lower rank grid ∨ nearer rank grid = lower rank grid + 1 := by
  simp only [nearer]
  split_ifs <;> omega

/-- What is taken on a grid, by which neighbours are hits. -/
theorem onGrid?_eq (rank : Nat) (grid : Int) : onGrid? rank grid =
    if isHit rank grid (lower rank grid) && isHit rank grid (lower rank grid + 1) then
      some (nearer rank grid)
    else if isHit rank grid (lower rank grid) then some (lower rank grid)
    else if isHit rank grid (lower rank grid + 1) then some (lower rank grid + 1)
    else none := rfl

theorem isHit_of_onGrid? (h : onGrid? rank grid = some c) : isHit rank grid c = true := by
  rw [onGrid?_eq] at h
  split at h
  · next both =>
      obtain ⟨down, up⟩ := Bool.and_eq_true_iff.1 both
      rw [← Option.some.inj h]
      rcases nearer_cases rank grid with taken | taken <;> rw [taken] <;> assumption
  · split at h
    · next down => exact Option.some.inj h ▸ down
    · split at h
      · next up => exact Option.some.inj h ▸ up
      · exact absurd h nofun

/-- There is a hit on a grid where the number below the double is less than a quarter of its unit
away. -/
theorem exists_onGrid? (pos : 0 < rank)
    (near : 4 * mantissa rank * unitOf rank grid % stepOf rank grid < unitOf rank grid) :
    ∃ c, onGrid? rank grid = some c := by
  obtain ⟨-, low, high⟩ := span_bounds rank
  have down : lower rank grid * stepOf rank grid +
      4 * mantissa rank * unitOf rank grid % stepOf rank grid =
        4 * mantissa rank * unitOf rank grid := Nat.div_add_mod' _ _
  have hit : isHit rank grid (lower rank grid) = true := by
    refine isHit_of_lt ?_ ?_
    · have gap : (span rank).low + 1 ≤ 4 * mantissa rank := low (mantissa_pos pos)
      have scaled := Nat.mul_le_mul_right (unitOf rank grid) gap
      rw [Nat.succ_mul] at scaled
      omega
    · rw [high, Nat.add_mul]
      omega
  rw [onGrid?_eq]
  split <;> exact ⟨_, rfl⟩

/-! ### The first hit -/

/-- The first answer of a function on numbers comes no later than any given one. -/
theorem exists_findSome?_range {β : Type} {f : Nat → Option β} {b : β} {i n : Nat} (hi : i < n)
    (h : f i = some b) :
    ∃ j ≤ i, ∃ b', f j = some b' ∧ (List.range n).findSome? f = some b' := by
  cases first : (List.range n).findSome? f with
  | none =>
      have none := List.findSome?_eq_none_iff.1 first i (List.mem_range.2 hi)
      exact absurd (h.symm.trans none) nofun
  | some b' =>
      obtain ⟨before, j, after, parts, answer, silent⟩ := List.findSome?_eq_some_iff.1 first
      have sorted : (List.range n).Pairwise (· < ·) := List.pairwise_lt_range
      have mem : i ∈ List.range n := List.mem_range.2 hi
      rw [parts] at sorted mem
      refine ⟨j, ?_, b', answer, rfl⟩
      rcases List.mem_append.1 mem with early | late
      · exact absurd (h.symm.trans (silent i early)) nofun
      · rcases List.mem_cons.1 late with same | later
        · exact same.ge
        · exact (List.rel_of_pairwise_cons (List.pairwise_append.1 sorted).2.1 later).le

/-- The first hit is on a grid no finer than one on which there is a hit. -/
theorem exists_firstHit? {i : Nat} (hi : i < 18) (hit : onGrid? rank (top - i) = some k) :
    ∃ c, ∃ j ≤ i, onGrid? rank (top - (j : Nat)) = some c ∧
      firstHit? rank top = some (c, top - (j : Nat)) := by
  have answer : (onGrid? rank (top - i)).map (fun c => (c, top - (i : Nat))) =
      some (k, top - (i : Nat)) := by rw [hit, Option.map_some]
  obtain ⟨j, le, b, taken, first⟩ := exists_findSome?_range
    (f := fun (more : Nat) => (onGrid? rank (top - more)).map fun c => (c, top - more)) hi answer
  obtain ⟨c, found, rfl⟩ := Option.map_eq_some_iff.1 taken
  exact ⟨c, j, le, found, first⟩

/-! ### The decimal of a double -/

/-- The size of the double with a rank. -/
def magnitude (rank : Nat) : ℚ := mantissa rank * 2 ^ exponent rank

/-- The number that the shortest decimal of the double with a rank denotes. -/
def shown (rank : Nat) : ℚ := scaled (shortest rank).1 (shortest rank).2

/-- The exponent of the first digit of the double with a rank. -/
def topOf (rank : Nat) : Int :=
  floorLog10 (mantissa rank * twoPow (exponent rank).toNat) (twoPow (-exponent rank).toNat)

/-- The size of a double in quarters of its unit. -/
theorem magnitude_quarters (rank : Nat) :
    magnitude rank = 4 * mantissa rank * 2 ^ (exponent rank - 2) := by
  rw [magnitude, two_zpow_quarters (exponent rank)]
  ring

theorem magnitude_zero : magnitude 0 = 0 := by simp [magnitude, mantissa, binade]

theorem magnitude_eq_div (rank : Nat) : magnitude rank =
    ((mantissa rank * twoPow (exponent rank).toNat : Nat) : ℚ) /
      (twoPow (-exponent rank).toNat : Nat) := by
  rw [magnitude, zpow_eq_div, twoPow, twoPow]
  push_cast [Nat.pow_eq]
  exact (mul_div_assoc _ _ _).symm

/-- The first digit of a double, from its exponent. -/
theorem magnitude_bounds (pos : 0 < rank) :
    (10 : ℚ) ^ topOf rank ≤ magnitude rank ∧ magnitude rank < 10 ^ (topOf rank + 1) := by
  rw [magnitude_eq_div]
  exact floorLog10_bounds (Nat.mul_pos (mantissa_pos pos) (Nat.pow_pos (by decide)))
    (Nat.pow_pos (by decide))

/-- What a hit on some grid says of the number that is shown. -/
theorem exists_shown {i : Nat} (hi : i < 18) (hit : onGrid? rank (topOf rank - i) = some k) :
    ∃ c, ∃ j ≤ i, shown rank = scaled c (topOf rank - (j : Nat)) ∧
      isHit rank (topOf rank - (j : Nat)) c = true := by
  obtain ⟨c, j, le, found, first⟩ := exists_firstHit? hi hit
  refine ⟨c, j, le, ?_, isHit_of_onGrid? found⟩
  have value : shortest rank = stripZeros c (topOf rank - (j : Nat)) := by
    have whole : shortest rank =
        stripZeros ((firstHit? rank (topOf rank)).getD (0, 0)).1
          ((firstHit? rank (topOf rank)).getD (0, 0)).2 := rfl
    rw [whole, first, Option.getD_some]
  rw [shown, value, scaled_stripZeros]

/-- Seventeen digits more than the first are enough for a hit. -/
theorem exists_onGrid?_top (pos : 0 < rank) :
    ∃ c, onGrid? rank (topOf rank - (17 : Nat)) = some c := by
  have ten : (10 : ℚ) ≠ 0 := by norm_num
  have two : (2 : ℚ) ≠ 0 := by norm_num
  have bits : (mantissa rank : ℚ) ≤ 2 ^ 53 := by exact_mod_cast (mantissa_lt rank).le
  have unit : (0 : ℚ) < 2 ^ (exponent rank - 2) := by positivity
  have least : (10 : ℚ) ^ topOf rank ≤ mantissa rank * 2 ^ exponent rank :=
    (magnitude_bounds pos).1
  have fine : scaled 1 (topOf rank - (17 : Nat)) ≤ (1 : Nat) * 2 ^ (exponent rank - 2) := by
    rw [scaled, zpow_sub₀ ten, zpow_natCast, Nat.cast_one, one_mul, one_mul,
      div_le_iff₀ (by positivity)]
    calc (10 : ℚ) ^ topOf rank ≤ mantissa rank * 2 ^ exponent rank := least
      _ ≤ 2 ^ 53 * (4 * 2 ^ (exponent rank - 2)) := by
          rw [two_zpow_quarters (exponent rank)]
          exact mul_le_mul_of_nonneg_right bits (by positivity)
      _ = 2 ^ 55 * 2 ^ (exponent rank - 2) := by ring
      _ ≤ 10 ^ 17 * 2 ^ (exponent rank - 2) :=
          mul_le_mul_of_nonneg_right (by norm_num) unit.le
      _ = 2 ^ (exponent rank - 2) * 10 ^ 17 := mul_comm _ _
  have step : stepOf rank (topOf rank - (17 : Nat)) ≤ unitOf rank (topOf rank - (17 : Nat)) := by
    have whole := (scaled_le_iff 1 1 _ _).1 fine
    rwa [Nat.one_mul, Nat.one_mul] at whole
  exact exists_onGrid? pos ((Nat.mod_lt _ (stepOf_pos _ _)).trans_le step)

/-- **The number that is shown for a double** differs from it by at most one part in `2 ^ 53`. -/
theorem abs_shown_sub_magnitude (normal : binade ≤ rank) :
    |shown rank - magnitude rank| * 2 ^ 53 ≤ magnitude rank := by
  have two : (2 : ℚ) ≠ 0 := by norm_num
  have pos : 0 < rank := Nat.lt_of_lt_of_le (by decide) normal
  obtain ⟨k, fine⟩ := exists_onGrid?_top pos
  obtain ⟨c, j, -, value, hit⟩ := exists_shown (by decide) fine
  obtain ⟨least, greatest⟩ := le_of_isHit hit
  obtain ⟨low, -, high⟩ := span_bounds rank
  have bits : 2 ^ 52 ≤ mantissa rank := by
    rw [mantissa, if_neg (not_lt.2 normal)]
    exact Nat.le_add_right _ _
  have size := magnitude_quarters rank
  rw [← value] at least greatest
  have low' : (4 * mantissa rank : ℚ) ≤ (span rank).low + 2 := by exact_mod_cast low
  have high' : ((span rank).high : ℚ) = 4 * mantissa rank + 2 := by exact_mod_cast high
  have bits' : (2 : ℚ) ^ 52 ≤ mantissa rank := by exact_mod_cast bits
  rw [high'] at greatest
  have unit : (0 : ℚ) < 2 ^ (exponent rank - 2) := by positivity
  generalize (2 : ℚ) ^ (exponent rank - 2) = u at *
  have near : |shown rank - magnitude rank| ≤ 2 * u := by
    rw [abs_le, size]
    constructor <;> nlinarith
  rw [size] at near ⊢
  nlinarith

/-! ### Whole doubles -/

theorem mul_zpow_of_wholeScaled? {n : Nat} (h : wholeScaled? m e = some n) :
    (m : ℚ) * 2 ^ e = n := by
  rw [wholeScaled?] at h
  rw [zpow_eq_div]
  split at h
  · next whole =>
      have none : (-e).toNat = 0 := by omega
      rw [← Option.some.inj h, none, twoPow]
      push_cast [Nat.pow_eq]
      rw [pow_zero, div_one]
  · next fraction =>
      have none : e.toNat = 0 := by omega
      split at h
      · next divides =>
          have power : ((twoPow (-e).toNat : Nat) : ℚ) = 2 ^ (-e).toNat := by
            rw [twoPow]
            push_cast [Nat.pow_eq]
            rfl
          rw [← Option.some.inj h, none, Nat.cast_div (Nat.dvd_of_mod_eq_zero divides)
            (by rw [power]; positivity), power, pow_zero, mul_one_div]
      · exact absurd h nofun

variable {n : Nat}

theorem magnitude_of_whole (whole : wholeScaled? (mantissa rank) (exponent rank) = some n) :
    magnitude rank = n :=
  mul_zpow_of_wholeScaled? whole

/-- A whole double is zero or one with all of its bits. -/
theorem binade_le_of_whole (whole : wholeScaled? (mantissa rank) (exponent rank) = some n)
    (pos : 0 < rank) : binade ≤ rank := by
  by_contra! less
  have size := magnitude_of_whole whole
  rw [magnitude, mantissa, if_pos less, exponent, if_pos less] at size
  have one : (1 : ℚ) ≤ 2 := by norm_num
  have unit : (2 : ℚ) ^ (-1074 : Int) ≤ 2 ^ (-52 : Int) := zpow_le_zpow_right₀ one (by decide)
  have bits : (rank : ℚ) < 2 ^ 52 := by exact_mod_cast less
  have nonneg : (0 : ℚ) < rank := by exact_mod_cast pos
  have small : (n : ℚ) < 1 := by
    calc (n : ℚ) = rank * 2 ^ (-1074 : Int) := size.symm
      _ ≤ rank * 2 ^ (-52 : Int) := mul_le_mul_of_nonneg_left unit nonneg.le
      _ < 2 ^ 52 * 2 ^ (-52 : Int) := mul_lt_mul_of_pos_right bits (by positivity)
      _ = 1 := by norm_num
  have large : (0 : ℚ) < n := by
    rw [← size]
    positivity
  have zero : n < 1 := by exact_mod_cast small
  have one : 0 < n := by exact_mod_cast large
  omega

theorem shown_zero : shown 0 = 0 := by
  have digits : shortest 0 = (0, 0) := by decide +kernel
  rw [shown, digits, scaled_zero]

/-- A whole double is shown by a number that differs by at most one part in `2 ^ 53`. -/
theorem abs_shown_sub_of_whole (whole : wholeScaled? (mantissa rank) (exponent rank) = some n) :
    |shown rank - n| * 2 ^ 53 ≤ n := by
  rw [← magnitude_of_whole whole]
  rcases Nat.eq_zero_or_pos rank with rfl | pos
  · rw [shown_zero, magnitude_zero]
    norm_num
  · exact abs_shown_sub_magnitude (binade_le_of_whole whole pos)

/-- On the grid of whole numbers a whole double is hit. -/
theorem exists_onGrid?_zero (pos : 0 < rank)
    (whole : wholeScaled? (mantissa rank) (exponent rank) = some n) :
    ∃ c, onGrid? rank 0 = some c := by
  have two : (2 : ℚ) ≠ 0 := by norm_num
  have number : (4 * mantissa rank : Nat) * 2 ^ (exponent rank - 2) = scaled n 0 := by
    have size := mul_zpow_of_wholeScaled? whole
    rw [scaled_whole, ← size, two_zpow_quarters (exponent rank)]
    push_cast
    ring
  have exact : 4 * mantissa rank * unitOf rank 0 = n * stepOf rank 0 := by
    refine Nat.cast_injective (R := ℚ) ?_
    rw [unitOf, cast_mul_twoPow, number, stepOf, cast_mul_tenPow]
  refine exists_onGrid? pos ?_
  rw [exact, Nat.mul_mod_left]
  exact Nat.mul_pos (Nat.pow_pos (by decide)) (Nat.pow_pos (by decide))

/-- The first digit of a whole double does not stand after the point. -/
theorem topOf_nonneg_of_whole (pos : 0 < rank)
    (whole : wholeScaled? (mantissa rank) (exponent rank) = some n) : 0 ≤ topOf rank := by
  have one : (1 : ℚ) < 10 := by norm_num
  obtain ⟨least, greatest⟩ := magnitude_bounds pos
  rw [magnitude_of_whole whole] at least greatest
  have positive : (0 : ℚ) < n := (zpow_pos (by norm_num) _).trans_le least
  have filled : (1 : ℚ) ≤ n := by exact_mod_cast positive
  have above : (10 : ℚ) ^ (0 : Int) < 10 ^ (topOf rank + 1) := by
    rw [zpow_zero]
    exact filled.trans_lt greatest
  have := (zpow_lt_zpow_iff_right₀ one).1 above
  omega

/-- A grid of whole numbers is hit by a whole double: that of the units, or the finest one that is
tried. -/
theorem exists_onGrid?_of_whole (pos : 0 < rank)
    (whole : wholeScaled? (mantissa rank) (exponent rank) = some n) :
    ∃ i : Nat, i < 18 ∧ (i : Int) ≤ topOf rank ∧
      ∃ k, onGrid? rank (topOf rank - i) = some k := by
  have first := topOf_nonneg_of_whole pos whole
  by_cases small : topOf rank ≤ 17
  · refine ⟨(topOf rank).toNat, by omega, by omega, ?_⟩
    rw [Int.toNat_of_nonneg first, sub_self]
    exact exists_onGrid?_zero pos whole
  · exact ⟨17, by decide, by omega, exists_onGrid?_top pos⟩

/-- **What is shown for a whole double is a whole number.** -/
theorem exists_shown_of_whole (whole : wholeScaled? (mantissa rank) (exponent rank) = some n) :
    ∃ k : Nat, shown rank = k := by
  rcases Nat.eq_zero_or_pos rank with rfl | pos
  · exact ⟨0, by rw [shown_zero, Nat.cast_zero]⟩
  · obtain ⟨i, few, le, k, hit⟩ := exists_onGrid?_of_whole pos whole
    obtain ⟨c, j, hj, value, -⟩ := exists_shown few hit
    have units : 0 ≤ topOf rank - (j : Nat) := by omega
    obtain ⟨p, power⟩ := Int.eq_ofNat_of_zero_le units
    refine ⟨c * 10 ^ p, ?_⟩
    rw [value, power, scaled]
    push_cast
    rw [zpow_natCast]

end RowLiteral.Double
