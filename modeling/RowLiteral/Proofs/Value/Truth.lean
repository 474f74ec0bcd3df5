import RowLiteral.Proofs.Double.Rounding
import RowLiteral.Proofs.Row.Materialize

/-!
# Value — numbers as truth values

One is true, zero is false, and no other number is a truth value.  Numbers that are kept as doubles
and integers of any size are told apart exactly (`Double.boolOfNumber?_iff`, `boolOfNumber?_ofInt`).
A decimal is rounded to a double first, so that a decimal nearer to one or to zero than to any other
double is taken for it (`Scalar.Blurs`).

* `Scalar.bool?_iff`: the numbers that are read as a truth value.
* `Scalar.readsExactly_iff`: a number is read exactly unless it is a decimal that blurs.
-/

namespace RowLiteral
open Number

/-- The kinds of numbers. -/
def Kind.numbers : List Kind := [.int2, .int4, .int8, .float4, .float8, .decimal]

/-- The number that stands for a truth value. -/
def truthNumber (b : Bool) : ℚ := if b then 1 else 0

namespace Scalar

/-- The number that a scalar is, if it is a finite one. -/
def value? : Scalar → Option ℚ
  | .int2 x | .int4 x | .float4 x | .float8 x => x.value?
  | .int8 n => some n
  | .decimal d => d.value?
  | _ => none

/-- A number is read as a truth value where it is exactly one or exactly zero.  In a column of truth
values it becomes one there, and it is kept everywhere else. -/
structure ReadsExactly (x : Scalar) : Prop where
  reads (b : Bool) : x.bool? = some b ↔ x.value? = some (truthNumber b)
  becomes (machine : Zone) {type : ColumnType} (truth : type = .bool ∨ type = .bit) {b : Bool} :
    x.value? = some (truthNumber b) →
      (Value.scalar x).coerce machine type.id = .scalar (.bool b)
  keeps (machine : Zone) {type : ColumnType} (truth : type = .bool ∨ type = .bit) :
    (∀ b, x.value? ≠ some (truthNumber b)) →
      (Value.scalar x).coerce machine type.id = .scalar x

/-- A decimal that is not a truth value is taken for one: it is as near to one, or to zero, as the
numbers that are rounded to that double. -/
inductive Blurs : Scalar → Bool → Prop where
  | one {d : Decimal} {q : ℚ} (value : d.value? = some q) (other : q ≠ 1)
      (low : 1 - 1 / 2 ^ 54 ≤ q) (high : q ≤ 1 + 1 / 2 ^ 53) : Blurs (.decimal d) true
  | zero {d : Decimal} {q : ℚ} (value : d.value? = some q) (other : q ≠ 0)
      (near : |q| ≤ 1 / 2 ^ 1075) : Blurs (.decimal d) false

end Scalar

variable {b : Bool} {x : Scalar}

/-! ### Doubles -/

theorem boolOfNumber?_eq_true {d : Double} : boolOfNumber? d = some true ↔ d = .one := by
  rw [boolOfNumber?]
  split
  · next one => exact iff_of_true rfl one
  · next other => split <;> exact iff_of_false nofun other

theorem boolOfNumber?_eq_false {d : Double} : boolOfNumber? d = some false ↔ d.isZero = true := by
  rw [boolOfNumber?]
  split
  · next one =>
      rw [one]
      decide
  · split
    · next zero => exact iff_of_true rfl zero
    · next other => exact iff_of_false nofun other

/-- A double is read exactly. -/
theorem boolOfNumber?_iff {d : Double} :
    boolOfNumber? d = some b ↔ d.value? = some (truthNumber b) := by
  cases b with
  | true => exact boolOfNumber?_eq_true.trans Double.value?_eq_one_iff.symm
  | false => exact boolOfNumber?_eq_false.trans Double.value?_eq_zero_iff.symm

/-- An integer is read exactly, whatever its size. -/
theorem boolOfNumber?_ofInt {n : Int} :
    boolOfNumber? (.ofInt n) = some b ↔ (n : ℚ) = truthNumber b := by
  cases b with
  | true => exact (boolOfNumber?_eq_true.trans Double.ofInt_eq_one_iff).trans Int.cast_eq_one.symm
  | false =>
      exact (boolOfNumber?_eq_false.trans Double.isZero_ofInt_iff).trans Int.cast_eq_zero.symm

/-! ### Decimals -/

namespace Decimal

/-- The decimals that are rounded to one. -/
theorem toDouble_eq_one_iff {d : Decimal} : d.toDouble = .one ↔
    ∃ q, d.value? = some q ∧ 1 - 1 / 2 ^ 54 ≤ q ∧ q ≤ 1 + 1 / 2 ^ 53 := by
  cases d with
  | nan => exact iff_of_false (by decide) (by simp [value?])
  | infinity negative => exact iff_of_false (by cases negative <;> decide) (by simp [value?])
  | finite negative c e stripped =>
      obtain ⟨rank, h⟩ := Double.exists_inSpan (scaled_nonneg c e)
      rw [toDouble, Double.ofScaled_of_inSpan h, Double.ofRank_eq_one_iff h]
      cases negative with
      | false =>
          constructor
          · rintro ⟨-, near⟩
            exact ⟨scaled c e, rfl, near⟩
          · rintro ⟨q, value, near⟩
            obtain rfl : scaled c e = q := Option.some.inj value
            exact ⟨rfl, near⟩
      | true =>
          refine iff_of_false (fun signs => absurd signs.1.symm Bool.false_ne_true) ?_
          rintro ⟨q, value, low, -⟩
          obtain rfl : -scaled c e = q := Option.some.inj value
          have positive : (0 : ℚ) < -scaled c e := lt_of_lt_of_le (by norm_num) low
          exact absurd (scaled_nonneg c e) (not_le.2 (neg_pos.1 positive))

/-- The decimals that are rounded to zero. -/
theorem isZero_toDouble_iff {d : Decimal} : d.toDouble.isZero = true ↔
    ∃ q, d.value? = some q ∧ |q| ≤ 1 / 2 ^ 1075 := by
  cases d with
  | nan => exact iff_of_false (by decide) (by simp [value?])
  | infinity negative => exact iff_of_false (by cases negative <;> decide) (by simp [value?])
  | finite negative c e stripped =>
      obtain ⟨rank, h⟩ := Double.exists_inSpan (scaled_nonneg c e)
      rw [toDouble, Double.ofScaled_of_inSpan h,
        Double.isZero_ofRank_iff h (scaled_nonneg c e), ← abs_withSign negative c e]
      constructor
      · intro near
        exact ⟨_, rfl, near⟩
      · rintro ⟨q, value, near⟩
        obtain rfl : withSign negative (scaled c e) = q := Option.some.inj value
        exact near

end Decimal

namespace Scalar

/-! ### Numbers -/

theorem bool?_decimal_iff {d : Decimal} : boolOfNumber? d.toDouble = some b ↔
    d.value? = some (truthNumber b) ∨ Blurs (.decimal d) b := by
  cases b with
  | true =>
      rw [boolOfNumber?_eq_true, Decimal.toDouble_eq_one_iff]
      constructor
      · rintro ⟨q, value, low, high⟩
        by_cases exact : q = 1
        · subst exact
          exact .inl value
        · exact .inr (.one value exact low high)
      · rintro (value | blurs)
        · exact ⟨1, value, by norm_num, by norm_num⟩
        · cases blurs with
          | one value other low high => exact ⟨_, value, low, high⟩
  | false =>
      rw [boolOfNumber?_eq_false, Decimal.isZero_toDouble_iff]
      constructor
      · rintro ⟨q, value, near⟩
        by_cases exact : q = 0
        · subst exact
          exact .inl value
        · exact .inr (.zero value exact near)
      · rintro (value | blurs)
        · refine ⟨0, value, ?_⟩
          rw [abs_zero]
          positivity
        · cases blurs with
          | zero value other near => exact ⟨_, value, near⟩

/-- **The numbers that are read as a truth value**: the one that stands for it, and the decimals
that blur with it. -/
theorem bool?_iff (number : x.kind ∈ Kind.numbers) :
    x.bool? = some b ↔ x.value? = some (truthNumber b) ∨ x.Blurs b := by
  cases x with
  | int2 d | int4 d | float4 d | float8 d =>
      exact boolOfNumber?_iff.trans (or_iff_left nofun).symm
  | int8 n =>
      exact (boolOfNumber?_ofInt.trans (Option.some_inj.symm)).trans (or_iff_left nofun).symm
  | decimal d => exact bool?_decimal_iff
  | _ => exact absurd number (by simp [Kind.numbers, kind])

/-- What becomes of a number in a column of truth values. -/
theorem coerce_truth (machine : Zone) {type : ColumnType} (truth : type = .bool ∨ type = .bit)
    (number : x.kind ∈ Kind.numbers) :
    (Value.scalar x).coerce machine type.id = .scalar (x.bool?.elim x .bool) := by
  have shape : (Value.scalar x).reshape machine type =
      .ok ((x.bool?.map Scalar.bool).map Value.scalar) := by
    rcases truth with rfl | rfl <;>
      cases x with
      | bool => exact absurd number (by simp [Kind.numbers, kind])
      | _ => rfl
  rw [Value.coerce_of_typeId, shape]
  cases x.bool? <;> rfl

theorem Blurs.not_truthNumber (h : x.Blurs b) : x.value? ≠ some (truthNumber b) := by
  cases h with
  | one value other => exact fun same => other (Option.some.inj (value.symm.trans same))
  | zero value other => exact fun same => other (Option.some.inj (value.symm.trans same))

/-- **A number is read exactly unless it blurs**, and a number that blurs is read as the truth value
that it blurs with. -/
theorem readsExactly_iff (number : x.kind ∈ Kind.numbers) :
    (x.ReadsExactly ↔ ∀ b, ¬ x.Blurs b) ∧ ∀ b, x.Blurs b → x.bool? = some b := by
  have blurred (b : Bool) (h : x.Blurs b) : x.bool? = some b := (bool?_iff number).2 (.inr h)
  refine ⟨⟨fun exact b h => h.not_truthNumber ((exact.reads b).1 (blurred b h)), fun clear => ?_⟩,
    blurred⟩
  have reads (b : Bool) : x.bool? = some b ↔ x.value? = some (truthNumber b) :=
    (bool?_iff number).trans (or_iff_left (clear b))
  refine ⟨reads, fun machine type truth b value => ?_, fun machine type truth other => ?_⟩
  · rw [coerce_truth machine truth number, (reads b).2 value]
    rfl
  · rw [coerce_truth machine truth number]
    cases answer : x.bool? with
    | none => rfl
    | some b => exact absurd ((reads b).1 answer) (other b)

/-- A decimal with nineteen zeros between its ones. -/
def nearlyOne : Decimal := .finite false (10 ^ 20 + 1) (-20) (by simp [Stripped])

theorem blurs_nearlyOne : (decimal nearlyOne).Blurs true :=
  .one rfl (by norm_num [withSign, scaled]) (by norm_num [withSign, scaled])
    (by norm_num [withSign, scaled])

theorem readsExactly_iff_nearlyOne :
    (int8 (2 ^ 64 + 1)).ReadsExactly ∧ (decimal nearlyOne).bool? = some true :=
  ⟨(readsExactly_iff (by decide)).1.2 nofun, (readsExactly_iff (by decide)).2 true blurs_nearlyOne⟩

/-- A decimal close to one is read as true. -/
theorem not_readsExactly : ¬ ∀ x : Scalar, x.kind ∈ Kind.numbers → x.ReadsExactly := by
  intro exact
  have answer : (decimal nearlyOne).bool? = some true := by decide +kernel
  exact blurs_nearlyOne.not_truthNumber
    (((exact (decimal nearlyOne) (by decide)).reads true).1 answer)

end Scalar

end RowLiteral
