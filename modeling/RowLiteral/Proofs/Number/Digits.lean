import Mathlib.Algebra.Order.Ring.Nat
import Mathlib.Data.List.TakeWhile
import Mathlib.Tactic.IntervalCases
import RowLiteral.Number.Layout
import RowLiteral.Text.Blank

/-!
# Number — digits

The digits of a number denote it (`ofDigits_digits`), zeros before them do not count
(`ofDigits_zeros_append`), and digits in front of others count by the power of ten of these
(`ofDigits_append`).  Digits that are followed by something else are what a reader of digits takes
(`takeWhile_isDigit`, `dropWhile_isDigit`).  A text that neither starts nor ends with a margin blank
is not changed by trimming (`trimChars_eq_self`).
-/

namespace RowLiteral.Number
open RowLiteral.Text

/-! ### What digits denote -/

theorem digitValue_le {c : Char} (h : c.isDigit = true) : digitValue c ≤ 9 := by
  simp only [Char.isDigit, Bool.and_eq_true, decide_eq_true_eq, UInt32.le_iff_toNat_le] at h
  have greatest : c.toNat ≤ 57 := h.2
  have zero : '0'.toNat = 48 := rfl
  rw [digitValue, zero]
  omega

theorem ofDigits_eq_ofDigitChars (cs : List Char) : ofDigits cs = Nat.ofDigitChars 10 cs 0 := rfl

theorem ofDigits_digits (n : Nat) : ofDigits (digits n) = n := Nat.ofDigitChars_ten_toDigits

theorem ofDigits_append (cs ds : List Char) :
    ofDigits (cs ++ ds) = ofDigits cs * 10 ^ ds.length + ofDigits ds := by
  rw [ofDigits_eq_ofDigitChars, Nat.ofDigitChars_append, Nat.ofDigitChars_eq_ofDigitChars_zero,
    Nat.mul_comm]
  rfl

/-- Digits denote less than the power of ten of their number. -/
theorem ofDigits_lt {cs : List Char} (h : ∀ c ∈ cs, c.isDigit = true) :
    ofDigits cs < 10 ^ cs.length := by
  induction cs with
  | nil => exact Nat.one_pos
  | cons c cs ih =>
      have value : ofDigits [c] ≤ 9 := by
        simpa [ofDigits] using digitValue_le (h c List.mem_cons_self)
      have rest := ih fun d hd => h d (List.mem_cons_of_mem c hd)
      calc ofDigits (c :: cs) = ofDigits [c] * 10 ^ cs.length + ofDigits cs :=
            ofDigits_append [c] cs
        _ < ofDigits [c] * 10 ^ cs.length + 10 ^ cs.length := Nat.add_lt_add_left rest _
        _ = (ofDigits [c] + 1) * 10 ^ cs.length := (Nat.succ_mul _ _).symm
        _ ≤ 10 * 10 ^ cs.length := Nat.mul_le_mul_right _ (Nat.succ_le_succ value)
        _ = 10 ^ (c :: cs).length := (Nat.pow_succ').symm

theorem ofDigits_zeros (n : Nat) : ofDigits (zeros n) = 0 := by
  rw [ofDigits_eq_ofDigitChars, zeros, Nat.ofDigitChars_replicate_zero, Nat.mul_zero]

theorem ofDigits_zeros_append (n : Nat) (cs : List Char) :
    ofDigits (zeros n ++ cs) = ofDigits cs := by
  rw [ofDigits_append, ofDigits_zeros, Nat.zero_mul, Nat.zero_add]

/-! ### Texts of digits -/

theorem isDigit_of_mem_digits {n : Nat} {c : Char} (h : c ∈ digits n) : c.isDigit = true :=
  Nat.isDigit_of_mem_toDigits (by decide) (by decide) h

theorem isDigit_of_mem_zeros {n : Nat} {c : Char} (h : c ∈ zeros n) : c.isDigit = true := by
  obtain rfl := List.eq_of_mem_replicate h
  rfl

theorem digits_ne_nil (n : Nat) : digits n ≠ [] := Nat.toDigits_ne_nil

variable {ds rest : List Char}

theorem takeWhile_isDigit (h : ∀ c ∈ ds, c.isDigit = true)
    (hr : ∀ c ∈ rest.head?, c.isDigit = false) :
    (ds ++ rest).takeWhile Char.isDigit = ds := by
  rw [List.takeWhile_append_of_pos h]
  cases rest with
  | nil => rw [List.takeWhile_nil, List.append_nil]
  | cons c cs => rw [List.takeWhile_cons_of_neg (by simp [hr c rfl]), List.append_nil]

theorem dropWhile_isDigit (h : ∀ c ∈ ds, c.isDigit = true)
    (hr : ∀ c ∈ rest.head?, c.isDigit = false) :
    (ds ++ rest).dropWhile Char.isDigit = rest := by
  rw [List.dropWhile_append_of_pos h]
  cases rest with
  | nil => rfl
  | cons c cs => rw [List.dropWhile_cons_of_neg (by simp [hr c rfl])]

/-! ### Whole numbers as text -/

/-- The text of a whole number: its digits, and a minus sign before them. -/
def intChars (n : Int) : List Char :=
  if n < 0 then '-' :: digits n.natAbs else digits n.natAbs

theorem toList_toString (n : Int) : (toString n).toList = intChars n := by
  rw [Int.toString_eq_repr, Int.repr_eq_if, intChars]
  cases n with
  | ofNat n => simp [digits]
  | negSucc n => simp [digits]

theorem mem_intChars {n : Int} {c : Char} (h : c ∈ intChars n) : c.isDigit = true ∨ c = '-' := by
  rw [intChars] at h
  split at h
  · rcases List.mem_cons.1 h with minus | digit
    · exact .inr minus
    · exact .inl (isDigit_of_mem_digits digit)
  · exact .inl (isDigit_of_mem_digits h)

/-! ### Margins -/

/-- A digit is no margin blank. -/
theorem isMargin_of_isDigit {c : Char} (h : c.isDigit = true) : isMargin c = false := by
  have range : 48 ≤ c.toNat ∧ c.toNat ≤ 57 := by
    simpa [Char.isDigit, UInt32.le_iff_toNat_le] using h
  rw [← Char.ofNat_toNat c]
  obtain ⟨least, greatest⟩ := range
  generalize c.toNat = n at least greatest
  interval_cases n <;> rfl

theorem dropWhile_eq_self {cs : List Char} (first : ∀ c ∈ cs.head?, isMargin c = false) :
    cs.dropWhile isMargin = cs := by
  cases cs with
  | nil => rfl
  | cons c cs => rw [List.dropWhile_cons_of_neg (by simp [first c rfl])]

theorem isMargin_head?_dropWhile (cs : List Char) :
    ∀ c ∈ (cs.dropWhile isMargin).head?, isMargin c = false := by
  intro c hc
  have first := List.head?_dropWhile_not isMargin cs
  rwa [Option.mem_def.1 hc] at first

/-- What is left without margins starts with no margin blank. -/
theorem isMargin_head?_trimChars (cs : List Char) :
    ∀ c ∈ (trimChars cs).head?, isMargin c = false := by
  intro c hc
  rw [trimChars, List.head?_reverse] at hc
  obtain ⟨margin, split⟩ := List.dropWhile_suffix (l := (cs.dropWhile isMargin).reverse) isMargin
  refine isMargin_head?_dropWhile cs c ?_
  rw [← List.getLast?_reverse, ← split, List.getLast?_append, Option.mem_def.1 hc]
  rfl

/-- Nor does it end with one. -/
theorem isMargin_getLast?_trimChars (cs : List Char) :
    ∀ c ∈ (trimChars cs).getLast?, isMargin c = false := by
  rw [trimChars, List.getLast?_reverse]
  exact isMargin_head?_dropWhile _

theorem trimChars_subset (cs : List Char) : trimChars cs ⊆ cs := by
  intro c hc
  rw [trimChars, List.mem_reverse] at hc
  have left := (List.dropWhile_suffix isMargin).subset hc
  exact (List.dropWhile_suffix isMargin).subset (List.mem_reverse.1 left)

/-- A text is what is left of it between two margins. -/
theorem exists_margins (cs : List Char) : ∃ left right, cs = left ++ (trimChars cs ++ right) ∧
    (∀ c ∈ left, isMargin c = true) ∧ ∀ c ∈ right, isMargin c = true := by
  have back := List.takeWhile_append_dropWhile (p := isMargin)
    (l := (cs.dropWhile isMargin).reverse)
  refine ⟨cs.takeWhile isMargin, ((cs.dropWhile isMargin).reverse.takeWhile isMargin).reverse, ?_,
    fun _ => List.mem_takeWhile_imp, fun c hc => List.mem_takeWhile_imp (List.mem_reverse.1 hc)⟩
  rw [trimChars, ← List.reverse_append, back, List.reverse_reverse, List.takeWhile_append_dropWhile]

/-- A text that neither starts nor ends with a margin blank has no margins. -/
theorem trimChars_eq_self {cs : List Char} (first : ∀ c ∈ cs.head?, isMargin c = false)
    (last : ∀ c ∈ cs.getLast?, isMargin c = false) : trimChars cs = cs := by
  rw [← List.head?_reverse] at last
  rw [trimChars, dropWhile_eq_self first, dropWhile_eq_self last, List.reverse_reverse]

theorem trimChars_of_forall {cs : List Char} (h : ∀ c ∈ cs, isMargin c = false) :
    trimChars cs = cs :=
  trimChars_eq_self (fun c hc => h c (List.mem_of_head? hc)) fun c hc =>
    h c (List.mem_of_getLast? hc)

end RowLiteral.Number
