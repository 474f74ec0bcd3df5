import Mathlib.Algebra.BigOperators.Fin
import Mathlib.Tactic.Ring
import RowLiteral.Proofs.Value.Hash
import RowLiteral.Proofs.Value.Integers

/-!
# Value — hashes as polynomials

A hash is narrowed to 32 bits with every step.  It could as well be narrowed once, at the end: the
hash of a sequence is a polynomial at 31, with the numbers of the sequence as its coefficients and
the first of them at the highest power, brought into the signed range.

* `mix_modEq`: what one step does, up to multiples of `2 ^ 32`.
* `narrows_hashFrom`: a run of steps from a seed in range ends at the polynomial, narrowed.
* `hash_polynomial`: the hashes of texts, of texts that are put together, and of rows.
-/

namespace RowLiteral
open Text

/-! ### Polynomials -/

variable {α : Type} {number : α → Int}

/-- The numbers of a sequence, each times 31 to as many members as follow it, added up. -/
def polynomial (number : α → Int) (as : List α) : Int :=
  ∑ i : Fin as.length, number as[i] * 31 ^ (as.length - 1 - i)

theorem polynomial_nil : polynomial number [] = 0 := rfl

/-- The first number stands at the highest power. -/
theorem polynomial_cons (a : α) (as : List α) :
    polynomial number (a :: as) = number a * 31 ^ as.length + polynomial number as := by
  have first : polynomial number (a :: as) = number a * 31 ^ as.length +
      ∑ i : Fin as.length, number as[i] * 31 ^ (as.length - (i + 1)) := Fin.sum_univ_succ _
  have power (i : Fin as.length) : as.length - (i + 1) = as.length - 1 - i := by omega
  rw [first, polynomial]
  simp only [power]

/-! ### One step -/

theorem wrap32_fits (n : Int) : Fits 32 (wrap32 n) := (narrows_bmod (by decide) n).fits

theorem wrap32_modEq (n : Int) : wrap32 n ≡ n [ZMOD 2 ^ 32] := (narrows_bmod (by decide) n).rest

theorem mix_fits (hash next : Int) : Fits 32 (mix hash next) := wrap32_fits _

/-- **One step** shifts and adds, up to multiples of `2 ^ 32`. -/
theorem mix_modEq (hash next : Int) : mix hash next ≡ hash * 31 + next [ZMOD 2 ^ 32] := by
  rw [mul_comm]
  exact wrap32_modEq _

/-- A step may also narrow the hash that it is given, and the product before it adds. -/
theorem mix_eq_wrap32 (hash next : Int) :
    mix hash next = wrap32 (wrap32 (wrap32 hash * 31) + next) := by
  refine Narrows.eq_bmod (by decide) ⟨mix_fits hash next, ?_⟩
  calc mix hash next ≡ hash * 31 + next [ZMOD 2 ^ 32] := mix_modEq hash next
    _ ≡ wrap32 hash * 31 + next [ZMOD 2 ^ 32] :=
        ((wrap32_modEq hash).symm.mul_right 31).add_right next
    _ ≡ wrap32 (wrap32 hash * 31) + next [ZMOD 2 ^ 32] :=
        (wrap32_modEq (wrap32 hash * 31)).symm.add_right next

/-! ### Runs of steps -/

theorem hashFrom_fits {seed : Int} (fits : Fits 32 seed) (ns : List Int) :
    Fits 32 (hashFrom seed ns) := by
  induction ns generalizing seed with
  | nil => exact fits
  | cons n ns ih => exact ih (mix_fits seed n)

/-- A run takes the seed past all members and adds their polynomial, up to multiples of
`2 ^ 32`. -/
theorem hashFrom_modEq (seed : Int) (as : List α) :
    hashFrom seed (as.map number) ≡ seed * 31 ^ as.length + polynomial number as
      [ZMOD 2 ^ 32] := by
  induction as generalizing seed with
  | nil =>
      rw [polynomial_nil, List.length_nil, pow_zero, mul_one, add_zero]
      rfl
  | cons a as ih =>
      calc hashFrom seed ((a :: as).map number)
          ≡ mix seed (number a) * 31 ^ as.length + polynomial number as [ZMOD 2 ^ 32] := ih _
        _ ≡ (seed * 31 + number a) * 31 ^ as.length + polynomial number as [ZMOD 2 ^ 32] :=
            ((mix_modEq seed (number a)).mul_right _).add_right _
        _ = seed * 31 ^ (a :: as).length + polynomial number (a :: as) := by
            rw [polynomial_cons, List.length_cons]
            ring

/-- **A run is narrowed once.** -/
theorem narrows_hashFrom {seed : Int} (fits : Fits 32 seed) (as : List α) :
    Narrows 32 (seed * 31 ^ as.length + polynomial number as) (hashFrom seed (as.map number)) :=
  ⟨hashFrom_fits fits _, hashFrom_modEq seed as⟩

/-- Without a seed only the polynomial is left. -/
theorem narrows_hashFrom_zero (as : List α) :
    Narrows 32 (polynomial number as) (hashFrom 0 (as.map number)) := by
  have run : Narrows 32 (0 * 31 ^ as.length + polynomial number as) (hashFrom 0 (as.map number)) :=
    narrows_hashFrom ⟨by decide, by decide⟩ as
  rwa [zero_mul, zero_add] at run

/-- The hash of two sequences, one after the other, comes from their hashes. -/
theorem hashFrom_append_modEq (as bs : List α) :
    hashFrom 0 ((as ++ bs).map number) ≡
      hashFrom 0 (as.map number) * 31 ^ bs.length + hashFrom 0 (bs.map number) [ZMOD 2 ^ 32] := by
  have split : hashFrom 0 ((as ++ bs).map number) =
      hashFrom (hashFrom 0 (as.map number)) (bs.map number) := by
    rw [List.map_append]
    exact List.foldl_append
  rw [split]
  exact (hashFrom_modEq _ bs).trans ((narrows_hashFrom_zero bs).rest.symm.add_left _)

/-! ### Texts and rows -/

theorem units_append (s t : String) : units (s ++ t) = units s ++ units t := by
  rw [units, String.toList_append, List.flatMap_append]
  rfl

/-- The hash of a row is narrowed once, from the hash of a name and those of the attributes. -/
theorem Row.narrows_hash (r : Row) :
    Narrows 32 ((31 + hashText r.type.name) * 31 + 31 ^ r.attributes.length +
      polynomial attributeHash r.attributes) r.hash := by
  have attributes : hashFrom 1 (r.attributes.map attributeHash) ≡
      1 * 31 ^ r.attributes.length + polynomial attributeHash r.attributes [ZMOD 2 ^ 32] :=
    hashFrom_modEq 1 r.attributes
  rw [one_mul, ← attributeHashes_eq_map] at attributes
  refine ⟨mix_fits _ _, ?_⟩
  rw [add_assoc]
  exact (mix_modEq _ _).trans (attributes.add_left _)

/-- **Hashes are polynomials, narrowed.**  A step that narrows its argument, the product and the sum
is a step that narrows once.  The hash of a sequence of units is the signed 32-bit number that
leaves the same rest as their polynomial, and the hash of two sequences, one after the other, comes
from their hashes by a shift; so it is with texts.  The hash of a row is narrowed once as well, from
the hash of the name of its type and from the polynomial of the hashes of its attributes after a
leading one. -/
theorem hash_polynomial :
    (∀ hash next : Int, mix hash next = wrap32 (wrap32 (wrap32 hash * 31) + next)) ∧
    (∀ us vs : List Nat,
      Narrows 32 (polynomial Int.ofNat us) (hashFrom 0 (us.map Int.ofNat)) ∧
      hashFrom 0 ((us ++ vs).map Int.ofNat) ≡
        hashFrom 0 (us.map Int.ofNat) * 31 ^ vs.length + hashFrom 0 (vs.map Int.ofNat)
          [ZMOD 2 ^ 32]) ∧
    (∀ s t : String,
      Narrows 32 (polynomial Int.ofNat (units s)) (hashText s) ∧
      hashText (s ++ t) ≡ hashText s * 31 ^ unitLength t + hashText t [ZMOD 2 ^ 32]) ∧
    ∀ r : Row, Narrows 32 ((31 + hashText r.type.name) * 31 + 31 ^ r.attributes.length +
      polynomial attributeHash r.attributes) r.hash := by
  refine ⟨mix_eq_wrap32, fun us vs => ⟨narrows_hashFrom_zero us, hashFrom_append_modEq us vs⟩,
    fun s t => ⟨narrows_hashFrom_zero (units s), ?_⟩, Row.narrows_hash⟩
  rw [hashText, units_append]
  exact hashFrom_append_modEq (units s) (units t)

end RowLiteral
