import Mathlib.Algebra.Order.Ring.Int
import Mathlib.Data.Int.ModEq
import RowLiteral.Proofs.Double.Whole
import RowLiteral.Proofs.Row.Materialize

/-!
# Value — integers of different widths

An integer is narrowed to the one integer in the signed range of the narrower width that leaves the
same rest (`narrows_bmod`, `Narrows.unique`); in particular it stays itself where it fits.  The
integer of an `int4` is held by a double and that of an `int8` is not, and both are narrowed alike.

* `Value.coerce_integers`: what integers become in columns of other widths, at once and on the way
  through a third width.
-/

namespace RowLiteral

/-! ### Narrowing -/

/-- An integer lies in the signed range of a number of bits. -/
def Fits (bits : Nat) (m : Int) : Prop := -2 ^ (bits - 1) ≤ m ∧ m < 2 ^ (bits - 1)

/-- An integer in the signed range of a number of bits leaves the same rest as another one. -/
structure Narrows (bits : Nat) (n m : Int) : Prop where
  fits : Fits bits m
  rest : m ≡ n [ZMOD 2 ^ bits]

variable {bits : Nat} {n m k : Int}

theorem Fits.doubled (pos : 0 < bits) (h : Fits bits m) : -2 ^ bits ≤ m * 2 ∧ m * 2 < 2 ^ bits := by
  obtain ⟨least, greatest⟩ := h
  have power : (2 : Int) ^ bits = 2 ^ (bits - 1) * 2 := by
    rw [← pow_succ, Nat.sub_add_cancel pos]
  rw [power]
  omega

/-- Some integer in the range leaves the same rest. -/
theorem narrows_bmod (pos : 0 < bits) (n : Int) : Narrows bits n (n.bmod (2 ^ bits)) := by
  have filled : 0 < 2 ^ bits := Nat.two_pow_pos bits
  have power : ((2 ^ bits : Nat) : Int) = 2 ^ (bits - 1) * 2 := by
    rw [← pow_succ, Nat.sub_add_cancel pos]
    push_cast
    rfl
  have least := Int.le_bmod (x := n) filled
  have greatest := Int.bmod_lt (x := n) filled
  rw [power] at least greatest
  refine ⟨⟨by omega, by omega⟩, ?_⟩
  have rest : n.bmod (2 ^ bits) % (2 ^ bits : Nat) = n % (2 ^ bits : Nat) := Int.bmod_emod
  push_cast at rest
  exact rest

/-- An integer in the range is the balanced rest of what leaves the same rest. -/
theorem Narrows.eq_bmod (pos : 0 < bits) (h : Narrows bits n m) : m = n.bmod (2 ^ bits) := by
  obtain ⟨least, greatest⟩ := h.fits.doubled pos
  have rest : m % (2 ^ bits : Nat) = n % (2 ^ bits : Nat) := by
    push_cast
    exact h.rest
  calc m = m.bmod (2 ^ bits) :=
        (Int.bmod_eq_of_le_mul_two (by push_cast; exact least) (by push_cast; exact greatest)).symm
    _ = (m % (2 ^ bits : Nat)).bmod (2 ^ bits) := (Int.emod_bmod _ _).symm
    _ = n.bmod (2 ^ bits) := by rw [rest, Int.emod_bmod]

/-- No other integer in the range leaves the same rest. -/
theorem narrows_iff (pos : 0 < bits) : Narrows bits n m ↔ m = n.bmod (2 ^ bits) :=
  ⟨fun h => h.eq_bmod pos, fun h => h ▸ narrows_bmod pos n⟩

/-- An integer in the range is kept. -/
theorem bmod_of_fits (pos : 0 < bits) (h : Fits bits n) : n.bmod (2 ^ bits) = n :=
  (Narrows.eq_bmod pos ⟨h, rfl⟩).symm

/-- An integer of at most 53 bits is held by a double. -/
theorem toInt?_ofInt_of_fits (pos : 0 < bits) (few : bits ≤ 53) (h : Fits bits m) :
    (Double.ofInt m).toInt? = some m := by
  obtain ⟨least, greatest⟩ := h
  have power : (2 : Int) ^ (bits - 1) ≤ 2 ^ 52 := pow_le_pow_right₀ (by decide) (by omega)
  refine Double.toInt?_ofInt ?_
  omega

/-- The integer part of a whole double is the integer that it is. -/
theorem Double.truncate_of_toInt? {x : Double} (h : x.toInt? = some n) : x.truncate = n := by
  obtain ⟨negative, r, k, rfl, whole, value⟩ := exists_of_toInt? h
  have part : (if 0 ≤ exponent r then mantissa r * Number.twoPow (exponent r).toNat
      else mantissa r / Number.twoPow (-exponent r).toNat) = k := by
    rw [wholeScaled?] at whole
    split at whole
    · next scaled => rw [if_pos scaled]; exact Option.some.inj whole
    · next fraction =>
        rw [if_neg fraction]
        split at whole
        · exact Option.some.inj whole
        · cases whole
  rw [← value, ← part]
  rfl

/-! ### Coercion -/

namespace Value

variable {machine : Zone} {x : Double}

theorem coerce_int8_int2 (machine : Zone) (n : Int) :
    (Value.scalar (.int8 n)).coerce machine ColumnType.int2.id =
      .scalar (.ofInt2 (n.bmod (2 ^ 16))) :=
  coerce_of_typeId

theorem coerce_int8_int4 (machine : Zone) (n : Int) :
    (Value.scalar (.int8 n)).coerce machine ColumnType.int4.id =
      .scalar (.ofInt4 (n.bmod (2 ^ 32))) :=
  coerce_of_typeId

theorem coerce_int4_int2 (machine : Zone) (whole : x.toInt? = some n) :
    (Value.scalar (.int4 x)).coerce machine ColumnType.int2.id =
      .scalar (.ofInt2 (n.bmod (2 ^ 16))) := by
  rw [← Double.truncate_of_toInt? whole]
  exact coerce_of_typeId

/-- A whole number is widened to the integer that it is. -/
theorem coerce_int4_wide (machine : Zone) (whole : x.toInt? = some n) {type : ColumnType}
    (wide : type = .int8 ∨ type = .oid) :
    (Value.scalar (.int4 x)).coerce machine type.id = .scalar (.int8 n) := by
  have shape : (Value.scalar (.int4 x)).reshape machine type = .ok (some (.scalar (.int8 n))) := by
    rcases wide with rfl | rfl <;> simp [reshape, Scalar.reshape, whole, Except.map]
  rw [coerce_of_typeId, shape]
  rfl

/-- **Integers are narrowed by their rests.**  An `int8` becomes the one `int2`, or `int4`, in range
that leaves the same rest, and so itself where it fits.  An `int4` becomes the same `int2` as the
`int8` of its integer and comes back from the wider types as that integer.  An `int8` becomes the
same `int2` through an `int4`. -/
theorem coerce_integers (machine : Zone) (n : Int) :
    (∃ m, (∀ k, Narrows 16 n k ↔ k = m) ∧ (Double.ofInt m).toInt? = some m ∧
      (Value.scalar (.int8 n)).coerce machine ColumnType.int2.id = .scalar (.ofInt2 m) ∧
      (Fits 16 n → m = n)) ∧
    (∃ m, (∀ k, Narrows 32 n k ↔ k = m) ∧ (Double.ofInt m).toInt? = some m ∧
      (Value.scalar (.int8 n)).coerce machine ColumnType.int4.id = .scalar (.ofInt4 m) ∧
      (Fits 32 n → m = n)) ∧
    (Fits 32 n → ∀ x : Double, x.toInt? = some n →
      (Value.scalar (.int4 x)).coerce machine ColumnType.int2.id =
        (Value.scalar (.int8 n)).coerce machine ColumnType.int2.id ∧
      ∀ type : ColumnType, type = .int8 ∨ type = .oid →
        ((Value.scalar (.int4 x)).coerce machine type.id).coerce machine ColumnType.int4.id =
          .scalar (.ofInt4 n)) ∧
    ((Value.scalar (.int8 n)).coerce machine ColumnType.int4.id).coerce machine
        ColumnType.int2.id =
      (Value.scalar (.int8 n)).coerce machine ColumnType.int2.id := by
  have held {bits : Nat} (pos : 0 < bits) (few : bits ≤ 53) :
      (Double.ofInt (n.bmod (2 ^ bits))).toInt? = some (n.bmod (2 ^ bits)) :=
    toInt?_ofInt_of_fits pos few (narrows_bmod pos n).fits
  refine ⟨⟨_, fun k => narrows_iff (by decide), held (by decide) (by decide),
      coerce_int8_int2 machine n, bmod_of_fits (by decide)⟩,
    ⟨_, fun k => narrows_iff (by decide), held (by decide) (by decide),
      coerce_int8_int4 machine n, bmod_of_fits (by decide)⟩, fun fits x whole => ⟨?_, ?_⟩, ?_⟩
  · rw [coerce_int4_int2 machine whole, coerce_int8_int2]
  · intro type wide
    rw [coerce_int4_wide machine whole wide, coerce_int8_int4, bmod_of_fits (by decide) fits]
  · have step : (n.bmod (2 ^ 32)).bmod (2 ^ 16) = n.bmod (2 ^ 16) :=
      Int.bmod_bmod_of_dvd (pow_dvd_pow 2 (by decide))
    have middle : (Double.ofInt (n.bmod (2 ^ 32))).toInt? = some (n.bmod (2 ^ 32)) :=
      held (by decide) (by decide)
    rw [coerce_int8_int4, coerce_int8_int2, Scalar.ofInt4, coerce_int4_int2 machine middle, step]

/-- An integer that an `int4` can hold and an `int2` cannot. -/
theorem coerce_integers_above :
    (Value.scalar (.int8 40000)).coerce 0 ColumnType.int2.id = .scalar (.ofInt2 (-25536)) ∧
      ((Value.scalar (.ofInt4 40000)).coerce 0 ColumnType.oid.id).coerce 0 ColumnType.int4.id =
        .scalar (.ofInt4 40000) := by
  have fits : Fits 32 40000 := ⟨by decide, by decide⟩
  have whole : (Double.ofInt 40000).toInt? = some 40000 := by decide +kernel
  obtain ⟨⟨m, unique, -, short, -⟩, -, paths, -⟩ := coerce_integers 0 40000
  have narrowed : -25536 = m := (unique _).1 ⟨⟨by decide, by decide⟩, by decide⟩
  refine ⟨?_, (paths fits _ whole).2 .oid (.inr rfl)⟩
  rw [short, ← narrowed]

end Value

end RowLiteral
