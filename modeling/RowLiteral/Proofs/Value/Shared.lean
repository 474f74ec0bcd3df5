import Mathlib.Data.List.Zip
import RowLiteral.Encoding.Listed
import RowLiteral.Proofs.Value.Equivalence
import RowLiteral.Proofs.Value.Hash

/-!
# Value — equality of values in places

Values can have parts in common, and a part that is one and the same in both counts as equal, even a
decimal NaN.  To tell one value from another of the same contents, each scalar and each row is given
a place (`Placed`).  Two attributes in places are equal if they are one and the same, equal scalars,
or rows of types of one name whose attributes are equal one by one (`Placed.Equals`).  Without the
places that is the equality of attributes, but for the decimal NaNs that they have in common
(`Placed.equals_of_attributeEquals`, `Placed.Equals.attributeEquals`), and what is equal has the
same hash (`Placed.Equals.alike`).

A copy stands in other places at every depth (`Placed.IsCopy`).

* `equals_equivalence`: equality of attributes and of rows, with places and without, is an
  equivalence but for decimal NaN.
-/

namespace RowLiteral

/-- A value with the places of all that stands in it. -/
inductive Placed where
  | scalar (place : Nat) (s : Scalar)
  | row (place : Nat) (header : RowHeader) (attributes : List (Option Placed))

namespace Placed

mutual
/-- The value without the places. -/
def value : Placed → Value
  | .scalar _ s => .scalar s
  | .row _ h as => .row { h with identity := none } (values as)

/-- Attributes without the places. -/
def values : List (Option Placed) → List Attribute
  | [] => []
  | none :: as => none :: values as
  | some a :: as => some a.value :: values as
end

/-- An attribute without the places. -/
def unplaced (a : Option Placed) : Attribute := a.map value

theorem values_eq_map (as : List (Option Placed)) : values as = as.map unplaced := by
  induction as with
  | nil => rfl
  | cons a as ih => cases a <;> rw [values, ih, List.map_cons] <;> rfl

/-! ### Equality -/

/-- Attributes in places that are one and the same, equal scalars, or rows of types of one name
whose attributes are equal, one by one. -/
inductive Equals : Option Placed → Option Placed → Prop where
  | same (a : Option Placed) : Equals a a
  | scalar {p q : Nat} {s t : Scalar} (equal : s.equals t = true) :
      Equals (some (.scalar p s)) (some (.scalar q t))
  | row {p q : Nat} {h h' : RowHeader} {as bs : List (Option Placed)}
      (name : h.type.name = h'.type.name) (length : as.length = bs.length)
      (parts : ∀ p ∈ as.zip bs, Equals p.1 p.2) :
      Equals (some (.row p h as)) (some (.row q h' bs))

variable {a b c : Option Placed} {as bs cs : List (Option Placed)}

namespace Equals

theorem symm (h : Equals a b) : Equals b a := by
  induction h with
  | same a => exact .same a
  | @scalar p q s t equal => exact .scalar ((Scalar.equals_comm t s).trans equal)
  | row name length _ ih =>
      refine .row name.symm length.symm fun p mem => ih p.swap ?_
      rw [← List.zip_swap]
      exact List.mem_map_of_mem mem

/-- Between two lists of one length, each attribute has one that stands between. -/
theorem exists_between (length : as.length = bs.length) {p : Option Placed × Option Placed}
    (mem : p ∈ as.zip cs) : ∃ b, (p.1, b) ∈ as.zip bs ∧ (b, p.2) ∈ bs.zip cs := by
  obtain ⟨i, hi⟩ := List.mem_iff_getElem?.1 mem
  obtain ⟨ha, hc⟩ := List.getElem?_zip_eq_some.1 hi
  have inside : i < bs.length := length ▸ (List.getElem?_eq_some_iff.1 ha).1
  have hb : bs[i]? = some bs[i] := List.getElem?_eq_getElem inside
  exact ⟨bs[i], List.mem_of_getElem? (List.getElem?_zip_eq_some.2 ⟨ha, hb⟩),
    List.mem_of_getElem? (List.getElem?_zip_eq_some.2 ⟨hb, hc⟩)⟩

theorem trans (h : Equals a b) (h' : Equals b c) : Equals a c := by
  induction h generalizing c with
  | same => exact h'
  | scalar equal =>
      cases h' with
      | same => exact .scalar equal
      | scalar equal' => exact .scalar (Scalar.equals_trans equal equal')
  | row name length parts ih =>
      cases h' with
      | same => exact .row name length parts
      | row name' length' parts' =>
          refine .row (name.trans name') (length.trans length') fun p mem => ?_
          obtain ⟨b, first, second⟩ := exists_between length mem
          exact ih _ first (parts' _ second)

end Equals

/-! ### Equality without the places -/

mutual
theorem equals_of_value : ∀ {a b : Placed}, a.value.equals b.value = true →
    Equals (some a) (some b)
  | .scalar _ s, .scalar _ t, e => by
      rw [value, value, Value.equals] at e
      exact .scalar e
  | .row _ h as, .row _ h' bs, e => by
      rw [value, value, Value.row_equals_iff] at e
      obtain kept | ⟨name, equal⟩ := e
      · -- without the places no row is kept
        cases kept
      · obtain ⟨length, parts⟩ := equals_of_values equal
        exact .row name length parts
  | .scalar _ _, .row _ _ _, e | .row _ _ _, .scalar _ _, e => by
      rw [value, value, Value.equals] at e
      cases e

theorem equals_of_values : ∀ {as bs : List (Option Placed)},
    attributesEqual (values as) (values bs) = true →
      as.length = bs.length ∧ ∀ p ∈ as.zip bs, Equals p.1 p.2
  | [], [], _ => ⟨rfl, fun _ h => absurd h List.not_mem_nil⟩
  | none :: as, none :: bs, e => by
      rw [values, values, attributesEqual] at e
      obtain ⟨length, parts⟩ := equals_of_values e
      exact ⟨congrArg Nat.succ length, List.forall_mem_cons.2 ⟨.same none, parts⟩⟩
  | some a :: as, some b :: bs, e => by
      rw [values, values, attributesEqual, Bool.and_eq_true] at e
      obtain ⟨length, parts⟩ := equals_of_values e.2
      exact ⟨congrArg Nat.succ length, List.forall_mem_cons.2 ⟨equals_of_value e.1, parts⟩⟩
  | [], none :: _, e | [], some _ :: _, e | none :: _, [], e | some _ :: _, [], e
  | none :: _, some _ :: _, e | some _ :: _, none :: _, e => by
      simp [values, attributesEqual] at e
end

/-- **Attributes that are equal without the places are equal.** -/
theorem equals_of_attributeEquals (e : attributeEquals (unplaced a) (unplaced b) = true) :
    Equals a b := by
  cases a with
  | none =>
      cases b with
      | none => exact .same none
      | some b => cases e
  | some a =>
      cases b with
      | none => cases e
      | some b => exact equals_of_value e

theorem holdsNaN_row_iff {p : Nat} {h : RowHeader} :
    HoldsNaN (unplaced (some (.row p h as))) ↔ ∃ a ∈ as, HoldsNaN (unplaced a) := by
  rw [unplaced, Option.map_some, value, RowLiteral.holdsNaN_row_iff, values_eq_map]
  simp

/-- **Attributes that are equal are so without the places**, if no decimal NaN stands in them. -/
theorem Equals.attributeEquals (h : Equals a b) (number : ¬ HoldsNaN (unplaced a)) :
    attributeEquals (unplaced a) (unplaced b) = true := by
  induction h with
  | same => exact attributeEquals_self number
  | scalar equal => exact equal
  | @row p q h h' as bs name length parts ih =>
      rw [holdsNaN_row_iff, not_exists] at number
      rw [unplaced, unplaced, Option.map_some, Option.map_some, value, value,
        RowLiteral.attributeEquals, Value.row_equals_iff]
      refine .inr ⟨name, ?_⟩
      rw [values_eq_map, values_eq_map, attributesEqual_iff (by simpa using length), List.zip_map,
        List.forall_mem_map]
      intro c mem
      exact ih c mem fun nan => number c.1 ⟨(List.of_mem_zip mem).1, nan⟩

/-- Attributes that are equal are alike without the places, and so they have the same hash. -/
theorem Equals.alike (h : Equals a b) : Alike (unplaced a) (unplaced b) := by
  induction h with
  | same => exact .same _
  | scalar equal => exact .scalar equal
  | row name length parts ih =>
      refine .row name (by simpa [values_eq_map] using length) ?_
      rw [values_eq_map, values_eq_map, List.zip_map, List.forall_mem_map]
      exact ih

/-! ### Copies -/

/-- A copy of an attribute: the same scalars and rows with the same headers, all in other places. -/
inductive IsCopy : Option Placed → Option Placed → Prop where
  | null : IsCopy none none
  | scalar {p q : Nat} (other : p ≠ q) (s : Scalar) :
      IsCopy (some (.scalar p s)) (some (.scalar q s))
  | row {p q : Nat} (other : p ≠ q) (h : RowHeader) {as bs : List (Option Placed)}
      (length : as.length = bs.length) (parts : ∀ p ∈ as.zip bs, IsCopy p.1 p.2) :
      IsCopy (some (.row p h as)) (some (.row q h bs))

/-- **A copy is equal to the original if and only if that holds no decimal NaN.** -/
theorem IsCopy.equals_iff (h : IsCopy a b) : Equals a b ↔ ¬ HoldsNaN (unplaced a) := by
  induction h with
  | null => exact iff_of_true (.same none) not_holdsNaN_none
  | scalar other s =>
      rw [unplaced, Option.map_some, value, holdsNaN_scalar_iff, ← ne_eq,
        ← Scalar.equals_self_iff]
      constructor
      · intro equal
        cases equal with
        | same => exact absurd rfl other
        | scalar equal => exact equal
      · exact .scalar
  | @row p q other h as bs length parts ih =>
      rw [holdsNaN_row_iff, not_exists]
      constructor
      · rintro equal a ⟨mem, nan⟩
        cases equal with
        | same => exact absurd rfl other
        | row _ _ equal =>
            rw [← List.map_fst_zip (Nat.le_of_eq length)] at mem
            obtain ⟨c, pair, rfl⟩ := List.mem_map.1 mem
            exact (ih c pair).1 (equal c pair) nan
      · intro number
        exact .row rfl length fun c mem =>
          (ih c mem).2 fun nan => number c.1 ⟨(List.of_mem_zip mem).1, nan⟩

mutual
/-- Every value has a copy. -/
theorem exists_copy : ∀ a : Placed, ∃ b : Placed, IsCopy (some a) (some b)
  | .scalar p s => ⟨.scalar (p + 1) s, .scalar (Nat.ne_of_lt p.lt_succ_self) s⟩
  | .row p h as =>
      have ⟨bs, length, parts⟩ := exists_copies as
      ⟨.row (p + 1) h bs, .row (Nat.ne_of_lt p.lt_succ_self) h length parts⟩

theorem exists_copies : ∀ as : List (Option Placed),
    ∃ bs : List (Option Placed), as.length = bs.length ∧ ∀ p ∈ as.zip bs, IsCopy p.1 p.2
  | [] => ⟨[], rfl, nofun⟩
  | none :: as =>
      have ⟨bs, length, parts⟩ := exists_copies as
      ⟨none :: bs, congrArg Nat.succ length, List.forall_mem_cons.2 ⟨.null, parts⟩⟩
  | some a :: as =>
      have ⟨b, copy⟩ := exists_copy a
      have ⟨bs, length, parts⟩ := exists_copies as
      ⟨some b :: bs, congrArg Nat.succ length, List.forall_mem_cons.2 ⟨copy, parts⟩⟩
end

/-- Every attribute has a copy. -/
theorem exists_isCopy : ∀ a : Option Placed, ∃ b, IsCopy a b
  | none => ⟨none, .null⟩
  | some a =>
      have ⟨b, copy⟩ := exists_copy a
      ⟨some b, copy⟩

end Placed

/-- A row in a place. -/
structure PlacedRow where
  place : Nat
  header : RowHeader
  attributes : List (Option Placed)

/-- A row in a place as an attribute. -/
def PlacedRow.attribute (r : PlacedRow) : Option Placed := some (.row r.place r.header r.attributes)

/-- A copy of a row is a row. -/
theorem Placed.IsCopy.exists_attribute {r : PlacedRow} {b : Option Placed}
    (h : IsCopy r.attribute b) : ∃ s : PlacedRow, b = s.attribute := by
  cases h with
  | @row p q other h as bs => exact ⟨⟨q, _, bs⟩, rfl⟩

/-! ### The equivalences -/

/-- A relation is an equivalence but for decimal NaN: it is symmetric and transitive, and it holds
of something and a copy of it if and only if that holds no NaN. -/
structure IsEquivalenceButNaN {α : Type} (Equal Copy : α → α → Prop) (HasNaN : α → Prop) :
    Prop where
  symm {x y : α} (h : Equal x y) : Equal y x
  trans {x y z : α} (h : Equal x y) (h' : Equal y z) : Equal x z
  exists_copy (x : α) : ∃ y, Copy x y
  copy_iff {x y : α} (h : Copy x y) : Equal x y ↔ ¬ HasNaN x

/-- So it is of things of one kind, if they are copied as such. -/
theorem IsEquivalenceButNaN.on {α β : Type} {Equal Copy : α → α → Prop} {HasNaN : α → Prop}
    (h : IsEquivalenceButNaN Equal Copy HasNaN) (f : β → α)
    (copies : ∀ x y, Copy (f x) y → ∃ z, y = f z) :
    IsEquivalenceButNaN (fun x y => Equal (f x) (f y)) (fun x y => Copy (f x) (f y))
      fun x => HasNaN (f x) where
  symm := h.symm
  trans := h.trans
  exists_copy x := by
    obtain ⟨y, copy⟩ := h.exists_copy (f x)
    obtain ⟨z, rfl⟩ := copies x y copy
    exact ⟨z, copy⟩
  copy_iff := h.copy_iff

/-- **Equality is an equivalence but for decimal NaN**: of attributes and of rows, where a copy is
kept nowhere that the original is, and of attributes and of rows with places, where a copy stands in
other places at every depth. -/
theorem equals_equivalence :
    IsEquivalenceButNaN (fun a b => attributeEquals a b = true) IsCopy HoldsNaN ∧
      IsEquivalenceButNaN (fun r s : Row => r.equals s = true)
        (fun r s => IsCopy (some (.ofRow r)) (some (.ofRow s)))
        (fun r => HoldsNaN (some (.ofRow r))) ∧
      IsEquivalenceButNaN Placed.Equals Placed.IsCopy (fun a => HoldsNaN (Placed.unplaced a)) ∧
      IsEquivalenceButNaN (fun r s : PlacedRow => Placed.Equals r.attribute s.attribute)
        (fun r s => Placed.IsCopy r.attribute s.attribute)
        (fun r => HoldsNaN (Placed.unplaced r.attribute)) := by
  have attributes : IsEquivalenceButNaN (fun a b => attributeEquals a b = true) IsCopy HoldsNaN :=
    ⟨fun {a b} h => (attributeEquals_comm b a).trans h, attributeEquals_trans, exists_isCopy,
      IsCopy.attributeEquals_iff⟩
  have placed : IsEquivalenceButNaN Placed.Equals Placed.IsCopy
      (fun a => HoldsNaN (Placed.unplaced a)) :=
    ⟨.symm, .trans, Placed.exists_isCopy, Placed.IsCopy.equals_iff⟩
  exact ⟨attributes, attributes.on (fun r => some (.ofRow r)) fun r b => IsCopy.exists_ofRow,
    placed, placed.on PlacedRow.attribute fun r b => Placed.IsCopy.exists_attribute⟩

/-- A row that is kept under a number, with a decimal and a row with that decimal in it. -/
def Row.balance (identity : Option Nat) (d : Decimal) : Row :=
  let type : RowType := ⟨"balance",
    [⟨"amount", "numeric", ColumnType.numeric.id⟩, ⟨"last", "balance", ColumnType.record.id⟩]⟩
  let header : RowHeader := ⟨type, .utf8, .utc, identity⟩
  ⟨header, [some (.scalar (.decimal d)),
    some (.row header [some (.scalar (.decimal d)), none])]⟩

theorem Row.isCopy_balance (d : Decimal) :
    IsCopy (some (.ofRow (.balance (some 1) d))) (some (.ofRow (.balance none d))) := by
  have inner : IsCopy
      (some (.row (Row.balance (some 1) d).header [some (.scalar (.decimal d)), none]))
      (some (.row (Row.balance none d).header [some (.scalar (.decimal d)), none])) :=
    .row nofun rfl (by simpa using ⟨.scalar _, .null⟩)
  exact .row nofun rfl (by simpa [balance] using ⟨.scalar _, inner⟩)

theorem Row.holdsNaN_balance_iff {identity : Option Nat} {d : Decimal} :
    HoldsNaN (some (.ofRow (.balance identity d))) ↔ d = .nan := by
  simp [Value.ofRow, balance, holdsNaN_row_iff, holdsNaN_scalar_iff, not_holdsNaN_none]

/-- A decimal NaN in a place. -/
def Placed.nan (place : Nat) : Placed := .scalar place (.decimal .nan)

theorem equals_equivalence_balance :
    (Row.balance (some 1) (.zero true)).equals (.balance none (.zero true)) = true ∧
      ¬ (Row.balance (some 1) .nan).equals (.balance none .nan) = true ∧
      Placed.Equals (some (.nan 1)) (some (.nan 1)) ∧
      ¬ Placed.Equals (some (.nan 1)) (some (.nan 2)) := by
  obtain ⟨-, rows, placed, -⟩ := equals_equivalence
  refine ⟨(rows.copy_iff (Row.isCopy_balance _)).2 ?_, ?_, .same _, ?_⟩
  · rw [Row.holdsNaN_balance_iff]
    exact nofun
  · rw [rows.copy_iff (Row.isCopy_balance _), Row.holdsNaN_balance_iff]
    exact fun number => number rfl
  · have copy : Placed.IsCopy (some (.nan 1)) (some (.nan 2)) := .scalar (by decide) _
    exact fun equal => (placed.copy_iff copy).1 equal .decimal

end RowLiteral
