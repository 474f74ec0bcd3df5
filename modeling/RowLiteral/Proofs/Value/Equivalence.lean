import RowLiteral.Value.Equality

/-!
# Value — equality as a relation

Equality of attributes and of rows is symmetric and transitive, whatever kinds they are of and
however deep they are nested.  It is not reflexive: a decimal NaN equals nothing.  Whether an
attribute equals itself is asked of a *copy* (`IsCopy`), which has the same scalars and rows with
the same headers, but is kept nowhere the original is, for a row that is kept counts as equal to
itself whatever it holds.  A copy is equal to the original if and only if no decimal NaN stands in
it at any depth (`HoldsNaN`).

* `Value.equals_comm`, `Value.equals_trans`: the two laws, along the values.
* `IsCopy.attributeEquals_iff`: when a copy is equal; `exists_isCopy`: everything has a copy.
-/

namespace RowLiteral

/-! ### Scalars -/

namespace Decimal

/-- The number that a decimal is, with one zero; a NaN is none. -/
def number? : Decimal → Option Decimal
  | .nan => none
  | .infinity negative => some (.infinity negative)
  | .finite negative c e stripped =>
    if c = 0 then some (zero false) else some (.finite negative c e stripped)

theorem isSome_number?_iff {d : Decimal} : d.number?.isSome = true ↔ d ≠ .nan := by
  cases d with
  | nan | infinity => simp [number?]
  | finite negative c e stripped => by_cases h : c = 0 <;> simp [number?, h]

/-- **Decimals are equal if they are one number.** -/
theorem equals_iff {d e : Decimal} :
    d.equals e = true ↔ d.number?.isSome = true ∧ d.number? = e.number? := by
  cases d with
  | nan => simp [equals, number?]
  | infinity s =>
      cases e with
      | nan | infinity => simp [equals, number?]
      | finite s' c' x' h' => by_cases hc' : c' = 0 <;> simp [equals, number?, zero, hc']
  | finite s c x h =>
      cases e with
      | nan => by_cases hc : c = 0 <;> simp [equals, number?, hc]
      | infinity s' => by_cases hc : c = 0 <;> simp [equals, number?, zero, hc]
      | finite s' c' x' h' =>
          by_cases hc : c = 0 <;> by_cases hc' : c' = 0
          · simp [equals, number?, hc, hc']
          · have ne : zero false ≠ .finite s' c' x' h' := fun same =>
              hc' (finite.inj same).2.1.symm
            simp [equals, number?, hc, hc', ne, Ne.symm hc']
          · have ne : finite s c x h ≠ zero false := fun same => hc (finite.inj same).2.1
            simp [equals, number?, hc, hc', ne]
          · simp [equals, number?, hc, hc', and_assoc]

end Decimal

namespace Scalar

/-- What equality looks at in a scalar; nothing in a NaN. -/
def sense? : Scalar → Option Scalar
  | .decimal d => d.number?.map .decimal
  | s => some s

theorem sense?_of_ne {s : Scalar} (h : ∀ d, s ≠ .decimal d) : s.sense? = some s := by
  cases s with
  | decimal d => exact absurd rfl (h d)
  | _ => rfl

theorem isSome_sense?_iff {s : Scalar} : s.sense?.isSome = true ↔ s ≠ .decimal .nan := by
  cases s with
  | decimal d => simp [sense?, Decimal.isSome_number?_iff]
  | _ => simp [sense?]

theorem sense?_decimal_ne {d : Decimal} {s : Scalar} (h : ∀ e, s ≠ .decimal e) :
    (Scalar.decimal d).sense? ≠ some s := by
  rw [sense?, ne_eq, Option.map_eq_some_iff]
  rintro ⟨e, -, same⟩
  exact h e same.symm

/-- **Scalars are equal if equality sees the same in them.** -/
theorem equals_iff {s t : Scalar} :
    s.equals t = true ↔ s.sense?.isSome = true ∧ s.sense? = t.sense? := by
  unfold equals
  split
  · next d e =>
    rw [Decimal.equals_iff, sense?, sense?, Option.isSome_map, Option.map_inj_right]
    exact fun d e => Scalar.decimal.inj
  · next other =>
    rw [decide_eq_true_eq]
    -- at most one of the two is a decimal
    by_cases hs : ∃ d, s = .decimal d
    · obtain ⟨d, rfl⟩ := hs
      have ht : ∀ e, t ≠ .decimal e := fun e => other d e rfl
      rw [sense?_of_ne ht]
      exact iff_of_false (ht d).symm fun same => sense?_decimal_ne ht same.2
    · have hs : ∀ d, s ≠ .decimal d := fun d same => hs ⟨d, same⟩
      rw [sense?_of_ne hs]
      by_cases ht : ∃ e, t = .decimal e
      · obtain ⟨e, rfl⟩ := ht
        exact iff_of_false (hs e) fun same => sense?_decimal_ne hs same.2.symm
      · rw [sense?_of_ne fun e same => ht ⟨e, same⟩]
        simp

theorem equals_comm (s t : Scalar) : s.equals t = t.equals s := by
  rw [Bool.eq_iff_iff, equals_iff, equals_iff]
  constructor <;> exact fun ⟨sense, same⟩ => ⟨same ▸ sense, same.symm⟩

theorem equals_trans {s t u : Scalar} (h : s.equals t = true) (h' : t.equals u = true) :
    s.equals u = true := by
  rw [equals_iff] at h h' ⊢
  exact ⟨h.1, h.2.trans h'.2⟩

/-- Only a decimal NaN is not equal to a scalar that is the same. -/
theorem equals_self_iff {s : Scalar} : s.equals s = true ↔ s ≠ .decimal .nan := by
  rw [equals_iff, isSome_sense?_iff]
  exact and_iff_left rfl

end Scalar

/-! ### One and the same -/

/-- A header without the decoder of its encoding, which cannot be compared. -/
def RowHeader.plain (h : RowHeader) : RowHeader :=
  { h with encoding := ⟨h.encoding.name, fun _ => ""⟩ }

mutual
/-- A value without the decoders of its rows. -/
def Value.plain : Value → Value
  | .scalar s => .scalar s
  | .row h as => .row h.plain (plainAttributes as)

/-- Attributes without the decoders of their rows. -/
def plainAttributes : List (Option Value) → List (Option Value)
  | [] => []
  | none :: as => none :: plainAttributes as
  | some a :: as => some a.plain :: plainAttributes as
end

mutual
theorem Value.plain_plain : ∀ a : Value, a.plain.plain = a.plain
  | .scalar _ => rfl
  | .row h as => by rw [Value.plain, Value.plain, plainAttributes_plain as]; rfl

theorem plainAttributes_plain : ∀ as : List Attribute,
    plainAttributes (plainAttributes as) = plainAttributes as
  | [] => rfl
  | none :: as => by rw [plainAttributes, plainAttributes, plainAttributes_plain as]
  | some a :: as => by
      rw [plainAttributes, plainAttributes, Value.plain_plain a, plainAttributes_plain as]
end

theorem RowHeader.isSame_iff {h h' : RowHeader} : h.isSame h' = true ↔ h.plain = h'.plain := by
  obtain ⟨type, ⟨encoding, _⟩, calendar, identity⟩ := h
  obtain ⟨type', ⟨encoding', _⟩, calendar', identity'⟩ := h'
  simp [isSame, plain, and_assoc]

mutual
/-- **Values are the same if they are so without decoders.** -/
theorem Value.isSame_iff : ∀ {a b : Value}, a.isSame b = true ↔ a.plain = b.plain
  | .scalar s, .scalar t => by simp [Value.isSame, Value.plain]
  | .row h as, .row h' bs => by
      rw [Value.isSame, Value.plain, Value.plain, Bool.and_eq_true, RowHeader.isSame_iff,
        areSame_iff, Value.row.injEq]
  | .scalar _, .row _ _ | .row _ _, .scalar _ => by simp [Value.isSame, Value.plain]

theorem areSame_iff : ∀ {as bs : List Attribute},
    areSame as bs = true ↔ plainAttributes as = plainAttributes bs
  | [], [] => by simp [areSame]
  | none :: as, none :: bs => by
      rw [areSame, plainAttributes, plainAttributes, areSame_iff, List.cons.injEq]
      exact (and_iff_right rfl).symm
  | some a :: as, some b :: bs => by
      rw [areSame, plainAttributes, plainAttributes, Bool.and_eq_true, Value.isSame_iff,
        areSame_iff, List.cons.injEq, Option.some.injEq]
  | [], a :: _ | a :: _, [] => by cases a <;> simp [areSame, plainAttributes]
  | none :: _, some _ :: _ | some _ :: _, none :: _ => by simp [areSame, plainAttributes]
end

theorem RowHeader.isSameKept_iff {h h' : RowHeader} {as bs : List Attribute} :
    h.isSameKept h' as bs = true ↔
      h.identity.isSome = true ∧ (Value.row h as).plain = (Value.row h' bs).plain := by
  rw [isSameKept, Bool.and_eq_true, Value.isSame_iff]

/-- Rows that are the same have one identity. -/
theorem RowHeader.identity_eq {h h' : RowHeader} {as bs : List Attribute}
    (same : (Value.row h as).plain = (Value.row h' bs).plain) : h.identity = h'.identity := by
  have headers : h.plain = h'.plain := (Value.row.inj same).1
  change h.plain.identity = h'.plain.identity
  rw [headers]

/-! ### Symmetry and transitivity -/

theorem RowHeader.isSameKept_comm (h h' : RowHeader) (as bs : List Attribute) :
    h.isSameKept h' as bs = h'.isSameKept h bs as := by
  rw [Bool.eq_iff_iff, isSameKept_iff, isSameKept_iff]
  constructor <;> rintro ⟨kept, same⟩ <;> exact ⟨identity_eq same ▸ kept, same.symm⟩

/-- Rows are equal if they are one and the same kept row, or have types of one name and equal
attributes. -/
theorem Value.row_equals_iff {h h' : RowHeader} {as bs : List Attribute} :
    (Value.row h as).equals (.row h' bs) = true ↔
      h.isSameKept h' as bs = true ∨ h.type.name = h'.type.name ∧ attributesEqual as bs = true := by
  rw [equals, Bool.or_eq_true, Bool.and_eq_true, decide_eq_true_eq]

mutual
/-- **Equality of values is symmetric.** -/
theorem Value.equals_comm : ∀ a b : Value, a.equals b = b.equals a
  | .scalar s, .scalar t => by rw [Value.equals, Value.equals, Scalar.equals_comm]
  | .row h as, .row h' bs => by
      rw [Value.equals, Value.equals, RowHeader.isSameKept_comm, attributesEqual_comm as bs]
      simp only [eq_comm]
  | .scalar _, .row _ _ | .row _ _, .scalar _ => by rw [Value.equals, Value.equals]

theorem attributesEqual_comm : ∀ as bs : List Attribute,
    attributesEqual as bs = attributesEqual bs as
  | [], [] => rfl
  | none :: as, none :: bs => by rw [attributesEqual, attributesEqual, attributesEqual_comm as bs]
  | some a :: as, some b :: bs => by
      rw [attributesEqual, attributesEqual, Value.equals_comm a b, attributesEqual_comm as bs]
  | [], _ :: _ | _ :: _, [] | none :: _, some _ :: _ | some _ :: _, none :: _ => by
      simp [attributesEqual]
end

mutual
/-- Equality does not look at decoders. -/
theorem Value.plain_equals : ∀ a b : Value, a.plain.equals b = a.equals b
  | .scalar _, _ => rfl
  | .row h as, .row h' bs => by
      have kept : h.plain.isSameKept h' (plainAttributes as) bs = h.isSameKept h' as bs := by
        rw [Bool.eq_iff_iff, RowHeader.isSameKept_iff, RowHeader.isSameKept_iff]
        exact and_congr_right fun _ => by rw [← Value.plain, Value.plain_plain]
      rw [Value.plain, Value.equals, Value.equals, kept, plainAttributes_equal as bs]
      rfl
  | .row _ _, .scalar _ => rfl

theorem plainAttributes_equal : ∀ as bs : List Attribute,
    attributesEqual (plainAttributes as) bs = attributesEqual as bs
  | [], _ => rfl
  | none :: as, none :: bs => by
      rw [plainAttributes, attributesEqual, attributesEqual, plainAttributes_equal as bs]
  | some a :: as, some b :: bs => by
      rw [plainAttributes, attributesEqual, attributesEqual, Value.plain_equals a b,
        plainAttributes_equal as bs]
  | a :: _, [] => by cases a <;> rfl
  | none :: _, some _ :: _ | some _ :: _, none :: _ => rfl
end

/-- The same values are equal to the same. -/
theorem Value.equals_congr {a b : Value} (same : a.plain = b.plain) (c : Value) :
    a.equals c = b.equals c := by rw [← plain_equals, same, plain_equals]

mutual
/-- **Equality of values is transitive.** -/
theorem Value.equals_trans : ∀ {a b c : Value}, a.equals b = true → b.equals c = true →
    a.equals c = true
  | .scalar s, .scalar t, .scalar u, e, e' => by
      rw [Value.equals] at e e' ⊢
      exact Scalar.equals_trans e e'
  | .row h as, .row h' bs, .row h'' cs, e, e' => by
      rcases Value.row_equals_iff.1 e with kept | ⟨name, equal⟩
      · rwa [Value.equals_congr (RowHeader.isSameKept_iff.1 kept).2]
      · rcases Value.row_equals_iff.1 e' with kept | ⟨name', equal'⟩
        · rw [Value.equals_comm] at e ⊢
          rwa [← Value.equals_congr (RowHeader.isSameKept_iff.1 kept).2]
        · exact Value.row_equals_iff.2 (.inr ⟨name.trans name', attributesEqual_trans equal equal'⟩)
  | .scalar _, .row _ _, _, e, _ | .row _ _, .scalar _, _, e, _ => by
      rw [Value.equals] at e; cases e
  | _, .scalar _, .row _ _, _, e | _, .row _ _, .scalar _, _, e => by
      rw [Value.equals] at e; cases e

theorem attributesEqual_trans : ∀ {as bs cs : List Attribute}, attributesEqual as bs = true →
    attributesEqual bs cs = true → attributesEqual as cs = true
  | [], [], [], _, _ => rfl
  | none :: as, none :: bs, none :: cs, e, e' => by
      rw [attributesEqual] at e e' ⊢
      exact attributesEqual_trans e e'
  | some a :: as, some b :: bs, some c :: cs, e, e' => by
      rw [attributesEqual, Bool.and_eq_true] at e e' ⊢
      exact ⟨Value.equals_trans e.1 e'.1, attributesEqual_trans e.2 e'.2⟩
  | [], _ :: _, _, e, _ | _ :: _, [], _, e, _ | none :: _, some _ :: _, _, e, _
  | some _ :: _, none :: _, _, e, _ => by simp [attributesEqual] at e
  | _, [], _ :: _, _, e | _, _ :: _, [], _, e | _, none :: _, some _ :: _, _, e
  | _, some _ :: _, none :: _, _, e => by simp [attributesEqual] at e
end

/-! ### Copies -/

/-- A copy of an attribute: the same scalars, and rows with the same headers that are not the kept
rows of the original. -/
inductive IsCopy : Attribute → Attribute → Prop where
  | null : IsCopy none none
  | scalar (s : Scalar) : IsCopy (some (.scalar s)) (some (.scalar s))
  | row {h : RowHeader} {identity : Option Nat} {as bs : List Attribute}
      (other : ∀ n ∈ h.identity, identity ≠ some n) (length : as.length = bs.length)
      (parts : ∀ p ∈ as.zip bs, IsCopy p.1 p.2) :
      IsCopy (some (.row h as)) (some (.row { h with identity } bs))

/-- A decimal NaN stands in an attribute, at some depth. -/
inductive HoldsNaN : Attribute → Prop where
  | decimal : HoldsNaN (some (.scalar (.decimal .nan)))
  | row {h : RowHeader} {as : List Attribute} {a : Attribute} (mem : a ∈ as) (part : HoldsNaN a) :
      HoldsNaN (some (.row h as))

theorem not_holdsNaN_none : ¬ HoldsNaN none := nofun

theorem holdsNaN_scalar_iff {s : Scalar} :
    HoldsNaN (some (.scalar s)) ↔ s = .decimal .nan := by
  constructor
  · rintro ⟨⟩
    rfl
  · rintro rfl
    exact .decimal

theorem holdsNaN_row_iff {h : RowHeader} {as : List Attribute} :
    HoldsNaN (some (.row h as)) ↔ ∃ a ∈ as, HoldsNaN a := by
  constructor
  · rintro (_ | ⟨mem, part⟩)
    exact ⟨_, mem, part⟩
  · rintro ⟨a, mem, part⟩
    exact .row mem part

/-- Lists of attributes are equal if they are so one by one. -/
theorem attributesEqual_iff : ∀ {as bs : List Attribute}, as.length = bs.length →
    (attributesEqual as bs = true ↔ ∀ p ∈ as.zip bs, attributeEquals p.1 p.2 = true)
  | [], [], _ => by simp [attributesEqual]
  | a :: as, b :: bs, length => by
      have ih := attributesEqual_iff (Nat.succ.inj length)
      rw [List.zip_cons_cons, List.forall_mem_cons, ← ih]
      cases a <;> cases b <;> simp [attributesEqual, attributeEquals]

/-- **A copy is equal to the original if and only if that holds no decimal NaN.** -/
theorem IsCopy.attributeEquals_iff {a b : Attribute} (h : IsCopy a b) :
    attributeEquals a b = true ↔ ¬ HoldsNaN a := by
  induction h with
  | null => exact iff_of_true rfl not_holdsNaN_none
  | scalar s => rw [attributeEquals, Value.equals, Scalar.equals_self_iff, holdsNaN_scalar_iff]
  | @row h identity as bs other length parts ih =>
      have notKept : ¬ h.isSameKept { h with identity } as bs = true := by
        rw [RowHeader.isSameKept_iff]
        rintro ⟨kept, same⟩
        obtain ⟨n, hn⟩ := Option.isSome_iff_exists.1 kept
        exact other n hn ((RowHeader.identity_eq same).symm.trans hn)
      rw [attributeEquals, Value.row_equals_iff, or_iff_right notKept, attributesEqual_iff length,
        holdsNaN_row_iff, not_exists]
      have firsts : (as.zip bs).map Prod.fst = as := List.map_fst_zip (Nat.le_of_eq length)
      constructor
      · rintro ⟨-, equal⟩ a ⟨mem, nan⟩
        rw [← firsts] at mem
        obtain ⟨p, pair, rfl⟩ := List.mem_map.1 mem
        exact (ih p pair).1 (equal p pair) nan
      · intro number
        refine ⟨rfl, fun p pair => (ih p pair).2 fun nan => number p.1 ⟨?_, nan⟩⟩
        rw [← firsts]
        exact List.mem_map_of_mem pair

mutual
/-- Every attribute has a copy. -/
theorem exists_isCopy : ∀ a : Attribute, ∃ b, IsCopy a b
  | none => ⟨none, .null⟩
  | some (.scalar s) => ⟨some (.scalar s), .scalar s⟩
  | some (.row h as) =>
      have ⟨bs, length, parts⟩ := exists_areCopies as
      ⟨some (.row { h with identity := none } bs), .row (fun _ _ => nofun) length parts⟩

theorem exists_areCopies : ∀ as : List Attribute,
    ∃ bs, as.length = bs.length ∧ ∀ p ∈ as.zip bs, IsCopy p.1 p.2
  | [] => ⟨[], rfl, nofun⟩
  | a :: as =>
      have ⟨b, copy⟩ := exists_isCopy a
      have ⟨bs, length, parts⟩ := exists_areCopies as
      ⟨b :: bs, congrArg Nat.succ length, List.forall_mem_cons.2 ⟨copy, parts⟩⟩
end

/-- A copy of a row is a row. -/
theorem IsCopy.exists_ofRow {r : Row} {b : Attribute} (h : IsCopy (some (.ofRow r)) b) :
    ∃ s : Row, b = some (.ofRow s) := by
  cases h with
  | @row h identity as bs => exact ⟨⟨{ r.header with identity }, bs⟩, rfl⟩

theorem attributeEquals_comm : ∀ a b : Attribute, attributeEquals a b = attributeEquals b a
  | none, none | none, some _ | some _, none => rfl
  | some a, some b => Value.equals_comm a b

theorem attributeEquals_trans : ∀ {a b c : Attribute}, attributeEquals a b = true →
    attributeEquals b c = true → attributeEquals a c = true
  | none, none, none, _, _ => rfl
  | some _, some _, some _, e, e' => Value.equals_trans e e'

/-- What holds no decimal NaN is equal to itself. -/
theorem attributeEquals_self {a : Attribute} (number : ¬ HoldsNaN a) :
    attributeEquals a a = true := by
  obtain ⟨b, copy⟩ := exists_isCopy a
  have forth : attributeEquals a b = true := copy.attributeEquals_iff.2 number
  exact attributeEquals_trans forth ((attributeEquals_comm b a).trans forth)

end RowLiteral
