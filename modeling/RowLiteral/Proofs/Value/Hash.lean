import RowLiteral.Encoding.Listed
import RowLiteral.Value.Equality
import RowLiteral.Value.Hash

/-!
# Value — equal values have equal hashes

Equality and hash look at a value in different ways.  Decimals are compared as numbers and hashed by
their text; the other scalars are compared by their contents and hashed by a text that leaves some
of it out, such as the sign of a zero; rows are compared attribute by attribute, and both equality
and hash pass over their columns, their encoding and their calendar.

Two values may also have parts in common.  `Alike` holds of attributes that become equal once each
part is taken as equal to itself, which a decimal NaN is not otherwise.

* `Alike.hash_eq`: attributes that are alike have the same hash.
* `alike_of_equals`: equal attributes are alike.
* `hash_eq_of_equals`: equal attributes have the same hash, and so have equal rows.
-/

namespace RowLiteral
open Number Text

/-! ### Scalars -/

/-- Equal decimals are written alike: zeros have no sign in text. -/
theorem Decimal.toText_eq_of_equals {d e : Decimal} (h : d.equals e = true) :
    d.toText = e.toText := by
  cases d with
  | nan => cases h
  | infinity s =>
      cases e with
      | nan | finite => cases h
      | infinity s' => rw [beq_iff_eq.1 h]
  | finite s c x hs =>
      cases e with
      | nan | infinity => cases h
      | finite s' c' x' hs' =>
          simp only [equals, Bool.or_eq_true, Bool.and_eq_true, beq_iff_eq] at h
          obtain ⟨rfl, rfl⟩ | ⟨⟨rfl, rfl⟩, rfl⟩ := h
          · simp [toText, signedLayout, layout]
          · rfl

/-- Equal scalars are one and the same, or equal decimals. -/
theorem Scalar.eq_or_decimal {s t : Scalar} (h : s.equals t = true) :
    s = t ∨ ∃ d e, s = .decimal d ∧ t = .decimal e ∧ d.equals e = true := by
  unfold Scalar.equals at h
  split at h
  · next d e => exact Or.inr ⟨d, e, rfl, rfl, h⟩
  · exact Or.inl (of_decide_eq_true h)

theorem Scalar.hash_congr {s t : Scalar} (h : s.equals t = true) :
    (Value.scalar s).hash = (Value.scalar t).hash := by
  obtain rfl | ⟨d, e, rfl, rfl, h⟩ := Scalar.eq_or_decimal h
  · rfl
  · rw [Value.hash, Value.hash, contentHash, contentHash, Decimal.toText_eq_of_equals h]
    rfl

/-! ### Values with parts in common -/

/-- Attributes that are one and the same, equal scalars, or rows of types of one name whose
attributes are alike, one by one. -/
inductive Alike : Attribute → Attribute → Prop where
  | same (a : Attribute) : Alike a a
  | scalar {s t : Scalar} (equal : s.equals t = true) :
      Alike (some (.scalar s)) (some (.scalar t))
  | row {h h' : RowHeader} {as bs : List Attribute} (name : h.type.name = h'.type.name)
      (length : as.length = bs.length) (parts : ∀ p ∈ as.zip bs, Alike p.1 p.2) :
      Alike (some (.row h as)) (some (.row h' bs))

theorem RowHeader.typeName_of_isSame {h h' : RowHeader} (same : h.isSame h' = true) :
    h.type.name = h'.type.name := by
  simp only [isSame, Bool.and_eq_true, decide_eq_true_eq] at same
  rw [same.1.1.1]

mutual
/-- Values that are one and the same are alike. -/
theorem alike_of_isSame : ∀ {a b : Value}, a.isSame b = true → Alike (some a) (some b)
  | .scalar s, .scalar t, e => by
      rw [Value.isSame] at e
      obtain rfl := of_decide_eq_true e
      exact .same _
  | .row h as, .row h' bs, e => by
      rw [Value.isSame, Bool.and_eq_true] at e
      obtain ⟨length, parts⟩ := alike_of_areSame e.2
      exact .row (RowHeader.typeName_of_isSame e.1) length parts
  | .scalar _, .row _ _, e | .row _ _, .scalar _, e => by
      rw [Value.isSame] at e
      cases e

theorem alike_of_areSame : ∀ {as bs : List Attribute}, areSame as bs = true →
    as.length = bs.length ∧ ∀ p ∈ as.zip bs, Alike p.1 p.2
  | [], [], _ => ⟨rfl, fun _ h => absurd h List.not_mem_nil⟩
  | none :: as, none :: bs, e => by
      rw [areSame] at e
      obtain ⟨length, parts⟩ := alike_of_areSame e
      exact ⟨congrArg Nat.succ length, List.forall_mem_cons.2 ⟨.same none, parts⟩⟩
  | some a :: as, some b :: bs, e => by
      rw [areSame, Bool.and_eq_true] at e
      obtain ⟨length, parts⟩ := alike_of_areSame e.2
      exact ⟨congrArg Nat.succ length, List.forall_mem_cons.2 ⟨alike_of_isSame e.1, parts⟩⟩
  | [], _ :: _, e | _ :: _, [], e | none :: _, some _ :: _, e | some _ :: _, none :: _, e => by
      simp [areSame] at e
end

mutual
/-- Equal values are alike. -/
theorem alike_of_equals : ∀ {a b : Value}, a.equals b = true → Alike (some a) (some b)
  | .scalar s, .scalar t, e => by
      rw [Value.equals] at e
      exact .scalar e
  | .row h as, .row h' bs, e => by
      rw [Value.equals, Bool.or_eq_true, Bool.and_eq_true] at e
      obtain kept | ⟨name, equal⟩ := e
      · -- a kept row is equal to itself
        rw [RowHeader.isSameKept, Bool.and_eq_true] at kept
        exact alike_of_isSame kept.2
      · obtain ⟨length, parts⟩ := alike_of_attributesEqual equal
        exact .row (of_decide_eq_true name) length parts
  | .scalar _, .row _ _, e | .row _ _, .scalar _, e => by
      rw [Value.equals] at e
      cases e

/-- Attributes that are equal one by one are alike. -/
theorem alike_of_attributesEqual : ∀ {as bs : List Attribute}, attributesEqual as bs = true →
    as.length = bs.length ∧ ∀ p ∈ as.zip bs, Alike p.1 p.2
  | [], [], _ => ⟨rfl, fun _ h => absurd h List.not_mem_nil⟩
  | none :: as, none :: bs, e => by
      rw [attributesEqual] at e
      obtain ⟨length, parts⟩ := alike_of_attributesEqual e
      exact ⟨congrArg Nat.succ length, List.forall_mem_cons.2 ⟨.same none, parts⟩⟩
  | some a :: as, some b :: bs, e => by
      rw [attributesEqual, Bool.and_eq_true] at e
      obtain ⟨length, parts⟩ := alike_of_attributesEqual e.2
      exact ⟨congrArg Nat.succ length, List.forall_mem_cons.2 ⟨alike_of_equals e.1, parts⟩⟩
  | [], _ :: _, e | _ :: _, [], e | none :: _, some _ :: _, e | some _ :: _, none :: _, e => by
      simp [attributesEqual] at e
end

/-! ### Hashes -/

theorem attributeHashes_eq_map (as : List Attribute) :
    attributeHashes as = as.map attributeHash := by
  induction as with
  | nil => rfl
  | cons a as ih => cases a <;> rw [attributeHashes, ih, List.map_cons, attributeHash]

/-- Lists of one length have the same hashes if their members have, one by one. -/
theorem attributeHashes_congr : ∀ {as bs : List Attribute}, as.length = bs.length →
    (∀ p ∈ as.zip bs, attributeHash p.1 = attributeHash p.2) →
    attributeHashes as = attributeHashes bs
  | [], [], _, _ => rfl
  | a :: as, b :: bs, length, h => by
      obtain ⟨first, rest⟩ := List.forall_mem_cons.1 h
      have ih := attributeHashes_congr (Nat.succ.inj length) rest
      rw [attributeHashes_eq_map, attributeHashes_eq_map] at ih ⊢
      rw [List.map_cons, List.map_cons, first, ih]

/-- **Attributes that are alike have the same hash.** -/
theorem Alike.hash_eq {a b : Attribute} (h : Alike a b) : attributeHash a = attributeHash b := by
  induction h with
  | same => rfl
  | scalar equal => exact Scalar.hash_congr equal
  | row name length _ ih =>
      rw [attributeHash, attributeHash, Value.hash, Value.hash, name,
        attributeHashes_congr length ih]

/-- Rows that are alike have the same hash. -/
theorem Alike.rowHash_eq {u v : Row} (h : Alike (some (.ofRow u)) (some (.ofRow v))) :
    u.hash = v.hash := by
  obtain ⟨header, as⟩ := u
  obtain ⟨header', bs⟩ := v
  cases h with
  | same => rfl
  | row name length parts =>
      have hashes := attributeHashes_congr length fun p hp => (parts p hp).hash_eq
      rw [Row.hash, Row.hash, Row.type, Row.type, name, hashes]

/-- **Equal values have equal hashes.**  This holds of all attributes and of all rows, whatever the
encodings, calendars and columns of the rows are, and also where values have parts in common that
are not equal to themselves. -/
theorem hash_eq_of_equals :
    (∀ a b : Attribute, attributeEquals a b = true → attributeHash a = attributeHash b) ∧
      (∀ u v : Row, u.equals v = true → u.hash = v.hash) ∧
      ∀ a b : Attribute, Alike a b → attributeHash a = attributeHash b := by
  refine ⟨fun a b equal => ?_, fun u v equal => (alike_of_equals equal).rowHash_eq,
    fun a b alike => alike.hash_eq⟩
  cases a with
  | none =>
      cases b with
      | none => rfl
      | some v => cases equal
  | some u =>
      cases b with
      | none => cases equal
      | some v => exact (alike_of_equals equal).hash_eq

/-- A row of a zero with a sign and of a further such row without columns. -/
def Row.zeros (column : String) (calendar : Calendar) (negative : Bool) : Row :=
  let header (columns : List Column) : RowHeader :=
    ⟨⟨"zeros", columns⟩, .utf8, calendar, none⟩
  let zero : Attribute := some (.scalar (.decimal (.zero negative)))
  ⟨header [⟨column, "numeric", ColumnType.numeric.id⟩, ⟨"more", "zeros", ColumnType.record.id⟩],
    [zero, some (.row (header []) [zero, none])]⟩

theorem hash_eq_of_equals_zeros :
    (Row.zeros "net" .utc true).equals (.zeros "gross" .machine false) = true ∧
      (Row.zeros "net" .utc true).hash = (Row.zeros "gross" .machine false).hash := by
  have equal : (Row.zeros "net" .utc true).equals (.zeros "gross" .machine false) = true := by
    decide
  exact ⟨equal, hash_eq_of_equals.2.1 _ _ equal⟩

end RowLiteral
