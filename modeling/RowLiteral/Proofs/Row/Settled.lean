import Mathlib.Data.List.Forall2
import RowLiteral.Proofs.Value.Coercion

/-!
# Row — materialization settles

A session *keeps* an attribute in a column when it neither reads it as a temporal value nor coerces
it to another one: NULL, or the very value that was there (`Session.Keeps`).  Whatever a raw
attribute was, what stands for it in a column is kept there.  In a temporal column that is because
a value of the temporal type is not read again, and because a text that was not read is not read
the next time either: a reader is a function of the calendar and the text.

* `Session.coerced_and_materialized_kept`: what a value was coerced to is kept by the same coercion,
  and the attributes of a materialized row are kept by the same session in the same columns.
-/

namespace RowLiteral

namespace Session

variable (s : Session) {c : Column} {a : Attribute}

/-- An attribute that is the same before and after it is put in a column. -/
def Keeps (c : Column) (a : Attribute) : Prop := ∀ v ∈ a, (s.resolve? c v).value = none

variable {s} in
theorem Keeps.value_resolve (h : s.Keeps c a) : (s.resolve c a).value = a := by
  cases a with
  | none => rfl
  | some v =>
      have kept := h v rfl
      simp only [resolve, Logged.map, kept, Option.getD_none]

/-- A value of the temporal type is not read. -/
theorem readTemporal?_of_kind {type : TemporalType} {v : Value} (h : v.kind = .temporal type)
    (c : Column) : (s.readTemporal? type c v).value = none := by
  rw [readTemporal?, if_pos h]
  rfl

/-- A value is read as a value of the temporal type, or not at all. -/
theorem kind_of_readTemporal? {type : TemporalType} {c : Column} {v v' : Value}
    (h : (s.readTemporal? type c v).value = some v') : v'.kind = .temporal type := by
  unfold readTemporal? at h
  split at h
  · cases h
  · split at h
    · obtain rfl := Option.some.inj h
      rfl
    · cases h

/-- A temporal value that was read is kept, and so is a value that could not be read. -/
theorem readTemporal?_readTemporal? (type : TemporalType) (c : Column) (v : Value) :
    (s.readTemporal? type c ((s.readTemporal? type c v).value.getD v)).value = none := by
  cases h : (s.readTemporal? type c v).value with
  | none => exact h
  | some v' => exact s.readTemporal?_of_kind (s.kind_of_readTemporal? h) c

/-- What stands in a column is kept there. -/
theorem keeps_resolve (c : Column) (a : Attribute) : s.Keeps c (s.resolve c a).value := by
  intro w hw
  cases a with
  | none => cases hw
  | some v =>
      obtain rfl := Option.some.inj hw
      simp only [resolve?]
      cases c.temporal? with
      | some type => exact s.readTemporal?_readTemporal? type c v
      | none => exact v.coerce?_coerce s.machine c.typeId

/-! ### Rows -/

theorem keeps_attributesFor : ∀ (cs : List Column) (raw : List Attribute),
    List.Forall₂ s.Keeps cs (s.attributesFor cs raw)
  | [], _ => .nil
  | c :: cs, raw => by
      rw [attributesFor_cons]
      exact .cons (s.keeps_resolve c _) (keeps_attributesFor cs raw.tail)

variable {s} in
/-- Attributes that are kept make the row of themselves. -/
theorem attributesFor_of_keeps {cs : List Column} {as : List Attribute}
    (h : List.Forall₂ s.Keeps cs as) : s.attributesFor cs as = as := by
  induction h with
  | nil => rfl
  | cons keeps _ ih =>
      rw [attributesFor_cons, List.head?_cons, Option.join_some, keeps.value_resolve,
        List.tail_cons, ih]

/-- **Coercion and materialization settle.**  Coercing a value a second time to the same type keeps
it; and each attribute of a materialized row is kept in its column by the session, so that its
attributes make the same row again. -/
theorem coerced_and_materialized_kept :
    (∀ (machine : Zone) (v : Value) (t : TypeId),
      ((v.coerce machine t).coerce? machine t).value = none) ∧
    ∀ (s : Session) (type : RowType) (raw : List Attribute),
      List.Forall₂ s.Keeps type.columns (s.materialize type raw).value.attributes ∧
        (s.materialize type (s.materialize type raw).value.attributes).value =
          (s.materialize type raw).value := by
  refine ⟨Value.coerce?_coerce, fun s type raw => ?_⟩
  have kept : List.Forall₂ s.Keeps type.columns (s.materialize type raw).value.attributes := by
    rw [s.attributes_materialize]
    exact s.keeps_attributesFor type.columns raw
  refine ⟨kept, ?_⟩
  have same : (s.materialize type (s.materialize type raw).value.attributes).value.attributes =
      (s.materialize type raw).value.attributes := by
    rw [s.attributes_materialize, attributesFor_of_keeps kept]
  exact congrArg (Row.mk (s.header type)) same

end Session

end RowLiteral
