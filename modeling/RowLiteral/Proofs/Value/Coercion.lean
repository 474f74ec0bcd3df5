import RowLiteral.Proofs.Row.Materialize

/-!
# Value — what coercion comes to

Most column types have one kind of values of their own, their *native kind*
(`ColumnType.nativeKind?`).  A scalar that is given another shape gets the native kind of its type
(`Scalar.kind_of_reshape`), and a scalar of the native kind is left alone
(`Scalar.reshape_of_native`).  A column of text has no native kind: a text of one unit stands in it
as a character, and any other as a text (`textShape`).

Coercion therefore comes to an end after one step.

* `Value.coerce?_coerce`: what a value was coerced to is kept as it is.
-/

namespace RowLiteral
open Text

/-! ### Native kinds -/

/-- The kind that scalars are given in the columns of a type, if there is one. -/
def ColumnType.nativeKind? : ColumnType → Option Kind
  | .int2 => some .int2
  | .int4 => some .int4
  | .int8 | .oid => some .int8
  | .float4 => some .float4
  | .float8 => some .float8
  | .numeric => some .decimal
  | .bool | .bit => some .bool
  | .char | .bpchar => some .char
  | .point => some .point
  | .box => some .box
  | .json | .varbit => some .object
  | .text | .bytea | .varchar | .record | .date | .time | .timetz | .timestamp | .timestamptz =>
    none

namespace Scalar

variable {type : ColumnType} {s s' : Scalar}

theorem kind_of_map_bool (h : s.bool?.map Scalar.bool = some s') : s'.kind = .bool := by
  obtain ⟨b, -, rfl⟩ := Option.map_eq_some_iff.1 h
  rfl

/-- **A scalar that is reshaped gets the native kind of the type.** -/
theorem kind_of_reshape (h : s.reshape type = .ok (some s')) :
    type.nativeKind? = some s'.kind := by
  cases type with
  | int2 =>
      cases s with
      | int4 x | int8 n => cases h; rfl
      | _ => cases h
  | int4 =>
      cases s with
      | int8 n => cases h; rfl
      | _ => cases h
  | int8 | oid =>
      cases s with
      | int4 x =>
          rw [reshape] at h
          split at h <;> cases h
          rfl
      | _ => cases h
  | float4 =>
      cases s with
      | float8 x | int4 x | int8 n => cases h; rfl
      | _ => cases h
  | float8 =>
      cases s with
      | float4 x | int4 x | int8 n => cases h; rfl
      | _ => cases h
  | numeric =>
      cases s with
      | int4 x | float4 x | float8 x =>
          rw [reshape] at h
          split at h <;> cases h
          rfl
      | _ => cases h
  | bool | bit =>
      cases s with
      | bool b => cases h
      | _ => exact congrArg some (kind_of_map_bool (Except.ok.inj h)).symm
  | char | bpchar =>
      cases s with
      | text t =>
          rw [reshape] at h
          split at h <;> cases h
          rfl
      | _ => cases h
  | point | box =>
      cases s with
      | text t =>
          obtain ⟨_, -, rfl⟩ := Option.map_eq_some_iff.1 (Except.ok.inj h)
          rfl
      | _ => cases h
  | json | varbit =>
      cases s with
      | text t | char t => cases h; rfl
      | _ => cases h
  | text | bytea | varchar | record | date | time | timetz | timestamp | timestamptz => cases h

/-- **A scalar of the native kind is left alone.** -/
theorem reshape_of_native (h : type.nativeKind? = some s.kind) : s.reshape type = .ok none := by
  cases type with
  | int2 =>
      cases s with
      | int2 x => rfl
      | _ => cases h
  | int4 =>
      cases s with
      | int4 x => rfl
      | _ => cases h
  | int8 | oid =>
      cases s with
      | int8 n => rfl
      | _ => cases h
  | float4 =>
      cases s with
      | float4 x => rfl
      | _ => cases h
  | float8 =>
      cases s with
      | float8 x => rfl
      | _ => cases h
  | numeric =>
      cases s with
      | decimal d => rfl
      | _ => cases h
  | bool | bit =>
      cases s with
      | bool b => rfl
      | _ => cases h
  | char | bpchar =>
      cases s with
      | char t => rfl
      | _ => cases h
  | point =>
      cases s with
      | point p => rfl
      | _ => cases h
  | box =>
      cases s with
      | box b => rfl
      | _ => cases h
  | json | varbit =>
      cases s with
      | object label content => rfl
      | _ => cases h
  | text | bytea | varchar | record | date | time | timetz | timestamp | timestamptz => cases h

end Scalar

namespace Value

variable {machine : Zone} {type : ColumnType}

/-! ### Columns of text -/

/-- The shape of a text is its own shape. -/
theorem reshapeText_textShape (machine : Zone) (t : String) :
    (Value.scalar (textShape t)).reshapeText machine = none := by
  by_cases h : unitLength t = 1 <;> simp [textShape, reshapeText, h]

/-! ### Coercion -/

theorem reshape_scalar (machine : Zone) (h : type ≠ .text) (s : Scalar) :
    (Value.scalar s).reshape machine type = (s.reshape type).map (Option.map .scalar) := by
  cases type with
  | text => exact absurd rfl h
  | _ => rfl

theorem reshape_row (machine : Zone) (h : type ≠ .text) (header : RowHeader)
    (attributes : List Attribute) :
    (Value.row header attributes).reshape machine type = .ok none := by
  cases type with
  | text => exact absurd rfl h
  | _ => rfl

/-- A value is not reshaped twice. -/
theorem reshape_of_reshape {v v' : Value} (h : v.reshape machine type = .ok (some v')) :
    v'.reshape machine type = .ok none := by
  by_cases text : type = .text
  · subst text
    obtain ⟨x, hx, rfl⟩ := Option.map_eq_some_iff.1 (Except.ok.inj h)
    obtain ⟨t, rfl⟩ := exists_of_reshapeText hx
    simp only [reshape, reshapeText_textShape, Option.map_none]
  · cases v with
    | row header attributes => rw [reshape_row machine text] at h; cases h
    | scalar s =>
        rw [reshape_scalar machine text] at h
        cases hs : s.reshape type with
        | error f => rw [hs] at h; cases h
        | ok x =>
            rw [hs] at h
            obtain ⟨s', rfl, rfl⟩ := Option.map_eq_some_iff.1 (Except.ok.inj h)
            rw [reshape_scalar machine text, Scalar.reshape_of_native (Scalar.kind_of_reshape hs)]
            rfl

/-- What coercion says of a value: the new one, or that it is kept. -/
theorem value_coerce?_of_typeId {v : Value} {type : ColumnType} :
    (v.coerce? machine type.id).value = match v.reshape machine type with
      | .ok v' => v'
      | .error _ => none := by
  rw [coerce?, ColumnType.ofId?_id]
  simp only
  cases v.reshape machine type <;> rfl

/-- **Coercion settles.**  What a value was coerced to is kept as it is by the same coercion. -/
theorem coerce?_coerce (machine : Zone) (v : Value) (t : TypeId) :
    ((v.coerce machine t).coerce? machine t).value = none := by
  cases ht : ColumnType.ofId? t with
  | none => rw [coerce?, ht]; rfl
  | some type =>
      obtain rfl := ColumnType.ofId?_eq_some_iff.1 ht
      rw [coerce]
      -- a value that is kept is kept again, and any other was reshaped, which happens once
      cases hv : (v.coerce? machine type.id).value with
      | none => exact hv
      | some v' =>
          rw [value_coerce?_of_typeId] at hv
          cases h : v.reshape machine type with
          | error f => rw [h] at hv; cases hv
          | ok w =>
              rw [h] at hv
              obtain rfl : w = some v' := hv
              rw [Option.getD_some, value_coerce?_of_typeId, reshape_of_reshape h]

end Value

end RowLiteral
