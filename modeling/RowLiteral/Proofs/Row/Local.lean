import RowLiteral.Proofs.Row.Materialize
import RowLiteral.Proofs.Row.Settled

/-!
# Row — materialization is local and absorbs failures

Two things can go wrong with a raw value in a column (`Session.Fails`): its text is not read as a
temporal value, whatever the reader fails with, or it is a fraction and is to become an integer of
64 bits.  Either is reported, and the raw value is kept; nothing else is reported of a column.

What stands in a column is made from the type identifier of the column and the raw attribute at the
same place.  The name of the column shows in reports only.

* `Session.resolve?_cases`: failures are absorbed, and they are what is reported.
* `Session.getElem?_attributes`: the attribute in each column.
* `Session.materialize_local`: each type, any number of raw attributes and every session give as
  many attributes as there are columns, each of which is local.
-/

namespace RowLiteral

namespace Session

variable (s : Session) {c c' : Column} {v : Value}

/-! ### Failures -/

/-- What goes wrong with a raw value in a column. -/
inductive Fails (c : Column) (v : Value) : Prop where
  /-- The text of the value is not read as a temporal value. -/
  | reading {type : TemporalType} {why : TemporalFailure} (temporal : c.temporal? = some type)
      (other : v.kind ≠ .temporal type)
      (fails : s.reader.read type s.calendar ((v.text? s.machine s.calendar).getD "") = .error why)
  /-- The value is of a number that the type of the column does not have. -/
  | coercion {type : ColumnType} {why : Fraction} (temporal : c.temporal? = none)
      (typeId : ColumnType.ofId? c.typeId = some type)
      (fails : v.reshape s.machine type = .error why)

theorem fails_temporal_iff {type : TemporalType} (h : c.temporal? = some type) :
    s.Fails c v ↔ v.kind ≠ .temporal type ∧
      ∃ why, s.reader.read type s.calendar ((v.text? s.machine s.calendar).getD "") =
        .error why := by
  constructor
  · rintro (⟨temporal, other, fails⟩ | ⟨temporal, -, -⟩)
    · obtain rfl := Option.some.inj (h.symm.trans temporal)
      exact ⟨other, _, fails⟩
    · cases h.symm.trans temporal
  · rintro ⟨other, why, fails⟩
    exact .reading h other fails

theorem fails_coercion_iff (h : c.temporal? = none) :
    s.Fails c v ↔ ∃ type ∈ ColumnType.ofId? c.typeId, ∃ why, v.reshape s.machine type =
      .error why := by
  constructor
  · rintro (⟨temporal, -, -⟩ | ⟨-, typeId, fails⟩)
    · cases h.symm.trans temporal
    · exact ⟨_, typeId, _, fails⟩
  · rintro ⟨type, typeId, why, fails⟩
    exact .coercion h typeId fails

/-- **What goes wrong is reported once and the value is kept; else nothing is reported.** -/
theorem resolve?_cases (c : Column) (v : Value) :
    (s.Fails c v ∧ ∃ report, s.resolve? c v = ⟨none, [report]⟩) ∨
      ¬ s.Fails c v ∧ ∃ v', s.resolve? c v = .quiet v' := by
  cases temporal : c.temporal? with
  | some type =>
      rw [s.fails_temporal_iff temporal]
      simp only [resolve?, temporal, readTemporal?]
      split
      · next same => exact .inr ⟨fun fails => fails.1 same, _, rfl⟩
      · next other =>
        split
        · next m read =>
          refine .inr ⟨?_, _, rfl⟩
          rintro ⟨-, why, fails⟩
          cases read.symm.trans fails
        · next why fails => exact .inl ⟨⟨other, why, fails⟩, _, rfl⟩
  | none =>
      rw [s.fails_coercion_iff temporal]
      simp only [resolve?, temporal, Value.coerce?]
      split
      · next unknown =>
        refine .inr ⟨?_, _, rfl⟩
        rintro ⟨type, known, -⟩
        cases unknown.symm.trans known
      · next type known =>
        split
        · next v' reshaped =>
          refine .inr ⟨?_, _, rfl⟩
          rintro ⟨type', known', why, fails⟩
          obtain rfl := Option.some.inj (known.symm.trans known')
          cases reshaped.symm.trans fails
        · next why fails => exact .inl ⟨⟨type, known, why, fails⟩, _, rfl⟩

variable {s} in
/-- A value with which something goes wrong is kept. -/
theorem keeps_of_fails (h : s.Fails c v) : s.Keeps c (some v) := by
  rintro w ⟨⟩
  rcases s.resolve?_cases c v with ⟨-, report, e⟩ | ⟨not, -⟩
  · rw [e]
  · exact absurd h not

/-! ### Places -/

/-- The attribute in each column. -/
theorem getElem?_attributes (type : RowType) (raw : List Attribute) (i : Nat) :
    (s.materialize type raw).value.attributes[i]? =
      type.columns[i]?.map fun c => (s.resolve c raw[i]?.join).value := by
  rw [attributes_materialize, attributesFor, List.getElem?_mapIdx]

theorem value_resolve_eq_none_iff (c : Column) (a : Attribute) :
    (s.resolve c a).value = none ↔ a = none := by
  cases a with
  | none => exact iff_of_true rfl rfl
  | some v => exact iff_of_false nofun nofun

theorem value_readTemporal?_congr (type : TemporalType) (c c' : Column) (v : Value) :
    (s.readTemporal? type c v).value = (s.readTemporal? type c' v).value := by
  rw [readTemporal?, readTemporal?]
  split
  · rfl
  · split <;> rfl

/-- Of a column nothing but the identifier of its type counts. -/
theorem value_resolve_congr (h : c.typeId = c'.typeId) (a : Attribute) :
    (s.resolve c a).value = (s.resolve c' a).value := by
  have temporal : c.temporal? = c'.temporal? := by rw [Column.temporal?, Column.temporal?, h]
  have same (v : Value) : (s.resolve? c v).value = (s.resolve? c' v).value := by
    rw [resolve?, resolve?, temporal, h]
    split
    · exact s.value_readTemporal?_congr _ c c' v
    · rfl
  cases a with
  | none => rfl
  | some v => rw [resolve, resolve, Logged.map, Logged.map, same v]

/-! ### Rows -/

/-- **Materialization is local.**  Every type, any number of raw attributes and every session give a
row with one attribute for each column, which is NULL if and only if the raw attribute in its place
is NULL or missing.  A raw value with which something goes wrong stays as it is, the very same one.
What stands in a column depends on nothing but the session, the raw attribute in its place and the
identifier of the type of the column. -/
theorem materialize_local :
    (∀ (s : Session) (type : RowType) (raw : List Attribute),
      (s.materialize type raw).value.attributes.length = type.columns.length ∧
      ∀ (i : Nat) (c : Column), type.columns[i]? = some c →
        ∃ a, (s.materialize type raw).value.attributes[i]? = some a ∧
          (a = none ↔ raw[i]? = none ∨ raw[i]? = some none) ∧
          ∀ v, raw[i]? = some (some v) → s.Fails c v → a = some v ∧ s.Keeps c a) ∧
    ∀ (s : Session) (type type' : RowType) (raw raw' : List Attribute) (i : Nat) (c c' : Column),
      type.columns[i]? = some c → type'.columns[i]? = some c' → c.typeId = c'.typeId →
      raw[i]?.join = raw'[i]?.join →
      (s.materialize type raw).value.attributes[i]? =
        (s.materialize type' raw').value.attributes[i]? := by
  constructor
  · intro s type raw
    refine ⟨by rw [attributes_materialize, length_attributesFor], fun i c column => ?_⟩
    refine ⟨_, by rw [getElem?_attributes, column, Option.map_some], ?_, fun v place fails => ?_⟩
    · rw [value_resolve_eq_none_iff, Option.join_eq_none_iff]
    · have kept : (s.resolve c raw[i]?.join).value = some v := by
        rw [place, Option.join_some, (keeps_of_fails fails).value_resolve]
      rw [kept]
      exact ⟨rfl, keeps_of_fails fails⟩
  · intro s type type' raw raw' i c c' column column' typeId place
    rw [getElem?_attributes, getElem?_attributes, column, column', Option.map_some,
      Option.map_some, place, s.value_resolve_congr typeId]

end Session

end RowLiteral
