import RowLiteral.Row.Materialize

/-!
# Row — what stands in a column

The attributes of a materialized row, column by column: the attribute in a column depends on that
column and on the raw attribute at the same place only (`Session.attributes_materialize`).  What is
missing is NULL and what is left over is dropped.

A text stays as it is in the columns that keep texts (`Column.KeepsTexts`).  In a column of text it
stands in the shape that its length gives it (`Session.resolve_of_text`), and in a column of json as
a json object (`Session.resolve_of_json`).
-/

namespace RowLiteral
open Text

namespace Session

variable (s : Session)

/-- The attributes that stand in columns for raw ones. -/
def attributesFor (cs : List Column) (raw : List Attribute) : List Attribute :=
  cs.mapIdx fun i c => (s.resolve c raw[i]?.join).value

@[simp] theorem attributesFor_nil (raw : List Attribute) : s.attributesFor [] raw = [] := rfl

@[simp] theorem attributesFor_cons (c : Column) (cs : List Column) (raw : List Attribute) :
    s.attributesFor (c :: cs) raw =
      (s.resolve c raw.head?.join).value :: s.attributesFor cs raw.tail := by
  rw [attributesFor, List.mapIdx_cons, List.head?_eq_getElem?, attributesFor]
  simp only [List.getElem?_tail]

theorem map_value_resolveAll : ∀ (cs : List Column) (raw : List Attribute),
    (s.resolveAll cs raw).map Logged.value = s.attributesFor cs raw
  | [], _ => rfl
  | c :: cs, [] => by
      rw [resolveAll, List.map_cons, map_value_resolveAll cs, attributesFor_cons]
      rfl
  | c :: cs, a :: as => by
      rw [resolveAll, List.map_cons, map_value_resolveAll cs, attributesFor_cons]
      rfl

/-- **A row is materialized column by column.** -/
theorem attributes_materialize (t : RowType) (raw : List Attribute) :
    (s.materialize t raw).value.attributes = s.attributesFor t.columns raw :=
  map_value_resolveAll s t.columns raw

theorem header_materialize (t : RowType) (raw : List Attribute) :
    (s.materialize t raw).value.header = s.header t := rfl

theorem length_attributesFor (cs : List Column) (raw : List Attribute) :
    (s.attributesFor cs raw).length = cs.length := List.length_mapIdx

/-- What stands in a column was made from a raw attribute for that column. -/
theorem exists_resolve_of_mem {p : Column × Attribute} :
    ∀ {cs : List Column} {raw : List Attribute},
    p ∈ cs.zip (s.attributesFor cs raw) → ∃ a, p.2 = (s.resolve p.1 a).value
  | [], _, h => absurd h List.not_mem_nil
  | c :: cs, raw, h => by
      rw [attributesFor_cons, List.zip_cons_cons] at h
      rcases List.mem_cons.1 h with rfl | h
      · exact ⟨_, rfl⟩
      · exact exists_resolve_of_mem h

/-- Outside the temporal columns a raw value is coerced. -/
theorem value_resolve_some {c : Column} (h : c.temporal? = none) (v : Value) :
    (s.resolve c (some v)).value = some (v.coerce s.machine c.typeId) := by
  rw [resolve, resolve?, h]
  rfl

end Session

/-! ### Columns by their types -/

theorem Column.temporal?_of_typeId {c : Column} {type : ColumnType} (h : c.typeId = type.id) :
    c.temporal? = type.temporal? := by
  rw [Column.temporal?, h, ColumnType.ofId?_id]
  rfl

/-- The types of temporal columns. -/
def ColumnType.temporals : List ColumnType := [.date, .time, .timetz, .timestamp, .timestamptz]

/-- The columns of all other types are not temporal. -/
theorem Column.temporal?_eq_none {c : Column}
    (h : ∀ type ∈ ColumnType.temporals, c.typeId ≠ type.id) : c.temporal? = none := by
  rw [Column.temporal?]
  cases ht : ColumnType.ofId? c.typeId with
  | none => rfl
  | some type =>
      have other : type ∉ ColumnType.temporals :=
        fun mem => h type mem (ColumnType.ofId?_eq_some_iff.1 ht)
      revert other
      cases type <;> decide

theorem Value.coerce_of_typeId {machine : Zone} {v : Value} {type : ColumnType} :
    v.coerce machine type.id = match v.reshape machine type with
      | .ok v' => v'.getD v
      | .error _ => v := by
  rw [Value.coerce, Value.coerce?, ColumnType.ofId?_id]
  simp only
  cases v.reshape machine type <;> rfl

/-- A value stays as it is in a column of an unknown type. -/
theorem Value.coerce_of_unknown {machine : Zone} {v : Value} {t : TypeId}
    (h : ColumnType.ofId? t = none) : v.coerce machine t = v := by
  rw [Value.coerce, Value.coerce?, h]
  rfl

/-- What a text becomes in a column of each type. -/
theorem Value.coerce_text (machine : Zone) (type : ColumnType) (text : String) :
    (Value.text text).coerce machine type.id = match type with
      | .bool | .bit => (boolOfText? text).elim (.text text) fun b => .scalar (.bool b)
      | .char | .bpchar | .text => .scalar (textShape text)
      | .json => .scalar (.object "json" (some text))
      | .varbit => .scalar (.object "unknown" (some text))
      | .point => (Point.ofText? text).elim (.text text) fun p => .scalar (.point p)
      | .box => (Box.ofText? text).elim (.text text) fun b => .scalar (.box b)
      | _ => .text text := by
  rw [Value.coerce_of_typeId]
  cases type with
  | bool | bit =>
      simp only [reshape, Value.text, Scalar.reshape, Scalar.bool?]
      cases boolOfText? text <;> rfl
  | char | bpchar =>
      by_cases h : unitLength text = 1 <;>
        simp [reshape, Value.text, Scalar.reshape, textShape, h, Except.map]
  | text =>
      by_cases h : unitLength text = 1 <;> simp [reshape, Value.text, reshapeText, textShape, h]
  | point =>
      simp only [reshape, Value.text, Scalar.reshape]
      cases Point.ofText? text <;> rfl
  | box =>
      simp only [reshape, Value.text, Scalar.reshape]
      cases Box.ofText? text <;> rfl
  | int2 | int4 | int8 | oid | float4 | float8 | numeric | bytea | varchar | record | date | time
  | timetz | timestamp | timestamptz | json | varbit => rfl

/-- A column in which a text stays as it is: it is not temporal, and coercion to its type leaves
texts alone. -/
def Column.KeepsTexts (c : Column) : Prop :=
  c.temporal? = none ∧ ∀ machine text, (Value.text text).coerce machine c.typeId = .text text

/-- The types that have no rule of coercion keep texts, and so do the numbers of unknown types. -/
theorem Column.keepsTexts_of_unruled {c : Column}
    (h : ∀ type ∈ ColumnType.ofId? c.typeId, type = .varchar ∨ type = .bytea ∨ type = .record) :
    c.KeepsTexts := by
  rw [Column.KeepsTexts, Column.temporal?]
  cases ht : ColumnType.ofId? c.typeId with
  | none => exact ⟨rfl, fun machine text => Value.coerce_of_unknown ht⟩
  | some type =>
      obtain e := ColumnType.ofId?_eq_some_iff.1 ht
      rw [e]
      rcases h type (by rw [ht]; rfl) with rfl | rfl | rfl <;>
        exact ⟨rfl, fun machine text => Value.coerce_text machine _ text⟩

theorem Session.resolve_text_of_keepsTexts (s : Session) {c : Column} (h : c.KeepsTexts)
    (text : String) : (s.resolve c (some (.text text))).value = some (.text text) := by
  rw [s.value_resolve_some h.1, h.2]

/-! ### Leaves -/

/-- The text that a scalar is a leaf of: a text, a character or a json object. -/
def Scalar.leafText? : Scalar → Option String
  | .text t | .char t => some t
  | .object label content => if label = "json" then content else none
  | _ => none

theorem Scalar.leafText?_textShape (t : String) : (textShape t).leafText? = some t := by
  rw [textShape]
  split <;> rfl

theorem Value.exists_of_reshapeText {machine : Zone} {v : Value} {x : Scalar}
    (h : v.reshapeText machine = some x) : ∃ t, x = textShape t := by
  unfold reshapeText at h
  split at h
  · next t =>
    split at h
    · cases h
    · exact ⟨t, (Option.some.inj h).symm⟩
  · next t =>
    split at h
    · next ht => exact ⟨t, by rw [textShape, if_pos ht, Option.some.inj h]⟩
    · cases h
  · obtain ⟨t, -, e⟩ := Option.map_eq_some_iff.1 h
    exact ⟨t, e.symm⟩

theorem Value.eq_textShape_of_reshapeText {machine : Zone} {x : Scalar} {t : String}
    (h : (Value.scalar x).reshapeText machine = none) (ht : x.leafText? = some t) :
    x = textShape t := by
  cases x with
  | char u =>
      obtain rfl := Option.some.inj ht
      rw [reshapeText] at h
      split at h
      · next hu => rw [textShape, if_pos hu]
      · cases h
  | text u =>
      obtain rfl := Option.some.inj ht
      rw [reshapeText] at h
      split at h
      · cases h
      · next hu => rw [textShape, if_neg hu]
  | object label content =>
      rw [Scalar.leafText?] at ht
      split at ht
      · subst ht; cases h
      · cases ht
  | _ => cases ht

namespace Session

/-- A leaf in a column of text is a character if it has one unit, and a text if not. -/
theorem resolve_of_text (s : Session) {c : Column} (h : c.typeId = ColumnType.text.id) {v : Value}
    {x : Scalar} (e : (s.resolve c (some v)).value = some (.scalar x)) {t : String}
    (ht : x.leafText? = some t) : x = textShape t := by
  rw [s.value_resolve_some (Column.temporal?_of_typeId h), h, Value.coerce_of_typeId] at e
  have e := Option.some.inj e
  simp only [Value.reshape] at e
  cases hv : v.reshapeText s.machine with
  | some y =>
      rw [hv] at e
      obtain rfl : y = x := Value.scalar.inj e
      obtain ⟨u, rfl⟩ := Value.exists_of_reshapeText hv
      rw [Scalar.leafText?_textShape] at ht
      rw [Option.some.inj ht]
  | none =>
      rw [hv] at e
      obtain rfl : v = .scalar x := e
      exact Value.eq_textShape_of_reshapeText hv ht

/-- A leaf in a column of json is a json object. -/
theorem resolve_of_json (s : Session) {c : Column} (h : c.typeId = ColumnType.json.id) {v : Value}
    {x : Scalar} (e : (s.resolve c (some v)).value = some (.scalar x)) {t : String}
    (ht : x.leafText? = some t) : x = .object "json" (some t) := by
  rw [s.value_resolve_some (Column.temporal?_of_typeId h), h, Value.coerce_of_typeId] at e
  have e := Option.some.inj e
  cases v with
  | row h' as => cases e
  | scalar y =>
      cases y with
      | text u | char u =>
          obtain rfl : _ = x := Value.scalar.inj e
          rw [← ht]; rfl
      | object label content =>
          obtain rfl : _ = x := Value.scalar.inj e
          rw [Scalar.leafText?] at ht
          split at ht
          · next hl => rw [hl, ht]
          · cases ht
      | _ =>
          obtain rfl : _ = x := Value.scalar.inj e
          cases ht

/-- In a column of text a text stands in its shape. -/
theorem resolve_text_of_text (s : Session) {c : Column} (h : c.typeId = ColumnType.text.id)
    (t : String) : (s.resolve c (some (.text t))).value = some (.scalar (textShape t)) := by
  rw [s.value_resolve_some (Column.temporal?_of_typeId h), h, Value.coerce_text]

/-- In a column of json a text becomes a json object. -/
theorem resolve_text_of_json (s : Session) {c : Column} (h : c.typeId = ColumnType.json.id)
    (t : String) :
    (s.resolve c (some (.text t))).value = some (.scalar (.object "json" (some t))) := by
  rw [s.value_resolve_some (Column.temporal?_of_typeId h), h, Value.coerce_text]

/-- A column of rows keeps every value. -/
theorem resolve_of_record (s : Session) {c : Column}
    (h : c.typeId = ColumnType.record.id) (v : Value) :
    (s.resolve c (some v)).value = some v := by
  rw [s.value_resolve_some (Column.temporal?_of_typeId h), h, Value.coerce_of_typeId]
  cases v <;> rfl

end Session

end RowLiteral
