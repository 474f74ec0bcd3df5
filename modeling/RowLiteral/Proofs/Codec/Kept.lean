import RowLiteral.Proofs.Codec.Normal
import RowLiteral.Row.Access

/-!
# Codec — texts that are kept

A token of a column that is neither of a registered row type nor of a type that reads texts
(`ColumnType.reads`) keeps its text.  The column may turn it into a character or put it into an
object, but the scalar still carries the text (`Scalar.Carries`): numbers, for one, are not read
before they are asked for.

* `Codec.text_attributes_parse`: the text of an attribute is the token that it was read from.
-/

namespace RowLiteral
open Text Literal

/-- A scalar is a text, a character with that text or an object with it. -/
inductive Scalar.Carries : Scalar → String → Prop where
  | text (t : String) : Carries (.text t) t
  | char (t : String) : Carries (.char t) t
  | object (label t : String) : Carries (.object label (some t)) t

/-- The types in whose columns texts are read as values. -/
def ColumnType.reads : List ColumnType :=
  [.bool, .bit, .point, .box, .date, .time, .timetz, .timestamp, .timestamptz]

namespace Scalar

variable {s : Scalar} {t : String}

theorem carries_textShape (t : String) : (textShape t).Carries t := by
  rw [textShape]
  split
  · exact .char t
  · exact .text t

/-- What carries a text has it as its text, in every zone and in every column. -/
theorem Carries.text? (h : s.Carries t) (zone : Zone) : s.text? zone = some t := by
  cases h <;> rfl

theorem Carries.columnText? (h : s.Carries t) (machine : Zone) (hd : RowHeader) (c : Column) :
    s.columnText? machine hd c = some t := by
  cases h <;> rfl

end Scalar

/-- A text is carried on by what it becomes in a column that does not read it. -/
theorem Value.exists_coerce_text (machine : Zone) {type : ColumnType} (h : type ∉ ColumnType.reads)
    (text : String) : ∃ s : Scalar,
      (Value.text text).coerce machine type.id = .scalar s ∧ s.Carries text := by
  rw [Value.coerce_text]
  cases type with
  | bool | bit | point | box | date | time | timetz | timestamp | timestamptz =>
      exact absurd (by decide) h
  | char | bpchar | text => exact ⟨_, rfl, Scalar.carries_textShape text⟩
  | json | varbit => exact ⟨_, rfl, .object _ text⟩
  | int2 | int4 | int8 | oid | float4 | float8 | numeric | bytea | varchar | record =>
      exact ⟨_, rfl, .text text⟩

namespace Codec

variable {c : Codec} {t : RowType} {column : Column} {i : Nat}

/-- A column that is neither of a registered row type nor of a type that reads texts. -/
structure KeepsText (c : Codec) (column : Column) : Prop where
  plain : c.nested? (some column) = none
  unread : ∀ type ∈ ColumnType.reads, column.typeId ≠ type.id

/-- A token is carried on by the attribute that is read from it. -/
theorem KeepsText.readColumn (h : c.KeepsText column) (text : String) :
    ∃ s : Scalar, c.readColumn column (some text) = some (.scalar s) ∧ s.Carries text := by
  have among : ∀ type ∈ ColumnType.temporals, type ∈ ColumnType.reads := by decide
  have temporal : column.temporal? = none :=
    Column.temporal?_eq_none fun type mem => h.unread type (among type mem)
  rw [readColumn_of_not_temporal h.plain temporal]
  cases ht : ColumnType.ofId? column.typeId with
  | none =>
      rw [Value.coerce_of_unknown ht]
      exact ⟨_, rfl, .text text⟩
  | some type =>
      have id : column.typeId = type.id := ColumnType.ofId?_eq_some_iff.1 ht
      obtain ⟨s, shape, carries⟩ := Value.exists_coerce_text c.session.machine
        (fun mem => h.unread type mem id) text
      rw [id, shape]
      exact ⟨s, rfl, carries⟩

theorem getElem?_attributes_parse (c : Codec) (literal : String)
    (place : t.columns[i]? = some column) : (c.parse t literal).value.attributes[i]? =
      some (c.readColumn column (scanRow literal)[i]?.join) := by
  rw [attributes_parse, readColumns, List.getElem?_mapIdx, place]
  rfl

/-- **Reading keeps the text.**  The attribute in a column that does not read texts is NULL where
the scan has NULL or no token for it.  Otherwise its text is the token: the one that is shown, the
one that a request converts and the one that is rendered. -/
theorem text_attributes_parse (c : Codec) (t : RowType) (literal : String)
    (place : t.columns[i]? = some column) (keeps : c.KeepsText column) :
    ∃ a : Attribute, (c.parse t literal).value.attributes[i]? = some a ∧
      (a = none ↔ (scanRow literal)[i]? = some none ∨ (scanRow literal)[i]? = none) ∧
      ∀ text, (scanRow literal)[i]? = some (some text) → ∃ s : Scalar, a = some (.scalar s) ∧
        (∀ machine calendar, (Value.scalar s).text? machine calendar = some text ∧
          Row.conversionText machine calendar (.scalar s) = text) ∧
        ∀ machine hd, s.columnText? machine hd column = some text := by
  refine ⟨_, getElem?_attributes_parse c literal place, ?_, ?_⟩
  · match (scanRow literal)[i]? with
    | none => exact iff_of_true rfl (.inr rfl)
    | some none => exact iff_of_true rfl (.inl rfl)
    | some (some text) =>
        obtain ⟨s, read, -⟩ := keeps.readColumn text
        rw [Option.join_some, read]
        exact iff_of_false nofun nofun
  · intro text token
    obtain ⟨s, read, carries⟩ := keeps.readColumn text
    rw [token, Option.join_some, read]
    refine ⟨s, rfl, fun machine calendar => ?_, fun machine hd => carries.columnText? machine hd _⟩
    have shown : (Value.scalar s).text? machine calendar = some text := carries.text? _
    rw [Row.conversionText, shown]
    exact ⟨rfl, rfl⟩

/-- A row type of a number, an object and a row under no registered name. -/
def heldType : RowType :=
  ⟨"held", [⟨"count", "int4", ColumnType.int4.id⟩, ⟨"data", "json", ColumnType.json.id⟩,
    ⟨"part", "absent", ColumnType.record.id⟩]⟩

theorem keepsText_heldType : ∀ column ∈ heldType.columns, bare.KeepsText column := by
  intro column h
  constructor
  all_goals
    revert column
    decide +kernel

theorem text_attributes_parse_held :
    (∃ s : Scalar, (bare.parse heldType "(007,\"\")").value.attributes[0]? =
        some (some (.scalar s)) ∧ ∀ machine calendar,
          Row.conversionText machine calendar (.scalar s) = "007") ∧
      (bare.parse heldType "(007,\"\")").value.attributes[2]? = some none := by
  have scanned : scanRow "(007,\"\")" = [some "007", some ""] := by decide +kernel
  constructor
  · obtain ⟨a, held, -, carries⟩ := text_attributes_parse bare heldType "(007,\"\")"
      (i := 0) rfl (keepsText_heldType _ (by decide))
    obtain ⟨s, rfl, texts, -⟩ := carries "007" (by rw [scanned]; rfl)
    exact ⟨s, held, fun machine calendar => (texts machine calendar).2⟩
  · obtain ⟨a, held, null, -⟩ := text_attributes_parse bare heldType "(007,\"\")"
      (i := 2) rfl (keepsText_heldType _ (by decide))
    obtain rfl := null.2 (.inr (by rw [scanned]; rfl))
    exact held

end Codec

end RowLiteral
