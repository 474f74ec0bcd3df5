import RowLiteral.Codec
import RowLiteral.Proofs.Row.Materialize

/-!
# Codec — a row read column by column

What a codec makes of a literal, without the entries that it reports.  The attribute in a column
depends on the token at the same place only: a token of a column of a registered row type is read
as a literal of that type, and any other is taken as a text (`Codec.rawValue`); then it is given the
shape of the column (`Codec.readColumn`).

* `Codec.attributes_parse`: the attributes of the row that is read from a literal are those that
  `readColumn` gives for the tokens of the scan.
-/

namespace RowLiteral
open Text Literal

namespace Codec

variable (c : Codec)

/-- The value that the text of a token in a column stands for. -/
def rawValue (column : Option Column) (text : String) : Value :=
  match c.nested? column with
  | some t => .ofRow (c.parse t text).value
  | none => .text text

/-- The raw attributes that tokens in columns stand for. -/
def rawValues (columns : List Column) (tokens : List (Option String)) : List Attribute :=
  tokens.mapIdx fun i token => token.map (c.rawValue columns[i]?)

/-- The attribute that is read from a token in a column. -/
def readColumn (column : Column) (token : Option String) : Attribute :=
  (c.session.resolve column (token.map (c.rawValue column))).value

/-- The attributes that are read from tokens in columns. -/
def readColumns (columns : List Column) (tokens : List (Option String)) : List Attribute :=
  columns.mapIdx fun i column => c.readColumn column tokens[i]?.join

@[simp] theorem readColumns_cons (column : Column) (columns : List Column)
    (tokens : List (Option String)) : c.readColumns (column :: columns) tokens =
      c.readColumn column tokens.head?.join :: c.readColumns columns tokens.tail := by
  rw [readColumns, List.mapIdx_cons, List.head?_eq_getElem?, readColumns]
  simp only [List.getElem?_tail]

@[simp] theorem readColumn_none (column : Column) : c.readColumn column none = none := rfl

/-- The row that is read from a literal is materialized from the values of its tokens. -/
theorem value_parse (t : RowType) (literal : String) : (c.parse t literal).value =
    (c.session.materialize t (c.rawValues t.columns (scanRow literal))).value := by
  rw [parse, rawValues]
  refine congrArg (fun raw => (c.session.materialize t raw).value) ?_
  -- the two lists are compared place by place, as each place has its own column
  refine List.ext_getElem (by simp [Logged.collect]) fun i h₁ h₂ => ?_
  have hi : i < (scanRow literal).length := by rwa [List.length_mapIdx] at h₂
  simp only [Logged.collect, List.getElem_map, List.getElem_mapIdx, List.getElem_attach]
  split
  · next e =>
    have token : (scanRow literal)[i] = none := congrArg Subtype.val e
    rw [token]
    rfl
  · next text _ e =>
    have token : (scanRow literal)[i] = some text := congrArg Subtype.val e
    rw [token, Option.map_some, rawValue]
    cases c.nested? t.columns[i]? <;> rfl

/-- **A literal is read column by column.** -/
theorem attributes_parse (t : RowType) (literal : String) :
    (c.parse t literal).value.attributes = c.readColumns t.columns (scanRow literal) := by
  rw [value_parse, c.session.attributes_materialize, Session.attributesFor, readColumns, rawValues]
  refine List.ext_getElem (by simp) fun i h₁ h₂ => ?_
  rw [List.length_mapIdx] at h₂
  simp only [List.getElem_mapIdx, List.getElem?_mapIdx, List.getElem?_eq_getElem h₂, readColumn]
  cases (scanRow literal)[i]? <;> rfl

theorem length_attributes_parse (t : RowType) (literal : String) :
    (c.parse t literal).value.attributes.length = t.columns.length := by
  rw [attributes_parse, readColumns, List.length_mapIdx]

theorem header_parse (t : RowType) (literal : String) :
    (c.parse t literal).value.header = c.session.header t := by
  rw [value_parse, c.session.header_materialize]

/-! ### Tokens by their columns -/

variable {c} {column : Column}

theorem typeId_of_nested? {t : RowType} (h : c.nested? (some column) = some t) :
    column.typeId = ColumnType.record.id := by
  rw [nested?] at h
  split at h
  · assumption
  · cases h

/-- A token of a column of a registered row type is read as a row of that type. -/
theorem readColumn_of_nested? {t : RowType} (h : c.nested? (some column) = some t)
    (token : Option String) :
    c.readColumn column token = token.map fun text => .ofRow (c.parse t text).value := by
  cases token with
  | none => rfl
  | some text =>
      rw [readColumn, Option.map_some, c.session.resolve_of_record (typeId_of_nested? h), rawValue,
        h, Option.map_some]

/-- A token of any other column is taken as a text. -/
theorem readColumn_of_not_nested (h : c.nested? (some column) = none) (token : Option String) :
    c.readColumn column token = (c.session.resolve column (token.map .text)).value := by
  cases token with
  | none => rfl
  | some text => rw [readColumn, Option.map_some, Option.map_some, rawValue, h]

/-- Outside the temporal columns the text is coerced. -/
theorem readColumn_of_not_temporal (plain : c.nested? (some column) = none)
    (temporal : column.temporal? = none) (text : String) : c.readColumn column (some text) =
      some ((Value.text text).coerce c.session.machine column.typeId) := by
  rw [readColumn_of_not_nested plain, Option.map_some, c.session.value_resolve_some temporal]

end Codec

end RowLiteral
