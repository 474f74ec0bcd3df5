import RowLiteral.Proofs.Codec.Parse
import RowLiteral.Proofs.Row.Texts

/-!
# Codec — the normal form of a literal

Reading a literal as a row and rendering the row again gives a literal in which every column has one
token, truth values are spelled in one way and quotes stand only where they are needed
(`Codec.normalize`).  In columns of scalars (`Codec.IsScalar`) a second time changes nothing more.

What a token is rendered as depends on its column only (`Column.spelling`): a text that is not read
as a truth value comes out as it went in, however its column reshapes it.

* `Codec.normalize_eq`: the normal form is written from the spellings of the tokens.
* `Codec.normalize_normalize`: the normal form of a normal form is itself.
-/

namespace RowLiteral
open Text Literal

/-! ### Spellings -/

/-- How truth values are rendered in the columns of a type that reads them. -/
def ColumnType.boolSpelling? : ColumnType → Option (Bool → String)
  | .bool => some boolText
  | .bit => some fun b => if b then "1" else "0"
  | _ => none

namespace Column

variable {column : Column}

/-- How truth values are rendered in a column that reads them. -/
def boolSpelling? (column : Column) : Option (Bool → String) :=
  (ColumnType.ofId? column.typeId).bind ColumnType.boolSpelling?

/-- The text that a token is rendered as in a column of scalars. -/
def spelling (column : Column) (text : String) : String :=
  match column.boolSpelling? with
  | some spell => (boolOfText? text).elim text spell
  | none => text

/-- A truth value is spelled by a text that is read as that truth value. -/
theorem spec_of_boolSpelling? {spell : Bool → String} (h : column.boolSpelling? = some spell)
    (b : Bool) : boolOfText? (spell b) = some b ∧ IsUnbroken (spell b).toList := by
  obtain ⟨type, -, h⟩ := Option.bind_eq_some_iff.1 h
  cases type with
  | bool | bit =>
      cases h
      revert b
      decide +kernel
  | _ => cases h

/-- What was spelled is spelled in the same way again. -/
theorem spelling_spelling (column : Column) (text : String) :
    column.spelling (column.spelling text) = column.spelling text := by
  cases h : column.boolSpelling? with
  | none => simp [spelling, h]
  | some spell =>
      cases read : boolOfText? text with
      | none => simp [spelling, h, read]
      | some b => simp [spelling, h, read, (spec_of_boolSpelling? h b).1]

/-- The spelling of a text is unbroken if the text is. -/
theorem isUnbroken_spelling {text : String} (h : IsUnbroken text.toList) :
    IsUnbroken (column.spelling text).toList := by
  rw [spelling]
  split
  · next spell e =>
    cases boolOfText? text with
    | none => exact h
    | some b => exact (spec_of_boolSpelling? e b).2
  · exact h

end Column

/-! ### Columns of scalars -/

/-- The types in whose columns a text may be rendered in another form than it was read in: json gets
backslashes, and points, boxes and temporal values are written anew. -/
def ColumnType.rewritten : List ColumnType :=
  [.json, .point, .box, .date, .time, .timetz, .timestamp, .timestamptz]

namespace Codec

variable {c : Codec} {column : Column}

/-- A column that is neither of a registered row type nor of a type that rewrites texts. -/
structure IsScalar (c : Codec) (column : Column) : Prop where
  plain : c.nested? (some column) = none
  kept : ∀ type ∈ ColumnType.rewritten, column.typeId ≠ type.id

/-- A text in a column of scalars is rendered in its spelling. -/
theorem IsScalar.sentText?_readColumn (h : c.IsScalar column) (machine : Zone) (hd : RowHeader)
    (token : Option String) :
    sentText? machine hd column (c.readColumn column token) = token.map column.spelling := by
  cases token with
  | none => rfl
  | some text =>
      have among : ∀ type ∈ ColumnType.temporals, type ∈ ColumnType.rewritten := by decide
      have temporal : column.temporal? = none :=
        Column.temporal?_eq_none fun type mem => h.kept type (among type mem)
      rw [readColumn_of_not_temporal h.plain temporal, Option.map_some]
      cases ht : ColumnType.ofId? column.typeId with
      | none =>
          rw [Value.coerce_of_unknown ht, Column.spelling, Column.boolSpelling?, ht]
          rfl
      | some type =>
          have id : column.typeId = type.id := ColumnType.ofId?_eq_some_iff.1 ht
          have kept : type ∉ ColumnType.rewritten := fun mem => h.kept type mem id
          rw [id, Value.coerce_text, Column.spelling, Column.boolSpelling?, ht]
          cases type with
          | json | point | box | date | time | timetz | timestamp | timestamptz =>
              exact absurd (by decide) kept
          | bool | bit =>
              simp only [Option.bind_some, ColumnType.boolSpelling?]
              cases boolOfText? text with
              | none => rfl
              | some b =>
                  simp only [Option.elim_some, sentText?, id]
                  rfl
          | char | bpchar | text =>
              -- a character is rendered like the text of one unit that it was made from
              simp only [textShape]
              split <;> rfl
          | int2 | int4 | int8 | oid | float4 | float8 | numeric | bytea | varchar | record
          | varbit => rfl

end Codec

/-! ### Rows of scalars -/

/-- The texts that tokens are rendered as in columns of scalars. -/
def spellings (columns : List Column) (tokens : List (Option String)) : List (Option String) :=
  columns.mapIdx fun i column => tokens[i]?.join.map column.spelling

/-- A text, with the empty text taken for NULL. -/
def present (text : Option String) : Option String := text.filter fun text => text ≠ ""

theorem length_spellings (columns : List Column) (tokens : List (Option String)) :
    (spellings columns tokens).length = columns.length :=
  List.length_mapIdx

/-- Empty texts are written like NULL. -/
theorem writeRow_map_present (texts : List (Option String)) :
    writeRow ((texts.map present).map (Option.map String.toList)) =
      writeRow (texts.map (Option.map String.toList)) := by
  have e : Option.map String.toList ∘ present = filled ∘ Option.map String.toList :=
    funext fun text => (filled_map_toList text).symm
  rw [List.map_map, e, ← List.map_map, writeRow_filled]

/-- A text that was spelled is spelled in the same way again, unless it is empty. -/
theorem spellings_map_present (columns : List Column) (tokens : List (Option String)) :
    spellings columns ((spellings columns tokens).map present) =
      (spellings columns tokens).map present := by
  refine List.ext_getElem (by simp [spellings]) fun i h₁ h₂ => ?_
  have hi : i < columns.length := by rwa [length_spellings] at h₁
  simp only [spellings, List.getElem_mapIdx, List.getElem_map, List.getElem?_map,
    List.getElem?_mapIdx, List.getElem?_eq_getElem hi, Option.map_some, Option.join_some]
  cases tokens[i]?.join with
  | none => rfl
  | some text =>
      by_cases empty : columns[i].spelling text = "" <;>
        simp [present, Option.filter, empty, Column.spelling_spelling]

/-- The spellings are legible where the tokens are unbroken. -/
theorem isLegible_of_mem_spellings {columns : List Column} {tokens : List (Option String)}
    (unbroken : ∀ text, some text ∈ tokens.take columns.length → IsUnbroken text.toList)
    {text : String} (h : some text ∈ (spellings columns tokens).map present) :
    IsLegible text.toList := by
  obtain ⟨spelled, mem, e⟩ := List.mem_map.1 h
  obtain ⟨rfl, nonempty⟩ := Option.filter_eq_some_iff.1 e
  obtain ⟨i, hi, e⟩ := List.mem_mapIdx.1 mem
  obtain ⟨token, read, rfl⟩ := Option.map_eq_some_iff.1 e
  refine ⟨fun e => ?_, Column.isUnbroken_spelling (unbroken token ?_)⟩
  · exact absurd (String.toList_eq_nil_iff.1 e) (of_decide_eq_true nonempty)
  · rw [Option.join_eq_some_iff] at read
    exact List.mem_iff_getElem?.2 ⟨i, by rw [List.getElem?_take_of_lt hi, read]⟩

/-! ### The normal form -/

namespace Codec

variable {c : Codec} {t : RowType}

/-- The literal that a literal becomes when it is read as a row of a type and rendered again. -/
def normalize (c : Codec) (machine : Zone) (t : RowType) (literal : String) : String :=
  (c.parse t literal).value.render machine

/-- The normal form of a literal is written from the spellings of its tokens. -/
theorem normalize_eq (scalars : ∀ column ∈ t.columns, c.IsScalar column) (machine : Zone)
    (literal : String) : c.normalize machine t literal = String.ofList
      (writeRow ((spellings t.columns (scanRow literal)).map (Option.map String.toList))) := by
  have sent : (c.parse t literal).value.sentTexts machine =
      spellings t.columns (scanRow literal) := by
    rw [Row.sentTexts, Row.type, header_parse, attributes_parse]
    refine List.ext_getElem (by simp [Session.header, readColumns, spellings]) fun i h₁ h₂ => ?_
    rw [length_spellings] at h₂
    simp only [Session.header, List.getElem_zipWith, readColumns, spellings, List.getElem_mapIdx]
    exact (scalars _ (List.getElem_mem h₂)).sentText?_readColumn machine _ _
  rw [normalize, Row.render, Row.tokens_eq_map_sentTexts, sent]

/-- **Normal forms are stable.**  In a row type with at least one column and with columns of scalars
only, the normal form of a literal is its own normal form.  The literal may be malformed and have
any number of tokens; each token in a column asks for quotes or has no blank that would end a
scan. -/
theorem normalize_normalize (c : Codec) (machine : Zone) (t : RowType) (literal : String)
    (nonempty : 1 ≤ t.columns.length) (scalars : ∀ column ∈ t.columns, c.IsScalar column)
    (unbroken : ∀ text, some text ∈ (scanRow literal).take t.columns.length →
      IsUnbroken text.toList) :
    c.normalize machine t (c.normalize machine t literal) = c.normalize machine t literal := by
  have written : c.normalize machine t literal = String.ofList (writeRow
      (((spellings t.columns (scanRow literal)).map present).map (Option.map String.toList))) := by
    rw [normalize_eq scalars, writeRow_map_present]
  have scanned : scanRow (c.normalize machine t literal) =
      (spellings t.columns (scanRow literal)).map present := by
    rw [written]
    refine (scanRow_writeRow_iff fun e => ?_).2 fun text => isLegible_of_mem_spellings unbroken
    rw [List.map_eq_nil_iff, ← List.length_eq_zero_iff, length_spellings] at e
    omega
  -- the texts that are scanned in the normal form have been spelled already
  calc c.normalize machine t (c.normalize machine t literal)
      = String.ofList (writeRow ((spellings t.columns ((spellings t.columns
          (scanRow literal)).map present)).map (Option.map String.toList))) := by
        rw [normalize_eq scalars, scanned]
    _ = c.normalize machine t literal := by rw [spellings_map_present, written]

/-- A codec without row types. -/
def bare : Codec := ⟨.empty .builtin, .utc⟩

/-- A row type of scalars; the type of one column is that of rows, but under no registered name. -/
def scalarType : RowType :=
  ⟨"scalars", [⟨"flag", "boolean", ColumnType.bool.id⟩, ⟨"digit", "bit", ColumnType.bit.id⟩,
    ⟨"part", "absent", ColumnType.record.id⟩, ⟨"letter", "char", ColumnType.char.id⟩,
    ⟨"rest", "text", ColumnType.text.id⟩]⟩

/-- A literal in which a token is missing and something follows the closing bracket. -/
def shortLiteral : String := "(yes,\"1\",\"\",x)y"

theorem isScalar_scalarType : ∀ column ∈ scalarType.columns, bare.IsScalar column := by
  intro column h
  constructor
  all_goals
    revert column
    decide +kernel

theorem isUnbroken_shortLiteral : ∀ text,
    some text ∈ (scanRow shortLiteral).take scalarType.columns.length →
      IsUnbroken text.toList := by
  have scanned : scanRow shortLiteral = [some "yes", some "1", some "", some "x"] := by
    decide +kernel
  intro text h
  have among : text ∈ ["yes", "1", "", "x"] := by
    simpa [scanned] using List.mem_of_mem_take h
  clear h
  revert text
  decide +kernel

theorem normalize_normalize_scalarType :
    1 ≤ scalarType.columns.length ∧ (∀ column ∈ scalarType.columns, bare.IsScalar column) ∧
      (∀ text, some text ∈ (scanRow shortLiteral).take scalarType.columns.length →
        IsUnbroken text.toList) ∧
      bare.normalize 0 scalarType shortLiteral = "(true,1,,x,)" ∧
      bare.normalize 0 scalarType "(true,1,,x,)" = "(true,1,,x,)" := by
  have written : bare.normalize 0 scalarType shortLiteral = "(true,1,,x,)" :=
    (normalize_eq isScalar_scalarType 0 shortLiteral).trans (by decide +kernel)
  have stable := normalize_normalize bare 0 scalarType shortLiteral (by decide)
    isScalar_scalarType isUnbroken_shortLiteral
  rw [written] at stable
  exact ⟨by decide, isScalar_scalarType, isUnbroken_shortLiteral, written, stable⟩

end Codec

end RowLiteral
