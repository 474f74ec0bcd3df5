import RowLiteral.Proofs.Codec.Opening
import RowLiteral.Proofs.Codec.Parse
import RowLiteral.Proofs.Types.Order

/-!
# Codec — columns in the order of the types file

A literal gives values without names, so that the place of a column decides which token it is given.
A column is loaded under its name with its type as they are written, but the columns of a row type
are listed in key order: those whose names are array indices come first.

* `TypesFile.Declares.exists_columns`: the columns of a row type are the written ones in key order.
* `Codec.readsAsWritten_iff`: a codec reads a row type in the written order, column by column and
  token by token, exactly where that is key order.
-/

namespace RowLiteral
open Text Literal

/-- The entry that declares a column. -/
def Column.entry (c : Column) : String × Document := (c.name, .text c.typeName)

/-- The columns of a row type as they stand in a document. -/
def Document.columns? (d : Document) (name : String) : Option (List (String × Document)) :=
  ((d.get? "types").bind (Document.get? name)).bind Document.entries?

/-! ### Loading -/

namespace TypesFile

theorem DeclaresColumn.eq_entry {names : List String} {e : String × Document} {c : Column}
    (h : DeclaresColumn names e c) : e = c.entry := by
  cases h <;> rfl

/-- Columns are loaded from the entries that are listed. -/
theorem map_entry_eq {names : List String} {written : List (String × Document)}
    {columns : List Column} (declared : List.Forall₂ (DeclaresColumn names)
      ((Table.listed written).map fun e => (e.1, e.2.listed)) columns) :
    columns.map Column.entry = Table.listed written := by
  have same (e : String × Document) (c : Column)
      (h : DeclaresColumn names (e.1, e.2.listed) c) : e = c.entry := by
    obtain ⟨name, type⟩ := Prod.mk.inj h.eq_entry
    exact Prod.ext name (Document.eq_text_of_listed type)
  rw [← map_eq_map_of_forall₂ (List.forall₂_map_left_iff.1 declared) same, List.map_id']

/-- **The columns of a row type are the written ones in key order.** -/
theorem Declares.exists_columns {w : Document} (keyed : w.Keyed) {ts : List RowType}
    (h : Declares (some w.listed) ts) {t : RowType} (mem : t ∈ ts) :
    ∃ columns, w.columns? t.name = some columns ∧
      t.columns.map Column.entry = Table.listed columns := by
  obtain ⟨types, ⟨entries, doc, found⟩, -, declared⟩ := h
  -- down from the document over its row types to the columns
  obtain ⟨top, rfl, rfl⟩ := Document.exists_of_listed_mapping keyed (Option.some.inj doc)
  obtain ⟨topDistinct, topKeyed⟩ := Document.keyed_mapping_iff.1 keyed
  obtain ⟨d, typesMem, typesListed⟩ := Document.exists_of_mem_listed (Table.mem_of_get? found)
  have typesKeyed := topKeyed _ typesMem
  obtain ⟨rows, rfl, rfl⟩ := Document.exists_of_listed_mapping typesKeyed typesListed
  obtain ⟨rowsDistinct, rowsKeyed⟩ := Document.keyed_mapping_iff.1 typesKeyed
  obtain ⟨⟨name, x⟩, loaded, rowName, columns, rfl, -, each⟩ :=
    exists_of_forall₂_of_mem declared mem
  obtain ⟨d, rowMem, rowListed⟩ := Document.exists_of_mem_listed loaded
  obtain ⟨written, rfl, rfl⟩ := Document.exists_of_listed_mapping (rowsKeyed _ rowMem) rowListed
  refine ⟨written, ?_, map_entry_eq each⟩
  rw [rowName, Document.columns?, Document.get?_mapping topDistinct typesMem, Option.bind_some,
    Document.get?_mapping rowsDistinct rowMem]
  rfl

end TypesFile

/-! ### Reading -/

namespace Codec

/-- A codec reads a row type as its columns are written: at each place it has the column that is
written there, and reads the token at that place in it. -/
def ReadsAsWritten (c : Codec) (t : RowType) (written : List (String × Document)) : Prop :=
  ∀ (k : Nat) (e : String × Document), written[k]? = some e →
    ∃ column, t.columns[k]? = some column ∧ column.entry = e ∧
      ∀ literal, (c.parse t literal).value.attributes[k]? =
        some (c.readColumn column (scanRow literal)[k]?.join)

variable {c : Codec} {t : RowType} {written : List (String × Document)}

/-- The order of the columns is all that matters. -/
theorem readsAsWritten_iff_map_entry (c : Codec) (same : t.columns.length = written.length) :
    c.ReadsAsWritten t written ↔ t.columns.map Column.entry = written := by
  constructor
  · intro h
    refine List.ext_getElem? fun k => ?_
    rw [List.getElem?_map]
    cases place : written[k]? with
    | none => rw [List.getElem?_eq_none (same ▸ List.getElem?_eq_none_iff.1 place), Option.map_none]
    | some e =>
        obtain ⟨column, found, rfl, -⟩ := h k e place
        rw [found, Option.map_some]
  · rintro rfl k e place
    rw [List.getElem?_map] at place
    obtain ⟨column, found, rfl⟩ := Option.map_eq_some_iff.1 place
    refine ⟨column, found, rfl, fun literal => ?_⟩
    rw [attributes_parse, readColumns, List.getElem?_mapIdx, found, Option.map_some]

/-- **A codec reads the columns of the types file in their order, as far as that is key order.**
Let no key be repeated in the file.  Then every row type of the codec is written in it.  Its columns
are those that are written, array indices first.  They stand at the places at which they are
written, and are given the tokens of a literal at these places, if and only if they are written in
key order. -/
theorem readsAsWritten_iff {text : String} {w : Document} {ds : List RowTypeDefinition}
    {machine : Zone} {decoders : Decoders} {settings : Settings} {name : String}
    (read : TypesFile.written? text = some w) (keyed : w.Keyed)
    (loaded : TypesFile.definitions (TypesFile.document? text) = .ok ds)
    (opened : (ofSettings machine decoders (some settings) ds).value = .ok c)
    (found : c.rowType name = .ok t) :
    ∃ written, w.columns? name = some written ∧
      t.columns.map Column.entry = Table.listed written ∧
      (c.ReadsAsWritten t written ↔ InKeyOrder (written.map Prod.fst)) := by
  have document : TypesFile.document? text = some w.listed := by
    rw [TypesFile.document?, read, Option.map_some]
  rw [document] at loaded
  obtain ⟨ts, rfl, declared⟩ := TypesFile.definitions_eq_ok_iff.1 loaded
  obtain ⟨mem, rfl⟩ : t ∈ ts ∧ t.name = name := by
    rw [value_ofSettings_definition machine decoders settings
      (declared.nodup_names fun _ doc => Option.some.inj doc ▸ w.keyed_listed)
      declared.columns_ne_nil, map_eq_ok_iff] at opened
    obtain ⟨session, -, rfl⟩ := opened
    have registered := rowType_eq_ok_iff.1 found
    exact ⟨List.mem_of_find?_eq_some registered, Registry.name_of_get? registered⟩
  obtain ⟨written, place, entries⟩ := declared.exists_columns keyed mem
  have same : t.columns.length = written.length := by
    rw [← (Table.listed_perm written).length_eq, ← entries, List.length_map]
  refine ⟨written, place, entries, ?_⟩
  rw [c.readsAsWritten_iff_map_entry same, entries, Table.listed_eq_self_iff]
  rfl

/-- A types file with two row types of the same columns. -/
def yearFile : String :=
  "types:\n  year:\n    2024: numeric\n    label: text\n" ++
    "  entry:\n    label: text\n    2024: numeric\n"

/-- What is written in it. -/
def yearDocument : Document :=
  .mapping [("types", .mapping
    [("year", .mapping [("2024", .text "numeric"), ("label", .text "text")]),
      ("entry", .mapping [("label", .text "text"), ("2024", .text "numeric")])])]

/-- The row types that are loaded from it. -/
def yearTypes : List RowType :=
  [⟨"year", [⟨"2024", "numeric", ColumnType.numeric.id⟩, ⟨"label", "text", ColumnType.text.id⟩]⟩,
    ⟨"entry", [⟨"2024", "numeric", ColumnType.numeric.id⟩, ⟨"label", "text", ColumnType.text.id⟩]⟩]

theorem written?_yearFile : TypesFile.written? yearFile = some yearDocument := by rfl

theorem keyed_yearDocument : yearDocument.Keyed := by simp [yearDocument, Table.keys]

theorem definitions_yearFile : TypesFile.definitions (TypesFile.document? yearFile) =
    .ok (yearTypes.map RowType.definition) := by decide +kernel

/-- A codec that is opened with them. -/
theorem exists_yearCodec : ∃ c : Codec,
    (ofSettings 0 .listed (some ⟨"UTF8", .utc⟩) (yearTypes.map RowType.definition)).value = .ok c ∧
      c.registry.types = yearTypes := by
  obtain ⟨session, valid⟩ : ∃ session, sessionOf 0 .listed ⟨"UTF8", .utc⟩ = .ok session :=
    ⟨_, rfl⟩
  refine ⟨⟨⟨.builtin, yearTypes⟩, session⟩, ?_, rfl⟩
  rw [value_ofSettings_definition 0 .listed ⟨"UTF8", .utc⟩ (by decide) (by decide), valid]
  rfl

/-- The columns of `year` are read as they are written. -/
theorem readsAsWritten_iff_year : ∃ (c : Codec) (t : RowType) (written : List (String × Document)),
    TypesFile.written? yearFile = some yearDocument ∧ yearDocument.Keyed ∧
      TypesFile.definitions (TypesFile.document? yearFile) =
        .ok (yearTypes.map RowType.definition) ∧
      (ofSettings 0 .listed (some ⟨"UTF8", .utc⟩) (yearTypes.map RowType.definition)).value = .ok c ∧
      c.rowType "year" = .ok t ∧ yearDocument.columns? "year" = some written ∧
      c.ReadsAsWritten t written := by
  obtain ⟨c, opened, types⟩ := exists_yearCodec
  have found : c.rowType "year" = .ok yearTypes[0] := by
    rw [rowType_eq_ok_iff, Registry.get?, types]
    rfl
  obtain ⟨written, place, -, iff⟩ := readsAsWritten_iff written?_yearFile keyed_yearDocument
    definitions_yearFile opened found
  refine ⟨c, _, written, written?_yearFile, keyed_yearDocument, definitions_yearFile, opened, found,
    place, iff.2 ?_⟩
  obtain rfl := Option.some.inj place
  decide

/-- Those of `entry` are not. -/
theorem not_readsAsWritten : ¬ ∀ (text : String) (w : Document) (ds : List RowTypeDefinition)
    (machine : Zone) (decoders : Decoders) (settings : Settings) (c : Codec) (name : String)
    (t : RowType),
    TypesFile.written? text = some w → w.Keyed →
      TypesFile.definitions (TypesFile.document? text) = .ok ds →
      (ofSettings machine decoders (some settings) ds).value = .ok c → c.rowType name = .ok t →
      ∃ written, w.columns? name = some written ∧ c.ReadsAsWritten t written := by
  intro h
  obtain ⟨c, opened, types⟩ := exists_yearCodec
  have found : c.rowType "entry" = .ok yearTypes[1] := by
    rw [rowType_eq_ok_iff, Registry.get?, types]
    rfl
  obtain ⟨written, place, reads⟩ := h yearFile _ _ _ _ _ c "entry" _ written?_yearFile
    keyed_yearDocument definitions_yearFile opened found
  obtain rfl := Option.some.inj place
  -- the first column is `2024`, where `label` is written
  obtain ⟨column, first, entry, -⟩ := reads 0 ("label", .text "text") rfl
  obtain rfl := Option.some.inj first
  exact absurd (congrArg Prod.fst entry) (by decide)

end Codec

end RowLiteral
