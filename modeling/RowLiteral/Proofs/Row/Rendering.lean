import RowLiteral.Encoding.Listed
import RowLiteral.Proofs.Literal.Written

/-!
# Row — scanning what was rendered

What a scan makes of the literal of a row.  `sentText?` is the text that an attribute sends out from
its column: the text of its value, the decoded text of bytes, a digit for a truth value among bits,
the literal of a row with its quotes and backslashes doubled, the text of a json object with a
backslash before each quote, and nothing for NULL and for an object without content.

* `Row.scan_render_iff`: the scan gives back the texts that were sent out if and only if each of
  them is legible.  It is the law for every kind of attribute and every depth of nesting.
-/

namespace RowLiteral
open Text Literal

/-! ### What is sent out -/

/-- The text that an attribute sends out from a column of a row. -/
def sentText? (machine : Zone) (h : RowHeader) (c : Column) : Attribute → Option String
  | none => none
  | some (.scalar (.bytes bs)) => some (h.encoding.decode bs)
  | some (.scalar (.bool b)) =>
    some (if c.typeId = ColumnType.bit.id then (if b then "1" else "0") else boolText b)
  | some (.scalar (.object label content)) =>
    if label = "json" then content.map fun text => String.ofList (escapeQuotes text.toList)
    else content
  | some (.row h' attributes) =>
    some (String.ofList (doubled (Row.render machine ⟨h', attributes⟩).toList))
  | some v => v.text? machine h.calendar

/-- The texts that the attributes of a row send out, in the order of its columns. -/
def Row.sentTexts (machine : Zone) (r : Row) : List (Option String) :=
  List.zipWith (sentText? machine r.header) r.type.columns r.attributes

theorem outgoing?_eq_sentText? (machine : Zone) (h : RowHeader) (c : Column) (a : Attribute) :
    outgoing? machine h c a = (sentText? machine h c a).map String.toList := by
  match a with
  | none => rw [outgoing?]; rfl
  | some (.row h' attributes) =>
      rw [outgoing?, sentText?, Row.render, String.toList_ofList, Option.map_some,
        String.toList_ofList]
      rfl
  | some (.scalar s) =>
      rw [outgoing?]
      cases s with
      | object label content =>
          rw [sentText?]
          split
          · next hl =>
            cases content with
            | none => rfl
            | some text =>
                simp only [Scalar.outgoing?, Scalar.columnText?, Scalar.text?, Option.map_some, hl,
                  if_true, String.toList_ofList]
          · next hl =>
            simp only [Scalar.outgoing?, Scalar.columnText?, Scalar.text?, hl, if_false]
      | bool | int2 | int4 | int8 | float4 | float8 | decimal | char | text | bytes | point | box
      | temporal => rfl

theorem outgoingTokens_eq_zipWith (machine : Zone) (h : RowHeader) :
    ∀ (cs : List Column) (as : List Attribute), outgoingTokens machine h cs as =
      (List.zipWith (sentText? machine h) cs as).map (Option.map String.toList)
  | [], _ | _ :: _, [] => by rw [outgoingTokens, List.zipWith] <;> simp
  | c :: cs, a :: as => by
      rw [outgoingTokens, outgoing?_eq_sentText?, outgoingTokens_eq_zipWith machine h cs as]
      rfl

/-- The tokens of a row are the texts that its attributes send out. -/
theorem Row.tokens_eq_map_sentTexts (machine : Zone) (r : Row) :
    r.tokens machine = (r.sentTexts machine).map (Option.map String.toList) :=
  outgoingTokens_eq_zipWith machine r.header r.type.columns r.attributes

/-! ### Scanning -/

theorem some_mem_map_toList {texts : List (Option String)} {cs : List Char} :
    some cs ∈ texts.map (Option.map String.toList) ↔ some (String.ofList cs) ∈ texts := by
  constructor
  · intro h
    obtain ⟨t, ht, e⟩ := List.mem_map.1 h
    obtain ⟨text, rfl, rfl⟩ := Option.map_eq_some_iff.1 e
    rwa [String.ofList_toList]
  · intro h
    exact List.mem_map.2 ⟨_, h, by rw [Option.map_some, String.toList_ofList]⟩

/-- Texts that are written as a row are scanned again if and only if each of them is legible. -/
theorem scanRow_writeRow_iff {texts : List (Option String)} (hne : texts ≠ []) :
    scanRow (String.ofList (writeRow (texts.map (Option.map String.toList)))) = texts ↔
      ∀ text, some text ∈ texts → IsLegible text.toList := by
  have hmap : texts.map (Option.map String.toList) ≠ [] := fun e => hne (List.map_eq_nil_iff.1 e)
  have hback : (texts.map (Option.map String.toList)).map (Option.map String.ofList) = texts := by
    rw [List.map_map]
    exact (List.map_congr_left fun t _ => by cases t <;> simp).trans (List.map_id texts)
  have hscan : scanRow (String.ofList (writeRow (texts.map (Option.map String.toList)))) = texts ↔
      tokens .row (writeRow (texts.map (Option.map String.toList))) =
        texts.map (Option.map String.toList) := by
    rw [scanRow, scan, String.toList_ofList, ← List.map_inj_right (f := Option.map String.ofList)
      fun _ _ => (Option.map_inj_right fun _ _ => String.ofList_injective).1, hback]
  rw [hscan, tokens_writeRow_iff hmap]
  constructor
  · intro h text ht
    exact h _ (List.mem_map.2 ⟨_, ht, rfl⟩)
  · intro h cs hcs
    have := h _ (some_mem_map_toList.1 hcs)
    rwa [String.toList_ofList] at this

/-- **Scanning a rendered row.**  For a row with at least one column, of any kinds of attributes and
nested to any depth, the scan gives back exactly the texts that its attributes send out, if and only
if each of these texts is legible: not empty, and with a character that asks for quotes or without a
blank that ends a scan. -/
theorem Row.scan_render_iff (machine : Zone) (r : Row) (hn : 1 ≤ r.type.columns.length)
    (hl : r.attributes.length = r.type.columns.length) :
    scanRow (r.render machine) = r.sentTexts machine ↔
      ∀ text, some text ∈ r.sentTexts machine → IsLegible text.toList := by
  have hne : r.sentTexts machine ≠ [] := by
    rw [Row.sentTexts, ← List.length_pos_iff, List.length_zipWith, hl, Nat.min_self]
    exact hn
  rw [Row.render, Row.tokens_eq_map_sentTexts]
  exact scanRow_writeRow_iff hne

/-- A row with a text, a truth value among bits, bytes, json, a row in it and a NULL. -/
def Row.specimen : Row :=
  let inner : RowHeader :=
    ⟨⟨"inner", [⟨"name", "text", ColumnType.text.id⟩]⟩, .utf8, .utc, none⟩
  let columns : List Column :=
    [⟨"name", "text", ColumnType.text.id⟩, ⟨"flag", "bit", ColumnType.bit.id⟩,
      ⟨"data", "bytea", ColumnType.bytea.id⟩, ⟨"doc", "json", ColumnType.json.id⟩,
      ⟨"part", "inner", ColumnType.record.id⟩, ⟨"rest", "text", ColumnType.text.id⟩]
  ⟨⟨⟨"specimen", columns⟩, .utf8, .utc, none⟩,
    [some (.text "a,b"), some (.scalar (.bool true)), some (.scalar (.bytes [0x68, 0x20, 0x69])),
      some (.scalar (.object "json" (some "\x7b\"a\":1\x7d"))),
      some (.row inner [some (.text "x y")]), none]⟩

theorem Row.scan_render_specimen :
    1 ≤ Row.specimen.type.columns.length ∧
      Row.specimen.attributes.length = Row.specimen.type.columns.length ∧
      scanRow (Row.specimen.render 0) = Row.specimen.sentTexts 0 ∧
      ∀ text, some text ∈ Row.specimen.sentTexts 0 → IsLegible text.toList := by
  have scanned : scanRow (Row.specimen.render 0) = Row.specimen.sentTexts 0 := by decide +kernel
  exact ⟨by decide, by decide, scanned,
    (Row.scan_render_iff 0 Row.specimen (by decide) (by decide)).1 scanned⟩

end RowLiteral
