import RowLiteral.Proofs.Codec.Leaves

/-!
# Codec — reading a rendered row

`Codec.equals_parse_render` says which of the rows that hold texts are read back from their
literal.  On the way out the quotes and backslashes of a row in a row are doubled twice, and the
quotes of json get a backslash besides, but on the way in one scan undoes one doubling.  So

* a text comes back in a column of text, and in a column of json if there is no quote in it;
* a row in the row comes back only in a column of its own type and if all that it holds is written
  bare, which no further row is; the one exception is the json text of two quotes, which comes back
  by accident.
-/

namespace RowLiteral
open Text Literal

theorem attributesEqual_cons (a b : Attribute) (as bs : List Attribute) :
    attributesEqual (a :: as) (b :: bs) = (attributeEquals a b && attributesEqual as bs) := by
  cases a <;> cases b <;> rw [attributesEqual, attributeEquals] <;> simp

/-- Lists of attributes that are equal are equally long. -/
theorem length_eq_of_attributesEqual : ∀ {as bs : List Attribute},
    attributesEqual as bs = true → as.length = bs.length
  | [], [], _ => rfl
  | [], b :: bs, h => by cases b <;> cases h
  | a :: as, [], h => by cases a <;> cases h
  | a :: as, b :: bs, h => by
      rw [attributesEqual_cons, Bool.and_eq_true] at h
      exact congrArg Nat.succ (length_eq_of_attributesEqual h.2)

/-- A leaf of a row that holds texts, by its text. -/
theorem HoldsTexts.isLeaf {x : Scalar} {text : String} (h : HoldsTexts (some (.scalar x)))
    (content : x.leafText? = some text) : IsLeaf text.toList := by
  cases h with
  | leaf content' leaf => rwa [← Option.some.inj (content'.symm.trans content)]

/-! ### Rows in a row -/

/-- What stands in a column of a row in a row and is read back from there: NULL, and the text or the
json of the column if it is written bare, or is the json text of two quotes. -/
inductive ReadsBackInside (column : Column) : Attribute → Prop where
  | null : ReadsBackInside column none
  | text {text : String} (type : column.typeId = ColumnType.text.id)
      (plain : text.toList.all isPlain = true) :
      ReadsBackInside column (some (.scalar (textShape text)))
  | json {text : String} (type : column.typeId = ColumnType.json.id)
      (plain : text.toList.all isPlain = true ∨ text = "\"\"") :
      ReadsBackInside column (some (.scalar (.object "json" (some text))))

theorem needsQuoting_of_all_isPlain {cs : List Char} (h : cs.all isPlain = true) {x : Char}
    (hx : x ∈ cs) : needsQuoting x = false := by
  rw [← Bool.not_eq_true']
  exact List.all_eq_true.1 h x hx

theorem any_needsQuoting_of_all_isPlain {cs : List Char} (h : ¬ cs.all isPlain = true) :
    cs.any needsQuoting = true := by
  obtain ⟨x, hx, hq⟩ := List.all_eq_false.1 (Bool.eq_false_iff.2 h)
  refine List.any_eq_true.2 ⟨x, hx, ?_⟩
  rwa [isPlain, Bool.not_eq_true', Bool.not_eq_false] at hq

section Inside

variable {c : Codec} {column : Column} {columns : List Column} {a : Attribute}
  {as : List Attribute} {rest : List Char} (machine : Zone) (hd : RowHeader)

/-- A leaf that is written bare is read back from within a row in a row. -/
theorem readFrom_inside_plain {cs : List Char} (leaf : IsLeaf cs) (plain : cs.all isPlain = true)
    (hr : EndsField rest) : readFrom .row .start (doubled (writeToken (some cs)) ++ rest) =
      readFrom .row (.holding (some cs)) rest := by
  refine readFrom_doubled_plain (fun ds hds => ?_) hr.head?_ne
  obtain rfl : cs = ds := Option.some.inj hds
  exact ⟨leaf.isLegible, fun x hx => needsQuoting_of_all_isPlain plain hx⟩

/-- What is read back from within a row in a row. -/
theorem ReadsBackInside.readFrom_inside (back : ReadsBackInside column a)
    (textual : c.IsTextual column) (holds : HoldsTexts a) (hr : EndsField rest) :
    ∃ token, readFrom .row .start (doubled (writeToken (outgoing? machine hd column a)) ++ rest) =
        readFrom .row (.holding token) rest ∧
      attributeEquals (c.readColumn column (token.map String.ofList)) a = true := by
  cases back with
  | null =>
      refine ⟨none, ?_, rfl⟩
      rw [outgoing?]
      exact readFrom_doubled_plain (fun cs h => absurd h (Option.not_mem_none cs)) hr.head?_ne
  | @text text type plain =>
      have leaf := holds.isLeaf (Scalar.leafText?_textShape text)
      refine ⟨some text.toList, ?_, ?_⟩
      · rw [outgoing?_text, readFrom_inside_plain leaf plain hr]
      · rw [Option.map_some, String.ofList_toList]
        exact (textual.readColumn_equals_scalar_iff _ _).2 ⟨text, rfl, .text type text⟩
  | @json text type plain =>
      refine ⟨some text.toList, ?_, ?_⟩
      · rw [outgoing?_json]
        rcases plain with plain | rfl
        · have hq : '"' ∉ text.toList := fun hq =>
            absurd (needsQuoting_of_all_isPlain plain hq) (by decide)
          rw [escapeQuotes_eq_self_iff.2 hq, readFrom_inside_plain (holds.isLeaf rfl) plain hr]
        · exact readFrom_doubled_two_quotes hr.head?_ne
      · rw [Option.map_some, String.ofList_toList]
        exact (textual.readColumn_equals_scalar_iff _ _).2 ⟨text, rfl, .json type text⟩

/-- A row that holds NULLs only sends out no tokens. -/
theorem outgoingTokens_nulls (nulls : ∀ a ∈ as, a = none) :
    ∀ t ∈ outgoingTokens machine hd columns as, t = none := by
  intro t mem
  obtain ⟨column, a, ha, rfl⟩ := exists_of_mem_outgoingTokens mem
  rw [nulls a ha, outgoing?]

/-- A row is not read back from within a row in a row, whatever the column. -/
theorem Codec.IsTextual.attributeEquals_inside_row (textual : c.IsTextual column) (r : Row)
    (hr : EndsField rest) :
    ¬ attributeEquals (c.readColumn column ((readFrom .row .start
      (doubled (writeToken (some (doubled (writeRow (r.tokens machine))))) ++
        rest)).head?.join.map String.ofList)) (some (.ofRow r)) = true := by
  intro same
  obtain ⟨t, w, -, token, -, same⟩ := (textual.readColumn_equals_row_iff _ _).1 same
  obtain ⟨cs, hcs, rfl⟩ := Option.map_eq_some_iff.1 token
  -- no field ends in what is read, so that the row holds NULLs only, but then no text is read
  have hw := not_mem_token_of_doubled (any_needsQuoting_doubled_writeRow _) hr hcs
  have nothing : scanRow (String.ofList cs) = [] := by
    rw [scanRow, scan, String.toList_ofList]
    exact congrArg (List.map _) (readFrom_eq_nil (f := .start) hw.1 hw.2)
  rw [nothing] at same
  have nulls : ∀ t ∈ r.tokens machine, t = none :=
    outgoingTokens_nulls machine r.header (Codec.eq_none_of_readColumns_nil same)
  rw [token_of_doubled_nulls nulls] at hcs
  cases hcs

/-- What is not read back from within a row in a row. -/
theorem HoldsTexts.head?_readFrom_inside (holds : HoldsTexts a) (textual : c.IsTextual column)
    (hr : EndsField rest) (lost : ¬ ReadsBackInside column a) :
    ¬ attributeEquals (c.readColumn column ((readFrom .row .start
      (doubled (writeToken (outgoing? machine hd column a)) ++ rest)).head?.join.map String.ofList))
        a = true := by
  cases holds with
  | null => exact absurd .null lost
  | @leaf x _ content leaf =>
      intro same
      obtain ⟨w, token, made⟩ := (textual.readColumn_equals_scalar_iff _ _).1 same
      obtain ⟨cs, hcs, rfl⟩ := Option.map_eq_some_iff.1 token
      -- the token would have to be the text that the column makes the leaf of
      cases made with
      | text type =>
          have quoted : cs.any needsQuoting = true :=
            any_needsQuoting_of_all_isPlain fun plain =>
              lost (.text type (by rwa [String.toList_ofList]))
          rw [outgoing?_text, String.toList_ofList] at hcs
          exact token_of_doubled_ne quoted hr hcs
      | json type =>
          have special : cs.any needsQuoting = true := any_needsQuoting_of_all_isPlain fun plain =>
            lost (.json type (.inl (by rwa [String.toList_ofList])))
          obtain ⟨e, he, hq⟩ := List.any_eq_true.1 special
          have quoted : (escapeQuotes cs).any needsQuoting = true :=
            List.any_eq_true.2 ⟨e, mem_escapeQuotes_of_mem he, hq⟩
          rw [outgoing?_json, String.toList_ofList] at hcs
          obtain rfl := eq_two_quotes_of_token quoted hr hcs
          exact lost (.json type (.inr rfl))
  | @row r =>
      rw [outgoing?_row]
      exact textual.attributeEquals_inside_row machine r hr

/-- Within a row in a row, what is read is equal to what was written if and only if each attribute
is read back. -/
theorem Codec.readColumns_inside : ∀ {columns : List Column} {as : List Attribute},
    as.length = columns.length → (∀ column ∈ columns, c.IsTextual column) →
    (∀ a ∈ as, HoldsTexts a) →
    ∃ ts, (∀ f, readFrom .row f (doubled (writeEnd (outgoingTokens machine hd columns as))) =
        f.close ++ ts) ∧
      (attributesEqual (c.readColumns columns (ts.map (Option.map String.ofList))) as = true ↔
        ∀ p ∈ columns.zip as, ReadsBackInside p.1 p.2)
  | [], [], _, _, _ => by
      refine ⟨[], fun f => ?_, fun _ p hp => absurd hp List.not_mem_nil, fun _ => rfl⟩
      rw [outgoingTokens_nil, readFrom_doubled_writeEnd_nil, List.append_nil]
  | column :: columns, a :: as, length, textual, holds => by
      obtain ⟨textual, textuals⟩ := List.forall_mem_cons.1 textual
      obtain ⟨first, later⟩ := List.forall_mem_cons.1 holds
      obtain ⟨us, hus, equal⟩ := Codec.readColumns_inside (Nat.succ.inj length) textuals later
      have hr := endsField_doubled_writeEnd (outgoingTokens machine hd columns as)
      refine ⟨_, fun f => by rw [outgoingTokens, readFrom_doubled_writeEnd_cons], ?_⟩
      rw [c.readColumns_cons, attributesEqual_cons, List.zip_cons_cons, List.forall_mem_cons,
        Bool.and_eq_true]
      by_cases back : ReadsBackInside column a
      · -- the field ends where it was written to end, and the rest is read as before
        obtain ⟨token, read, same⟩ := back.readFrom_inside machine hd textual first hr
        rw [read, hus, Field.close_holding, List.singleton_append, List.map_cons, List.head?_cons,
          Option.join_some, List.tail_cons, same, equal]
        exact and_congr_left' (iff_of_true rfl back)
      · -- where the field ends does not matter, as its token is another one already
        have other := first.head?_readFrom_inside machine hd textual hr back
        rw [List.head?_map, Option.join_map_eq_map_join]
        exact iff_of_false (fun h => other h.1) fun h => back h.1

/-- A row in a row is read back if and only if each of its attributes is. -/
theorem Codec.readColumns_doubled (length : as.length = columns.length)
    (textual : ∀ column ∈ columns, c.IsTextual column) (holds : ∀ a ∈ as, HoldsTexts a) :
    attributesEqual (c.readColumns columns
      (scanRow (String.ofList (doubled (writeRow (outgoingTokens machine hd columns as)))))) as =
        true ↔ ∀ p ∈ columns.zip as, ReadsBackInside p.1 p.2 := by
  cases columns with
  | nil =>
      obtain rfl := List.eq_nil_of_length_eq_zero length
      exact ⟨fun _ p hp => absurd hp List.not_mem_nil, fun _ => rfl⟩
  | cons column columns =>
      obtain ⟨a, as, rfl⟩ := List.exists_cons_of_length_eq_add_one length
      obtain ⟨ts, hts, equal⟩ := Codec.readColumns_inside machine hd length textual holds
      have read := hts .start
      rw [outgoingTokens, readFrom_doubled_writeEnd_cons, List.append_cancel_left_eq] at read
      rw [scanRow, scan, String.toList_ofList, outgoingTokens, tokens_doubled_writeRow, read, equal]

end Inside

/-! ### Rows -/

namespace Codec

/-- What stands in a column of a row and is read back: NULL, a leaf in a column of text, a leaf in a
column of json if there is no quote in it, and a row in a column of its type, by its name and the
number of its columns, if all that it holds is read back from there. -/
inductive ReadsBack (c : Codec) (column : Column) : Attribute → Prop where
  | null : ReadsBack c column none
  | text {x : Scalar} {text : String} (type : column.typeId = ColumnType.text.id)
      (content : x.leafText? = some text) : ReadsBack c column (some (.scalar x))
  | json {x : Scalar} {text : String} (type : column.typeId = ColumnType.json.id)
      (content : x.leafText? = some text) (noQuote : '"' ∉ text.toList) :
      ReadsBack c column (some (.scalar x))
  | row {t : RowType} {r : Row} (type : c.nested? (some column) = some t)
      (name : t.name = r.type.name) (length : r.attributes.length = t.columns.length)
      (parts : ∀ p ∈ t.columns.zip r.attributes, ReadsBackInside p.1 p.2) :
      ReadsBack c column (some (.ofRow r))

variable {c : Codec} {column : Column} {a : Attribute} (machine : Zone) (hd : RowHeader)

/-- What is read in a column is equal to the row that was sent out if and only if that is read
back. -/
theorem IsTextual.readColumn_equals_sent_row_iff (textual : c.IsTextual column)
    (inner : ∀ t, c.nested? (some column) = some t → ∀ column ∈ t.columns, c.IsTextual column)
    {r : Row} (made : r.IsMaterialized) (parts : ∀ a ∈ r.attributes, HoldsTexts a) :
    attributeEquals (c.readColumn column (some (String.ofList (doubled (writeRow
      (r.tokens machine)))))) (some (.ofRow r)) = true ↔ c.ReadsBack column (some (.ofRow r)) := by
  -- what the row sends out is written as if its columns were those that it is read with
  have sent {t : RowType} (length : r.attributes.length = t.columns.length) :
      r.tokens machine = outgoingTokens machine r.header t.columns r.attributes :=
    HoldsTexts.outgoingTokens_congr made.length_attributes length parts
  rw [textual.readColumn_equals_row_iff]
  constructor
  · rintro ⟨t, w, type, token, name, same⟩
    obtain rfl := Option.some.inj token
    have length := length_eq_of_attributesEqual same
    rw [readColumns, List.length_mapIdx] at length
    rw [sent length.symm, readColumns_doubled machine r.header length.symm (inner t type) parts]
      at same
    exact .row type name length.symm same
  · intro back
    generalize ha : some (Value.ofRow r) = a at back
    cases back with
    | null | text | json => cases ha
    | @row t r' type name length back =>
        obtain rfl := Value.ofRow_inj.1 (Option.some.inj ha)
        refine ⟨t, _, type, rfl, name, ?_⟩
        rw [sent length]
        exact (readColumns_doubled machine r.header length (inner t type) parts).2 back

/-- What is read in a column is equal to the leaf that was sent out if and only if that is read
back. -/
theorem IsTextual.readColumn_equals_sent_leaf_iff (textual : c.IsTextual column) {x : Scalar}
    {text : String} (content : x.leafText? = some text)
    (made : column.MadeLeaf (some (.scalar x))) :
    attributeEquals (c.readColumn column
      ((outgoing? machine hd column (some (.scalar x))).map String.ofList)) (some (.scalar x)) =
        true ↔ c.ReadsBack column (some (.scalar x)) := by
  rw [textual.readColumn_equals_scalar_iff]
  constructor
  · rintro ⟨w, token, makes⟩
    cases makes with
    | text type => exact .text type content
    | json type =>
        rw [outgoing?_json, Option.map_some, Option.some_inj, ← String.toList_inj,
          String.toList_ofList] at token
        exact .json type rfl (escapeQuotes_eq_self_iff.1 token)
  · intro back
    cases back with
    | text type content =>
        have makes := made x _ rfl content (.inl type)
        refine ⟨_, ?_, makes⟩
        cases makes with
        | text => rw [outgoing?_text, Option.map_some, String.ofList_toList]
        | json type' => exact absurd (type.symm.trans type') (by decide)
    | json type content noQuote =>
        have makes := made x _ rfl content (.inr type)
        refine ⟨_, ?_, makes⟩
        cases makes with
        | text type' => exact absurd (type.symm.trans type') (by decide)
        | json => rw [outgoing?_json, escapeQuotes_eq_self_iff.2 noQuote, Option.map_some,
            String.ofList_toList]

/-- What is read in a column is equal to what stood there if and only if that is read back. -/
theorem IsTextual.readColumn_outgoing? (textual : c.IsTextual column)
    (inner : ∀ t, c.nested? (some column) = some t → ∀ column ∈ t.columns, c.IsTextual column)
    (made : column.MadeLeaf a) (holds : HoldsTexts a) : attributeEquals
    (c.readColumn column ((outgoing? machine hd column a).map String.ofList)) a = true ↔
      c.ReadsBack column a := by
  cases holds with
  | null =>
      rw [outgoing?]
      exact iff_of_true rfl .null
  | leaf content => exact textual.readColumn_equals_sent_leaf_iff machine hd content made
  | row materialized parts =>
      rw [outgoing?_row, Option.map_some]
      exact textual.readColumn_equals_sent_row_iff machine inner materialized parts

theorem readColumns_outgoingTokens : ∀ {columns : List Column} {as : List Attribute},
    as.length = columns.length → (∀ column ∈ columns, c.IsTextual column) →
    (∀ column ∈ columns, ∀ t, c.nested? (some column) = some t →
      ∀ column ∈ t.columns, c.IsTextual column) →
    (∀ p ∈ columns.zip as, p.1.MadeLeaf p.2) → (∀ a ∈ as, HoldsTexts a) →
    (attributesEqual (c.readColumns columns
      ((outgoingTokens machine hd columns as).map (Option.map String.ofList))) as = true ↔
        ∀ p ∈ columns.zip as, c.ReadsBack p.1 p.2)
  | [], [], _, _, _, _, _ => ⟨fun _ p hp => absurd hp List.not_mem_nil, fun _ => rfl⟩
  | column :: columns, a :: as, length, textual, inner, made, holds => by
      obtain ⟨textual, textuals⟩ := List.forall_mem_cons.1 textual
      obtain ⟨inner, inners⟩ := List.forall_mem_cons.1 inner
      rw [List.zip_cons_cons] at made
      obtain ⟨made, rest⟩ := List.forall_mem_cons.1 made
      obtain ⟨first, later⟩ := List.forall_mem_cons.1 holds
      rw [outgoingTokens, List.map_cons, readColumns_cons, attributesEqual_cons, List.zip_cons_cons,
        List.forall_mem_cons, List.head?_cons, Option.join_some, List.tail_cons, Bool.and_eq_true,
        textual.readColumn_outgoing? machine hd inner made first,
        readColumns_outgoingTokens (Nat.succ.inj length) textuals inners rest later]

end Codec

/-- **Reading a rendered row of texts.**  For a row type of text, json and registered row types of
such, however deep: a materialized row that holds texts is equal to the row that is read from its
literal if and only if what stands in each of its columns is read back. -/
theorem Codec.equals_parse_render (c : Codec) (machine : Zone) (r : Row) (made : r.IsMaterialized)
    (columns : ∀ column, c.ReachesColumn r.type column → c.IsTextual column)
    (texts : ∀ a ∈ r.attributes, HoldsTexts a) :
    (c.parse r.type (r.render machine)).value.equals r = true ↔
      ∀ p ∈ r.type.columns.zip r.attributes, c.ReadsBack p.1 p.2 := by
  have length := made.length_attributes
  have textual : ∀ column ∈ r.type.columns, c.IsTextual column := fun column mem =>
    columns column ⟨_, .self, mem⟩
  have inner : ∀ column ∈ r.type.columns, ∀ t, c.nested? (some column) = some t →
      ∀ column ∈ t.columns, c.IsTextual column := fun column mem t type column' mem' =>
    columns column' ⟨t, .step .self mem type, mem'⟩
  rw [c.parse_equals_iff, Row.render,
    ← readColumns_outgoingTokens machine r.header length textual inner made.madeLeaf texts]
  cases hc : r.type.columns with
  | nil => exact and_iff_right rfl
  | cons column columns =>
      rw [hc] at length
      obtain ⟨a, as, ha⟩ := List.exists_cons_of_length_eq_add_one length
      have legible : ∀ cs, some cs ∈ outgoingTokens machine r.header (column :: columns)
          r.attributes → IsLegible cs := HoldsTexts.isLegible_of_mem texts
      have hne : outgoingTokens machine r.header (column :: columns) r.attributes ≠ [] := by
        rw [ha, outgoingTokens]
        exact List.cons_ne_nil _ _
      rw [Row.tokens, hc, scanRow, scan, String.toList_ofList, (tokens_writeRow_iff hne).2 legible]
      exact and_iff_right rfl

/-- A row type of one text. -/
def RowType.named : RowType := ⟨"named", [⟨"name", "text", ColumnType.text.id⟩]⟩

/-- A row type of a text, json and a row of the type before. -/
def RowType.holder : RowType :=
  ⟨"holder", [⟨"label", "text", ColumnType.text.id⟩, ⟨"note", "json", ColumnType.json.id⟩,
    ⟨"item", "named", ColumnType.record.id⟩]⟩

/-- A codec for these two row types. -/
def Codec.ofHolders : Codec := ⟨⟨.builtin, [.named, .holder]⟩, .utc⟩

/-- A row of one name. -/
def Row.named (name : String) : Row := (Session.utc.materialize .named [some (.text name)]).value

/-- A row with a row of one name in it. -/
def Row.holderOf (name : String) : Row :=
  (Session.utc.materialize .holder
    [some (.text "box 1"), some (.text "[1, 2]"), some (.ofRow (.named name))]).value

theorem Row.attributes_named (name : String) :
    (Row.named name).attributes = [some (.scalar (textShape name))] := by
  simp [named, RowType.named, Session.attributes_materialize, Session.resolve_text_of_text]

theorem Row.attributes_holderOf (name : String) : (Row.holderOf name).attributes =
    [some (.scalar (textShape "box 1")), some (.scalar (.object "json" (some "[1, 2]"))),
      some (.ofRow (.named name))] := by
  simp [holderOf, RowType.holder, Session.attributes_materialize, Session.resolve_text_of_text,
    Session.resolve_text_of_json, Session.resolve_of_record]

theorem Codec.isTextual_of_reachesColumn_holder (column : Column)
    (h : Codec.ofHolders.ReachesColumn .holder column) : Codec.ofHolders.IsTextual column := by
  obtain ⟨u, reached, mem⟩ := h
  have reached : u ∈ [RowType.holder, .named] := reached.mem_of_closed (by decide) (by decide)
  rcases List.mem_cons.1 reached with rfl | reached
  · rcases List.mem_cons.1 mem with rfl | mem
    · exact .inl rfl
    rcases List.mem_cons.1 mem with rfl | mem
    · exact .inr (.inl rfl)
    obtain rfl := List.mem_singleton.1 mem
    exact .inr (.inr ⟨.named, by decide⟩)
  · obtain rfl := List.mem_singleton.1 reached
    obtain rfl := List.mem_singleton.1 mem
    exact .inl rfl

theorem Row.holdsTexts_holderOf {name : String} (leaf : IsLeaf name.toList) :
    ∀ a ∈ (Row.holderOf name).attributes, HoldsTexts a := by
  have item : ∀ a ∈ (Row.named name).attributes, HoldsTexts a := by
    rw [attributes_named]
    intro a ha
    obtain rfl := List.mem_singleton.1 ha
    exact .leaf (Scalar.leafText?_textShape name) leaf
  rw [attributes_holderOf]
  intro a ha
  rcases List.mem_cons.1 ha with rfl | ha
  · exact .leaf (Scalar.leafText?_textShape _) (by decide)
  rcases List.mem_cons.1 ha with rfl | ha
  · exact .leaf rfl (by decide)
  obtain rfl := List.mem_singleton.1 ha
  exact .row ⟨_, _, rfl⟩ item

theorem Codec.equals_parse_render_holder :
    (Row.holderOf "dice").IsMaterialized ∧
      (∀ column, Codec.ofHolders.ReachesColumn .holder column →
        Codec.ofHolders.IsTextual column) ∧
      (∀ a ∈ (Row.holderOf "dice").attributes, HoldsTexts a) ∧
      (∀ p ∈ RowType.holder.columns.zip (Row.holderOf "dice").attributes,
        Codec.ofHolders.ReadsBack p.1 p.2) ∧
      (Codec.ofHolders.parse .holder ((Row.holderOf "dice").render 0)).value.equals
        (Row.holderOf "dice") = true := by
  have made : (Row.holderOf "dice").IsMaterialized := ⟨_, _, rfl⟩
  have columns := Codec.isTextual_of_reachesColumn_holder
  have texts := @Row.holdsTexts_holderOf "dice" (by decide)
  have same : (Codec.ofHolders.parse .holder ((Row.holderOf "dice").render 0)).value.equals
      (Row.holderOf "dice") = true := by decide +kernel
  exact ⟨made, columns, texts,
    (Codec.equals_parse_render .ofHolders 0 _ made columns texts).1 same, same⟩

/-- Not every row of texts is read back from its literal: a blank is enough in a row in it. -/
theorem Codec.not_equals_parse_render :
    ¬ ∀ (c : Codec) (machine : Zone) (r : Row), c.registry.get? r.type.name = some r.type →
      (∀ column, c.ReachesColumn r.type column → c.IsTextual column) →
      r.IsMaterialized → (∀ a ∈ r.attributes, HoldsTexts a) →
      (c.parse r.type (r.render machine)).value.equals r = true := by
  intro h
  have same := h .ofHolders 0 (.holderOf "x y") (by decide)
    Codec.isTextual_of_reachesColumn_holder ⟨_, _, rfl⟩
    (Row.holdsTexts_holderOf (by decide))
  exact absurd same (by decide +kernel)

end RowLiteral
