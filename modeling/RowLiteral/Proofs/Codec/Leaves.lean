import RowLiteral.Proofs.Codec.Parse
import RowLiteral.Proofs.Codec.Reach
import RowLiteral.Proofs.Literal.Doubled

/-!
# Codec — rows of leaves

Rows that hold texts, at any depth: what stands in them is NULL, a leaf or a row that was
materialized and holds texts too (`HoldsTexts`).  A leaf is a text, a character or a json object
whose text is not empty, and a blank in it that would end a scan asks for quotes.  Nothing is said
of the columns: a leaf may stand in a column of rows, and a row in a column of another type.  What
an attribute of such a row sends out is legible (`HoldsTexts.isLegible`) and is the same in every
column (`HoldsTexts.outgoing?_congr`).

On the way in, a column of text, of json or of a registered row type (`Codec.IsTextual`) makes of a
token the leaf of the column (`Column.Makes`) or a row of its type, and nothing else.
-/

namespace RowLiteral
open Text Literal

/-- A row that was materialized in some session, kept under a number or not. -/
def Row.IsMaterialized (r : Row) : Prop :=
  ∃ (s : Session) (raw : List Attribute), r.attributes = (s.materialize r.type raw).value.attributes

/-- A materialized row has one attribute for each column. -/
theorem Row.IsMaterialized.length_attributes {r : Row} (h : r.IsMaterialized) :
    r.attributes.length = r.type.columns.length := by
  obtain ⟨s, raw, e⟩ := h
  rw [e, s.attributes_materialize, s.length_attributesFor]

/-- A text that is not empty, and in which each blank that would end a scan asks for quotes. -/
def IsLeaf (cs : List Char) : Prop :=
  cs ≠ [] ∧ ∀ c ∈ cs, isBreaking c = true → needsQuoting c = true

theorem isLeaf_iff_all {cs : List Char} : IsLeaf cs ↔ cs ≠ [] ∧
    cs.all (fun c => !isBreaking c || needsQuoting c) = true := by
  rw [IsLeaf, List.all_eq_true]
  simp only [Bool.or_eq_true, Bool.not_eq_true', ← Bool.not_eq_true, Decidable.imp_iff_not_or]

instance (cs : List Char) : Decidable (IsLeaf cs) := decidable_of_iff _ isLeaf_iff_all.symm

theorem IsLeaf.isLegible {cs : List Char} (h : IsLeaf cs) : IsLegible cs := by
  refine ⟨h.1, ?_⟩
  cases hq : cs.any needsQuoting with
  | true => exact Or.inl rfl
  | false =>
      -- no character asks for quotes, so that none is a blank that ends a scan
      refine Or.inr fun c hc => Bool.eq_false_iff.2 fun hb => ?_
      exact List.any_eq_false.1 hq c hc (h.2 c hc hb)

/-- A leaf stays one with a backslash before each quote. -/
theorem IsLeaf.escapeQuotes {cs : List Char} (h : IsLeaf cs) : IsLeaf (escapeQuotes cs) := by
  obtain ⟨c, hc⟩ := List.exists_mem_of_ne_nil cs h.1
  refine ⟨List.ne_nil_of_mem (mem_escapeQuotes_of_mem hc), fun e he hb => ?_⟩
  by_cases hs : e = '\\'
  · rw [hs]; rfl
  · exact h.2 e (mem_of_mem_escapeQuotes hs he) hb

/-- NULLs and leaves, at any depth. -/
inductive HoldsTexts : Attribute → Prop where
  | null : HoldsTexts none
  | leaf {x : Scalar} {text : String} (content : x.leafText? = some text)
      (leaf : IsLeaf text.toList) : HoldsTexts (some (.scalar x))
  | row {r : Row} (made : r.IsMaterialized) (parts : ∀ a ∈ r.attributes, HoldsTexts a) :
      HoldsTexts (some (.ofRow r))

/-! ### What is sent out -/

section Outgoing

variable {machine : Zone} {h h' : RowHeader} {column column' : Column} {x : Scalar} {text : String}
  {a : Attribute}

theorem Scalar.cases_of_leafText? (content : x.leafText? = some text) :
    x = .text text ∨ x = .char text ∨ x = .object "json" (some text) := by
  cases x with
  | text t => exact .inl (congrArg _ (Option.some.inj content))
  | char t => exact .inr (.inl (congrArg _ (Option.some.inj content)))
  | object label content' =>
      rw [leafText?] at content
      split at content
      · next json => rw [json, content]; exact .inr (.inr rfl)
      · cases content
  | _ => cases content

theorem outgoingTokens_nil (machine : Zone) (h : RowHeader) (as : List Attribute) :
    outgoingTokens machine h [] as = [] := by
  rw [outgoingTokens]
  simp

/-- A token of a row is what one of its attributes sends out. -/
theorem exists_of_mem_outgoingTokens {machine : Zone} {h : RowHeader} {t : Token} :
    ∀ {columns : List Column} {as : List Attribute}, t ∈ outgoingTokens machine h columns as →
      ∃ column, ∃ a ∈ as, t = outgoing? machine h column a
  | [], _, mem | _ :: _, [], mem => by rw [outgoingTokens] at mem <;> simp at *
  | column :: columns, a :: as, mem => by
      rw [outgoingTokens] at mem
      rcases List.mem_cons.1 mem with rfl | mem
      · exact ⟨column, a, List.mem_cons_self, rfl⟩
      · obtain ⟨column, b, hb, e⟩ := exists_of_mem_outgoingTokens mem
        exact ⟨column, b, List.mem_cons_of_mem a hb, e⟩

/-- A row in a row sends out its literal with each quote and each backslash doubled. -/
theorem outgoing?_row (machine : Zone) (h : RowHeader) (column : Column) (r : Row) :
    outgoing? machine h column (some (.ofRow r)) =
      some (doubled (writeRow (r.tokens machine))) := by
  rw [Value.ofRow, outgoing?]
  rfl

theorem outgoing?_text (machine : Zone) (h : RowHeader) (column : Column) (text : String) :
    outgoing? machine h column (some (.scalar (textShape text))) = some text.toList := by
  rw [outgoing?, textShape]
  split <;> rfl

theorem outgoing?_json (machine : Zone) (h : RowHeader) (column : Column) (text : String) :
    outgoing? machine h column (some (.scalar (.object "json" (some text)))) =
      some (escapeQuotes text.toList) := by
  rw [outgoing?]
  rfl

/-- A leaf sends out its text, with a backslash before each quote if it is json. -/
theorem outgoing?_leaf (machine : Zone) (h : RowHeader) (column : Column)
    (content : x.leafText? = some text) : outgoing? machine h column (some (.scalar x)) =
      some (if x = .object "json" (some text) then escapeQuotes text.toList else text.toList) := by
  rw [outgoing?]
  obtain rfl | rfl | rfl := Scalar.cases_of_leafText? content
  · rfl
  · rfl
  · rw [if_pos rfl]
    rfl

theorem any_needsQuoting_doubled_writeRow (ts : List (Option (List Char))) :
    (doubled (writeRow ts)).any needsQuoting = true := rfl

namespace HoldsTexts

/-- What is sent out is legible. -/
theorem isLegible (holds : HoldsTexts a) :
    ∀ cs ∈ outgoing? machine h column a, IsLegible cs := by
  intro cs hcs
  cases holds with
  | null => rw [outgoing?] at hcs; cases hcs
  | @leaf x text content leaf =>
      rw [outgoing?_leaf machine h column content] at hcs
      obtain rfl := Option.some.inj hcs
      split
      · exact leaf.escapeQuotes.isLegible
      · exact leaf.isLegible
  | row =>
      rw [outgoing?_row] at hcs
      refine Option.some.inj hcs ▸ ⟨List.cons_ne_nil _ _, Or.inl ?_⟩
      exact any_needsQuoting_doubled_writeRow _

theorem isLegible_of_mem {columns : List Column} {as : List Attribute}
    (holds : ∀ a ∈ as, HoldsTexts a) :
    ∀ cs, some cs ∈ outgoingTokens machine h columns as → IsLegible cs := by
  intro cs mem
  obtain ⟨column, a, ha, e⟩ := exists_of_mem_outgoingTokens mem
  exact (holds a ha).isLegible cs e.symm

/-- It is the same in every column. -/
theorem outgoing?_congr (holds : HoldsTexts a) :
    outgoing? machine h column a = outgoing? machine h' column' a := by
  cases holds with
  | null => rw [outgoing?, outgoing?]
  | leaf content => rw [outgoing?_leaf machine h column content, outgoing?_leaf _ _ _ content]
  | row => rw [outgoing?_row, outgoing?_row]

/-- What a row sends out does not depend on its columns. -/
theorem outgoingTokens_congr {columns columns' : List Column} {as : List Attribute}
    (length : as.length = columns.length) (length' : as.length = columns'.length)
    (holds : ∀ a ∈ as, HoldsTexts a) :
    outgoingTokens machine h columns as = outgoingTokens machine h' columns' as := by
  induction as generalizing columns columns' with
  | nil => rw [outgoingTokens, outgoingTokens] <;> simp
  | cons a as ih =>
      obtain ⟨column, columns, rfl⟩ := List.exists_cons_of_length_eq_add_one length.symm
      obtain ⟨column', columns', rfl⟩ := List.exists_cons_of_length_eq_add_one length'.symm
      obtain ⟨first, rest⟩ := List.forall_mem_cons.1 holds
      rw [outgoingTokens, outgoingTokens, first.outgoing?_congr,
        ih (Nat.succ.inj length) (Nat.succ.inj length') rest]

end HoldsTexts

end Outgoing

/-! ### What is read -/

/-- A column makes of a text the leaf that is its own kind. -/
inductive Column.Makes (column : Column) : String → Scalar → Prop where
  | text (type : column.typeId = ColumnType.text.id) (text : String) :
      Makes column text (textShape text)
  | json (type : column.typeId = ColumnType.json.id) (text : String) :
      Makes column text (.object "json" (some text))

/-- A leaf in a column of text or of json is the one that the column makes of its text. -/
def Column.MadeLeaf (column : Column) (a : Attribute) : Prop :=
  ∀ x text, a = some (.scalar x) → x.leafText? = some text →
    column.typeId = ColumnType.text.id ∨ column.typeId = ColumnType.json.id → column.Makes text x

/-- It is so in a materialized row. -/
theorem Row.IsMaterialized.madeLeaf {r : Row} (h : r.IsMaterialized) :
    ∀ p ∈ r.type.columns.zip r.attributes, p.1.MadeLeaf p.2 := by
  obtain ⟨s, raw, e⟩ := h
  rw [e, s.attributes_materialize]
  intro p mem x text stands content type
  obtain ⟨a, ha⟩ := s.exists_resolve_of_mem mem
  rw [stands] at ha
  cases a with
  | none => cases ha
  | some v =>
      rcases type with type | type
      · rw [s.resolve_of_text type ha.symm content]
        exact .text type text
      · rw [s.resolve_of_json type ha.symm content]
        exact .json type text

theorem Scalar.equals_eq_decide {x y : Scalar} (other : ∀ d, x ≠ .decimal d) :
    x.equals y = decide (x = y) := by
  unfold equals
  split
  · next d _ => exact absurd rfl (other d)
  · rfl

theorem textShape_ne_decimal (text : String) (d : Decimal) : textShape text ≠ .decimal d := by
  intro e
  rw [textShape] at e
  split at e <;> cases e

namespace Codec

variable (c : Codec) {column : Column}

/-- A column of text, of json or of a registered row type. -/
def IsTextual (column : Column) : Prop :=
  column.typeId = ColumnType.text.id ∨ column.typeId = ColumnType.json.id ∨
    ∃ t, c.nested? (some column) = some t

theorem nested?_of_ne (h : column.typeId ≠ ColumnType.record.id) :
    c.nested? (some column) = none := by
  rw [nested?]
  exact if_neg h

theorem readColumn_text (h : column.typeId = ColumnType.text.id) (token : Option String) :
    c.readColumn column token = token.map fun w => .scalar (textShape w) := by
  rw [readColumn_of_not_nested (c.nested?_of_ne (by rw [h]; decide))]
  cases token with
  | none => rfl
  | some w => exact c.session.resolve_text_of_text h w

theorem readColumn_json (h : column.typeId = ColumnType.json.id) (token : Option String) :
    c.readColumn column token = token.map fun w => .scalar (.object "json" (some w)) := by
  rw [readColumn_of_not_nested (c.nested?_of_ne (by rw [h]; decide))]
  cases token with
  | none => rfl
  | some w => exact c.session.resolve_text_of_json h w

/-- A row that is read from a literal is equal to a row if and only if their types have one name and
the attributes that are read are equal. -/
theorem parse_equals_iff (t : RowType) (r : Row) (literal : String) :
    (c.parse t literal).value.equals r = true ↔ t.name = r.type.name ∧
      attributesEqual (c.readColumns t.columns (scanRow literal)) r.attributes = true := by
  rw [Row.equals, Value.ofRow, Value.ofRow, Value.equals, c.attributes_parse, c.header_parse,
    RowHeader.isSameKept]
  exact Bool.and_eq_true_iff.trans (and_congr_left' decide_eq_true_iff)

variable {c}

/-- **What is read in a column is equal to a scalar** if and only if the column makes it of the
token. -/
theorem IsTextual.readColumn_equals_scalar_iff (h : c.IsTextual column) (token : Option String)
    (x : Scalar) : attributeEquals (c.readColumn column token) (some (.scalar x)) = true ↔
      ∃ w, token = some w ∧ column.Makes w x := by
  rcases h with type | type | ⟨t, type⟩
  · have made (w : String) : column.Makes w x ↔ textShape w = x := by
      constructor
      · rintro (_ | type')
        · rfl
        · exact absurd (type.symm.trans type') (by decide)
      · rintro rfl
        exact .text type w
    rw [c.readColumn_text type]
    cases token with
    | none => simp [attributeEquals]
    | some w =>
        simp [attributeEquals, Value.equals, Scalar.equals_eq_decide (textShape_ne_decimal w), made]
  · have made (w : String) : column.Makes w x ↔ .object "json" (some w) = x := by
      constructor
      · rintro (type' | _)
        · exact absurd (type.symm.trans type') (by decide)
        · rfl
      · rintro rfl
        exact .json type w
    rw [c.readColumn_json type]
    cases token with
    | none => simp [attributeEquals]
    | some w => simp [attributeEquals, Value.equals, Scalar.equals_eq_decide, made]
  · have unmade (w : String) : ¬ column.Makes w x := by
      rintro (type' | type') <;>
        exact absurd ((typeId_of_nested? type).symm.trans type') (by decide)
    rw [readColumn_of_nested? type]
    cases token <;> simp [attributeEquals, Value.ofRow, Value.equals, unmade]

/-- **What is read in a column is equal to a row** if and only if the token is read there as an
equal one. -/
theorem IsTextual.readColumn_equals_row_iff (h : c.IsTextual column) (token : Option String)
    (r : Row) : attributeEquals (c.readColumn column token) (some (.ofRow r)) = true ↔
      ∃ t w, c.nested? (some column) = some t ∧ token = some w ∧ t.name = r.type.name ∧
        attributesEqual (c.readColumns t.columns (scanRow w)) r.attributes = true := by
  rcases h with type | type | ⟨t, type⟩
  · rw [c.readColumn_text type, c.nested?_of_ne (by rw [type]; decide)]
    cases token <;> simp [attributeEquals, Value.ofRow, Value.equals]
  · rw [c.readColumn_json type, c.nested?_of_ne (by rw [type]; decide)]
    cases token <;> simp [attributeEquals, Value.ofRow, Value.equals]
  · rw [readColumn_of_nested? type]
    cases token with
    | none => simp [attributeEquals]
    | some w =>
        simp only [type, Option.map_some, Option.some.injEq, exists_and_left, exists_eq_left']
        exact c.parse_equals_iff t r w

/-- Where nothing is read, only NULLs are equal to what is read. -/
theorem eq_none_of_readColumns_nil : ∀ {columns : List Column} {as : List Attribute},
    attributesEqual (c.readColumns columns []) as = true → ∀ a ∈ as, a = none
  | [], [], _ => fun _ h => absurd h List.not_mem_nil
  | [], a :: as, h => by cases a <;> cases h
  | column :: columns, [], h => by
      rw [readColumns_cons] at h
      cases h
  | column :: columns, a :: as, h => by
      rw [readColumns_cons, List.head?_nil, Option.join_none, readColumn_none, List.tail_nil] at h
      cases a with
      | none => exact List.forall_mem_cons.2 ⟨rfl, eq_none_of_readColumns_nil h⟩
      | some v => cases h

end Codec

end RowLiteral
