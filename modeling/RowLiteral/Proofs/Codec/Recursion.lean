import RowLiteral.Proofs.Codec.Parse
import RowLiteral.Proofs.Row.Texts

/-!
# Codec — rows within rows

The types of columns may name each other in a circle, so that nothing in a registry says how deep a
literal is read.  `Codec.Reads` is the reading of a literal as a relation, one rule for each thing
that a token can stand for: NULL, a text, or a row that is read from it in turn.  A derivation is a
finite tree of literals, and it counts the tokens that are scanned in all of them.

* `Codec.exists_reads`: every literal can be read, whatever the registry.
* `Codec.Reads.eq_parse`: what is read is the row that `Codec.parse` gives, and no more tokens are
  scanned than the literal has characters.  A token takes at least one character besides its own
  text, which is the measure that the recursion goes down by.
* `Codec.wellShaped_parse`: the row has an attribute for each column, and in a column of a
  registered row type NULL where there is no token, and a row of that type, of the same shape, where
  there is.
-/

namespace RowLiteral
open Text Literal

theorem Value.ofRow_inj {r s : Row} : Value.ofRow r = .ofRow s ↔ r = s := by
  obtain ⟨h, as⟩ := r
  obtain ⟨h', bs⟩ := s
  simp [Value.ofRow]

/-! ### The weight of tokens -/

/-- The characters of tokens, and for each token the delimiter that ended it. -/
def textsWeight (tokens : List (Option String)) : Nat :=
  tokensWeight (tokens.map (Option.map String.toList))

theorem textsWeight_none (tokens : List (Option String)) :
    textsWeight (none :: tokens) = 1 + textsWeight tokens := by
  simp [textsWeight, tokensWeight]

theorem textsWeight_some (text : String) (tokens : List (Option String)) :
    textsWeight (some text :: tokens) = text.length + 1 + textsWeight tokens := by
  simp [textsWeight, tokensWeight, String.length_toList]

theorem Literal.map_toList_scan (d : Delimiters) (text : String) :
    (scan d text).map (Option.map String.toList) = tokens d text.toList := by
  rw [scan, List.map_map]
  refine (List.map_congr_left fun token _ => ?_).trans (List.map_id _)
  cases token <;> simp

/-- The tokens of a literal take up no more than the literal. -/
theorem textsWeight_scanRow_le (literal : String) :
    textsWeight (scanRow literal) ≤ literal.length := by
  rw [textsWeight, scanRow, map_toList_scan, ← String.length_toList]
  exact tokensWeight_tokens_le .row literal.toList

namespace Codec

variable {c : Codec}

/-! ### Reading as a relation -/

mutual
/-- A literal is read as a row of a type, and so many tokens are scanned, in it and in the literals
within it. -/
inductive Reads (c : Codec) : RowType → String → Row → Nat → Prop where
  | row {t : RowType} {literal : String} {raw : List Attribute} {n : Nat}
      (parts : ReadsTokens c t.columns (scanRow literal) raw n) :
      Reads c t literal (c.session.materialize t raw).value ((scanRow literal).length + n)

/-- Tokens are read in columns as raw attributes, and so many tokens are scanned in the literals
within them. -/
inductive ReadsTokens (c : Codec) :
    List Column → List (Option String) → List Attribute → Nat → Prop where
  | nil (columns : List Column) : ReadsTokens c columns [] [] 0
  | null {columns : List Column} {tokens : List (Option String)} {raw : List Attribute} {n : Nat}
      (rest : ReadsTokens c columns.tail tokens raw n) :
      ReadsTokens c columns (none :: tokens) (none :: raw) n
  | text {columns : List Column} {text : String} {tokens : List (Option String)}
      {raw : List Attribute} {n : Nat} (plain : c.nested? columns.head? = none)
      (rest : ReadsTokens c columns.tail tokens raw n) :
      ReadsTokens c columns (some text :: tokens) (some (.text text) :: raw) n
  | nested {columns : List Column} {t : RowType} {text : String} {r : Row} {m : Nat}
      {tokens : List (Option String)} {raw : List Attribute} {n : Nat}
      (type : c.nested? columns.head? = some t) (inner : Reads c t text r m)
      (rest : ReadsTokens c columns.tail tokens raw n) :
      ReadsTokens c columns (some text :: tokens) (some (.ofRow r) :: raw) (m + n)
end

theorem rawValues_cons (columns : List Column) (token : Option String)
    (tokens : List (Option String)) : c.rawValues columns (token :: tokens) =
      token.map (c.rawValue columns.head?) :: c.rawValues columns.tail tokens := by
  rw [rawValues, List.mapIdx_cons, List.head?_eq_getElem?, rawValues]
  simp only [List.getElem?_tail]

/-- Tokens can be read if the literals within them can. -/
theorem exists_readsTokens {columns : List Column} {tokens : List (Option String)}
    (inner : ∀ text, some text ∈ tokens → ∀ t, ∃ n, c.Reads t text (c.parse t text).value n) :
    ∃ n, c.ReadsTokens columns tokens (c.rawValues columns tokens) n := by
  induction tokens generalizing columns with
  | nil => exact ⟨0, .nil columns⟩
  | cons token tokens ih =>
      obtain ⟨n, rest⟩ := @ih columns.tail fun text h => inner text (List.mem_cons_of_mem _ h)
      rw [rawValues_cons]
      cases token with
      | none => exact ⟨n, .null rest⟩
      | some text =>
          rw [Option.map_some, rawValue]
          cases type : c.nested? columns.head? with
          | none => exact ⟨n, .text type rest⟩
          | some t =>
              obtain ⟨m, row⟩ := inner text List.mem_cons_self t
              exact ⟨m + n, .nested type row rest⟩

/-- **Every literal can be read.** -/
theorem exists_reads (t : RowType) (literal : String) :
    ∃ n, c.Reads t literal (c.parse t literal).value n := by
  have inner : ∀ text, some text ∈ scanRow literal →
      ∀ t, ∃ n, c.Reads t text (c.parse t text).value n := by
    intro text h t
    have shorter : text.length < literal.length := length_lt_of_mem_scan h
    exact exists_reads t text
  obtain ⟨n, parts⟩ := @exists_readsTokens c t.columns _ inner
  rw [value_parse]
  exact ⟨_, .row parts⟩
termination_by literal.length

/-- What tokens are read as, and a bound on the tokens scanned within them. -/
theorem ReadsTokens.eq_rawValues {columns : List Column} {tokens : List (Option String)}
    {raw : List Attribute} {n : Nat} (h : c.ReadsTokens columns tokens raw n)
    (inner : ∀ text, some text ∈ tokens → ∀ t r m, c.Reads t text r m →
      r = (c.parse t text).value ∧ m ≤ text.length) :
    raw = c.rawValues columns tokens ∧ tokens.length + n ≤ textsWeight tokens := by
  induction tokens generalizing columns raw n with
  | nil =>
      cases h with
      | nil => exact ⟨rfl, Nat.le_refl 0⟩
  | cons token tokens ih =>
      have later : ∀ text, some text ∈ tokens → ∀ t r m, c.Reads t text r m →
        r = (c.parse t text).value ∧ m ≤ text.length := fun text h =>
          inner text (List.mem_cons_of_mem _ h)
      rw [rawValues_cons, List.length_cons]
      cases h with
      | null rest =>
          obtain ⟨rfl, bound⟩ := ih rest later
          rw [textsWeight_none]
          exact ⟨rfl, by omega⟩
      | text plain rest =>
          obtain ⟨rfl, bound⟩ := ih rest later
          rw [textsWeight_some, Option.map_some, rawValue, plain]
          exact ⟨rfl, by omega⟩
      | nested type row rest =>
          obtain ⟨rfl, bound⟩ := ih rest later
          obtain ⟨rfl, within⟩ := inner _ List.mem_cons_self _ _ _ row
          rw [textsWeight_some, Option.map_some, rawValue, type]
          exact ⟨rfl, by omega⟩

/-- **What is read, and how many tokens are scanned** over the whole recursion. -/
theorem Reads.eq_parse {t : RowType} {literal : String} {r : Row} {n : Nat}
    (h : c.Reads t literal r n) : r = (c.parse t literal).value ∧ n ≤ literal.length := by
  cases h with
  | row parts =>
      have inner : ∀ text, some text ∈ scanRow literal → ∀ t r m, c.Reads t text r m →
          r = (c.parse t text).value ∧ m ≤ text.length := by
        intro text mem t r m h
        have shorter : text.length < literal.length := length_lt_of_mem_scan mem
        exact h.eq_parse
      obtain ⟨rfl, bound⟩ := parts.eq_rawValues inner
      rw [value_parse]
      exact ⟨rfl, Nat.le_trans bound (textsWeight_scanRow_le literal)⟩
termination_by literal.length

/-! ### Shape -/

/-- A row has the shape that a literal gives it, at every depth: it is of the type, with an
attribute for each column; and what stands in a column of a registered row type is NULL if and only
if the token is NULL or missing, and else a row of that type that has the shape which the token
gives it. -/
inductive WellShaped (c : Codec) : RowType → String → Row → Prop where
  | intro {t : RowType} {literal : String} {r : Row} (type : r.type = t)
      (length : r.attributes.length = t.columns.length)
      (null : ∀ (i : Nat) (t' : RowType), c.nested? t.columns[i]? = some t' →
        (r.attributes[i]? = some none ↔ (scanRow literal)[i]?.join = none))
      (row : ∀ (i : Nat) (t' : RowType) (v : Value), c.nested? t.columns[i]? = some t' →
        r.attributes[i]? = some (some v) → ∃ r', v = .ofRow r')
      (inner : ∀ (i : Nat) (t' : RowType) (r' : Row) (text : String),
        c.nested? t.columns[i]? = some t' → r.attributes[i]? = some (some (.ofRow r')) →
        (scanRow literal)[i]?.join = some text → WellShaped c t' text r') :
      WellShaped c t literal r

/-- What stands in a column of a registered row type. -/
theorem getElem?_attributes_of_nested? {t t' : RowType} {i : Nat} (literal : String)
    (h : c.nested? t.columns[i]? = some t') : (c.parse t literal).value.attributes[i]? =
      some ((scanRow literal)[i]?.join.map fun text => .ofRow (c.parse t' text).value) := by
  rw [attributes_parse, readColumns, List.getElem?_mapIdx]
  cases hc : t.columns[i]? with
  | none =>
      rw [hc] at h
      cases h
  | some column =>
      rw [hc] at h
      rw [Option.map_some, readColumn_of_nested? h]

/-- **What is read is well shaped**, however deep. -/
theorem wellShaped_parse (t : RowType) (literal : String) :
    c.WellShaped t literal (c.parse t literal).value := by
  have type : (c.parse t literal).value.type = t := by
    rw [Row.type, header_parse]
    rfl
  refine .intro type (c.length_attributes_parse t literal) (fun i t' h => ?_)
    (fun i t' v h stands => ?_) (fun i t' r text h stands token => ?_)
  · rw [getElem?_attributes_of_nested? literal h]
    simp
  · rw [getElem?_attributes_of_nested? literal h] at stands
    obtain ⟨text, -, rfl⟩ := Option.map_eq_some_iff.1 (Option.some.inj stands)
    exact ⟨_, rfl⟩
  · rw [getElem?_attributes_of_nested? literal h, token] at stands
    obtain rfl := Value.ofRow_inj.1 (Option.some.inj (Option.some.inj stands))
    have mem : some text ∈ scanRow literal := List.mem_of_getElem? (Option.join_eq_some_iff.1 token)
    have shorter : text.length < literal.length := length_lt_of_mem_scan mem
    exact wellShaped_parse t' text
termination_by literal.length

/-- **Reading ends and gives a row of the right shape.**  For every codec, however the types in its
registry name each other, every registered type and every literal, however malformed: the type is
found, the literal can be read, it is read as one row only, and no more tokens are scanned in it and
in the literals within it than it has characters; and the row is well shaped at every depth. -/
theorem parse_reads_wellShaped (c : Codec) (name : String) (t : RowType)
    (registered : c.registry.get? name = some t) (literal : String) :
    c.rowType name = .ok t ∧
      (∃ n, c.Reads t literal (c.parse t literal).value n) ∧
      (∀ r n, c.Reads t literal r n → r = (c.parse t literal).value ∧ n ≤ literal.length) ∧
      c.WellShaped t literal (c.parse t literal).value := by
  refine ⟨?_, exists_reads t literal, fun r n h => h.eq_parse, wellShaped_parse t literal⟩
  rw [rowType, registered]

/-- A row type with a column of that type itself. -/
def node : RowType :=
  ⟨"node", [⟨"label", "text", ColumnType.text.id⟩, ⟨"next", "node", ColumnType.record.id⟩]⟩

/-- A codec for this row type. -/
def ofNodes : Codec := ⟨⟨.builtin, [node]⟩, .utc⟩

/-- A node. -/
def nodeOf (label : String) (next : Attribute) : Row :=
  ⟨ofNodes.session.header node, [some (.scalar (textShape label)), next]⟩

theorem materialize_node (label : String) (next : Attribute) :
    (ofNodes.session.materialize node [some (.text label), next]).value = nodeOf label next := by
  have attributes := ofNodes.session.attributes_materialize node [some (.text label), next]
  rw [node, Session.attributesFor_cons, Session.attributesFor_cons, Session.attributesFor_nil,
    List.head?_cons, Option.join_some, Session.resolve_text_of_text _ rfl] at attributes
  refine congrArg (Row.mk _) (attributes.trans ?_)
  cases next with
  | none => rfl
  | some v => exact congrArg (fun a => [_, a]) (Session.resolve_of_record _ rfl v)

/-- A literal of a label and of nothing is read as a last node. -/
theorem Reads.last_node {literal label : String} (tokens : scanRow literal = [some label, none]) :
    ofNodes.Reads node literal (nodeOf label none) 2 := by
  have parts : ofNodes.ReadsTokens node.columns [some label, none] _ 0 :=
    .text (by decide) (.null (.nil _))
  rw [← tokens] at parts
  have reads := Reads.row parts
  rwa [materialize_node, tokens] at reads

/-- A literal of a label and of the literal of a node is read as a node before that. -/
theorem Reads.node_before {literal label text : String} {next : Row} {n : Nat}
    (tokens : scanRow literal = [some label, some text]) (inner : ofNodes.Reads node text next n) :
    ofNodes.Reads node literal (nodeOf label (some (.ofRow next))) (2 + n) := by
  have parts : ofNodes.ReadsTokens node.columns [some label, some text] _ (n + 0) :=
    .text (by decide) (.nested (by decide) inner (.nil _))
  rw [← tokens] at parts
  have reads := Reads.row parts
  rwa [materialize_node, tokens] at reads

/-- A node before a node before a node. -/
def chain : String := "(a,\"(b,\"\"(c,)\"\")\")"

theorem parse_reads_wellShaped_node :
    ofNodes.registry.get? "node" = some node ∧
      scanRow chain = [some "a", some "(b,\"(c,)\")"] ∧
      scanRow "(b,\"(c,)\")" = [some "b", some "(c,)"] ∧ scanRow "(c,)" = [some "c", none] ∧
      (ofNodes.parse node chain).value =
        nodeOf "a" (some (.ofRow (nodeOf "b" (some (.ofRow (nodeOf "c" none)))))) ∧
      ofNodes.Reads node chain (ofNodes.parse node chain).value 6 ∧ 6 ≤ chain.length ∧
      ofNodes.WellShaped node chain (ofNodes.parse node chain).value := by
  have registered : ofNodes.registry.get? "node" = some node := by decide
  have first : scanRow chain = [some "a", some "(b,\"(c,)\")"] := by decide +kernel
  have second : scanRow "(b,\"(c,)\")" = [some "b", some "(c,)"] := by decide +kernel
  have third : scanRow "(c,)" = [some "c", none] := by decide +kernel
  have reads := Reads.node_before first (.node_before second (.last_node third))
  obtain ⟨-, -, only, shape⟩ := parse_reads_wellShaped ofNodes "node" node registered chain
  obtain ⟨row, bound⟩ := only _ _ reads
  exact ⟨registered, first, second, third, row.symm, row ▸ reads, bound, shape⟩

end Codec

end RowLiteral
