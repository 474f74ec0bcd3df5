import RowLiteral.Proofs.Literal.Written

/-!
# Literal — the grammar of fields

A literal is an opening bracket, *regions* with commas between them, a closing bracket, and any text
after that.  A region is made of *parts*: characters that stand bare, and segments between quotes.
In a segment a quote is written twice or with a backslash before it, and a backslash takes the
character after it as it is.  Two segments do not stand next to each other, as the quotes between
them would be read as one written twice.

The token of a region (`Region.token`) is said without the scan: nothing for the empty region, and
else the text of the last segment, if there is one, and the bare text after it.

* `RegionPart.readFrom_parts`: what the parts of a region make of what was collected.
* `Region.readFrom_written`: a region is read as its token.
* `scan_literal`: the scan of a literal gives the tokens of its regions, in order.
-/

namespace RowLiteral.Literal
open RowLiteral.Text

/-! ### Brackets -/

/-- Two single units that open and close a literal.  They differ from each other, and neither is a
quote or a comma. -/
structure Brackets where
  opening : Char
  closing : Char
  opening_unit : opening.toNat < 0x10000 := by decide
  closing_unit : closing.toNat < 0x10000 := by decide
  distinct : opening ≠ closing := by decide
  opening_ne_quote : opening ≠ '"' := by decide
  opening_ne_comma : opening ≠ ',' := by decide
  closing_ne_quote : closing ≠ '"' := by decide
  closing_ne_comma : closing ≠ ',' := by decide

namespace Brackets

variable (b : Brackets)

/-- The delimiters that the two brackets spell. -/
def delimiters : Delimiters := .ofTexts (String.singleton b.opening) (String.singleton b.closing)

/-- A character that stands for itself outside quotes. -/
def IsBare (c : Char) : Prop :=
  c ≠ b.opening ∧ c ≠ b.closing ∧ c ≠ ',' ∧ c ≠ '"' ∧ isBreaking c = false

instance (c : Char) : Decidable (b.IsBare c) := inferInstanceAs (Decidable (_ ∧ _))

theorem delimiters_eq : b.delimiters = ⟨some b.opening, some b.closing⟩ := by
  simp [delimiters, Delimiters.ofTexts, singleUnit?, b.opening_unit, b.closing_unit]

theorem piece?_opening : b.delimiters.piece? b.opening = some .opening := by
  simp [delimiters_eq, Delimiters.piece?]

theorem piece?_closing : b.delimiters.piece? b.closing = some .closing := by
  simp [delimiters_eq, Delimiters.piece?, b.distinct]

theorem piece?_quote : b.delimiters.piece? '"' = none := by
  simp [delimiters_eq, Delimiters.piece?, b.opening_ne_quote, b.closing_ne_quote]

theorem piece?_comma : b.delimiters.piece? ',' = some .comma := by
  simp [delimiters_eq, Delimiters.piece?, b.opening_ne_comma, b.closing_ne_comma]

theorem piece?_bare {c : Char} (h : b.IsBare c) : b.delimiters.piece? c = some (.bare c) := by
  obtain ⟨ho, hc, hm, hq, hb⟩ := h
  simp [delimiters_eq, Delimiters.piece?, Ne.symm ho, Ne.symm hc, hm, hq, hb]

end Brackets

/-! ### Quoted segments -/

/-- What a segment between quotes is made of. -/
inductive QuotedItem where
  /-- A character other than the quote and the backslash, as it is. -/
  | plain (c : Char) (single : c ≠ '"' ∧ c ≠ '\\')
  /-- A quote, written twice. -/
  | quote
  /-- Any character, with a backslash before it. -/
  | escaped (c : Char)

namespace QuotedItem

/-- An item as it is written. -/
def written : QuotedItem → List Char
  | .plain c _ => [c]
  | .quote => ['"', '"']
  | .escaped c => ['\\', c]

/-- The character that an item stands for. -/
def char : QuotedItem → Char
  | .plain c _ | .escaped c => c
  | .quote => '"'

end QuotedItem

/-- **A segment is read item by item**, up to a quote that no quote follows. -/
theorem readQuoted_items (items : List QuotedItem) {rest : List Char} (h : rest.head? ≠ some '"') :
    readQuoted (items.flatMap QuotedItem.written ++ '"' :: rest) =
      (items.map QuotedItem.char, some rest) := by
  induction items with
  | nil => exact readQuoted_close h
  | cons item items ih =>
      rw [List.flatMap_cons, List.append_assoc, List.map_cons]
      cases item with
      | plain c single =>
          simp only [QuotedItem.written, List.singleton_append]
          rw [readQuoted_cons single.1 single.2, ih, QuotedItem.char]
      | quote => simp [QuotedItem.written, QuotedItem.char, readQuoted, ih]
      | escaped c => simp [QuotedItem.written, QuotedItem.char, readQuoted, ih]

/-! ### Parts of regions -/

/-- A part of a region: a bare character, or a segment between quotes. -/
inductive RegionPart (b : Brackets) where
  | bare (c : Char) (isBare : b.IsBare c)
  | segment (items : List QuotedItem)

variable {b : Brackets}

namespace RegionPart

/-- A part as it is written. -/
def written : RegionPart b → List Char
  | .bare c _ => [c]
  | .segment items => '"' :: (items.flatMap QuotedItem.written ++ ['"'])

/-- The text of a segment. -/
def segmentText? : RegionPart b → Option (List Char)
  | .bare _ _ => none
  | .segment items => some (items.map QuotedItem.char)

/-- The text of the last segment. -/
def lastSegment? (ps : List (RegionPart b)) : Option (List Char) :=
  (ps.filterMap segmentText?).getLast?

/-- The bare text after the last segment, and all of it where there is none. -/
def bareText : List (RegionPart b) → List Char
  | [] => []
  | .bare c _ :: ps => if (lastSegment? ps).isSome then bareText ps else c :: bareText ps
  | .segment _ :: ps => bareText ps

/-- No two segments stand next to each other. -/
def Apart : List (RegionPart b) → Prop
  | [] => True
  | .segment _ :: .segment _ :: _ => False
  | _ :: ps => Apart ps

theorem Apart.tail {p : RegionPart b} {ps : List (RegionPart b)} (h : Apart (p :: ps)) :
    Apart ps := by
  match p, ps with
  | .bare _ _, _ | .segment _, .bare _ _ :: _ => exact h
  | .segment _, [] => trivial
  | .segment _, .segment _ :: _ => exact h.elim

/-- No quote follows the quote that closes a segment. -/
theorem Apart.head?_ne {items : List QuotedItem} {ps : List (RegionPart b)} {rest : List Char}
    (h : Apart (.segment items :: ps)) (hr : rest.head? ≠ some '"') :
    (ps.flatMap written ++ rest).head? ≠ some '"' := by
  match ps with
  | [] => exact hr
  | .bare c isBare :: _ =>
      obtain ⟨-, -, -, hq, -⟩ := isBare
      intro e
      exact hq (Option.some.inj e)
  | .segment _ :: _ => exact h.elim

/-! ### Reading parts -/

/-- What is collected after a part, where `cs` was collected before it. -/
def after (cs : List Char) : RegionPart b → List Char
  | .bare c _ => cs ++ [c]
  | .segment items => items.map QuotedItem.char

/-- What is collected after parts, where `cs` was collected before them: a segment takes the place
of all that stands before it. -/
def textFrom (cs : List Char) (ps : List (RegionPart b)) : List Char :=
  (lastSegment? ps).getD cs ++ bareText ps

theorem lastSegment?_cons (p : RegionPart b) (ps : List (RegionPart b)) :
    lastSegment? (p :: ps) = (lastSegment? ps).or p.segmentText? := by
  cases p with
  | bare c isBare => simp [lastSegment?, segmentText?]
  | segment items =>
      have e : (RegionPart.segment items :: ps).filterMap segmentText? =
        items.map QuotedItem.char :: ps.filterMap segmentText? := List.filterMap_cons_some rfl
      rw [lastSegment?, e, List.getLast?_cons, lastSegment?]
      cases (ps.filterMap segmentText?).getLast? <;> rfl

/-- The parts after the first one go on with what it left. -/
theorem textFrom_cons (cs : List Char) (p : RegionPart b) (ps : List (RegionPart b)) :
    textFrom cs (p :: ps) = textFrom (p.after cs) ps := by
  rw [textFrom, textFrom, lastSegment?_cons]
  cases p with
  | bare c isBare =>
      rw [bareText]
      cases h : lastSegment? ps with
      | none => simp [segmentText?, after]
      | some text => simp
  | segment items => cases h : lastSegment? ps <;> simp [segmentText?, after, bareText]

/-- **One part is read.**  A bare character adds to what was collected, and a segment takes its
place. -/
theorem readFrom_part {f : Field} {p : RegionPart b} {ps : List (RegionPart b)} {rest : List Char}
    (apart : Apart (p :: ps)) (hr : rest.head? ≠ some '"') :
    readFrom b.delimiters f (p.written ++ (ps.flatMap written ++ rest)) =
      readFrom b.delimiters (.replace (p.after (f.collected.getD [])))
        (ps.flatMap written ++ rest) := by
  cases p with
  | bare c isBare => exact readFrom_bare (b.piece?_bare isBare)
  | segment items =>
      have closed := readQuoted_items items (apart.head?_ne hr)
      rw [written, List.cons_append, List.append_assoc, List.singleton_append,
        readFrom_quote b.piece?_quote, closed]
      rfl

/-- **Parts are read** one after the other. -/
theorem readFrom_parts {ps : List (RegionPart b)} {rest : List Char} (apart : Apart ps)
    (hr : rest.head? ≠ some '"') (cs : List Char) :
    readFrom b.delimiters (.replace cs) (ps.flatMap written ++ rest) =
      readFrom b.delimiters (.replace (textFrom cs ps)) rest := by
  induction ps generalizing cs with
  | nil => simp [textFrom, lastSegment?, bareText]
  | cons p ps ih =>
      rw [List.flatMap_cons, List.append_assoc, readFrom_part apart hr, textFrom_cons]
      exact ih apart.tail _

end RegionPart

/-! ### Regions -/

/-- What stands for a field in a literal: parts, and no two segments next to each other. -/
structure Region (b : Brackets) where
  parts : List (RegionPart b)
  apart : RegionPart.Apart parts

namespace Region

/-- A region as it is written. -/
def written (r : Region b) : List Char := r.parts.flatMap RegionPart.written

/-- The token of a region: nothing for the empty region, the bare text where there is no segment,
and the text of the last segment with the bare text after it where there is one. -/
def token (r : Region b) : Token :=
  if r.parts = [] then none
  else some ((RegionPart.lastSegment? r.parts).getD [] ++ RegionPart.bareText r.parts)

/-- **A region is read as its token.** -/
theorem readFrom_written (r : Region b) {rest : List Char} (hr : rest.head? ≠ some '"') :
    readFrom b.delimiters .start (r.written ++ rest) =
      readFrom b.delimiters (.holding r.token) rest := by
  obtain ⟨parts, apart⟩ := r
  cases parts with
  | nil => rfl
  | cons p ps =>
      rw [written, List.flatMap_cons, List.append_assoc, RegionPart.readFrom_part apart hr,
        RegionPart.readFrom_parts apart.tail hr, ← RegionPart.textFrom_cons]
      rfl

end Region

/-! ### Literals -/

/-- A literal with regions, and what is written after it. -/
def Brackets.literal (b : Brackets) (regions : List (Region b)) (trailing : String) : String :=
  String.ofList (b.opening :: (List.intercalate [','] (regions.map Region.written) ++
    b.closing :: trailing.toList))

/-- After the opening bracket each region is read up to the delimiter that ends it. -/
theorem readFrom_regions (r : Region b) (rs : List (Region b)) (trailing : List Char) :
    readFrom b.delimiters .start (List.intercalate [','] ((r :: rs).map Region.written) ++
      b.closing :: trailing) = (r :: rs).map Region.token := by
  induction rs generalizing r with
  | nil =>
      have hr : (b.closing :: trailing).head? ≠ some '"' := by simp [b.closing_ne_quote]
      rw [List.map_singleton, List.intercalate_singleton, r.readFrom_written hr,
        readFrom_closing b.piece?_closing, Field.close_holding, List.map_singleton]
  | cons r' rs ih =>
      have hr : ∀ cs : List Char, (',' :: cs).head? ≠ some '"' := by simp
      rw [List.map_cons, List.map_cons, List.intercalate_cons_cons, ← List.map_cons,
        List.append_assoc, List.append_assoc, List.singleton_append, r.readFrom_written (hr _),
        readFrom_comma b.piece?_comma, Field.close_holding, ih]
      rfl

/-- **The scan reads the grammar of fields.**  For any two brackets, any regions, of which there is
at least one, and any text after the closing bracket, the scan gives the tokens of the regions, one
for each and in their order. -/
theorem scan_literal (b : Brackets) (regions : List (Region b)) (nonempty : regions ≠ [])
    (trailing : String) : scan b.delimiters (b.literal regions trailing) =
      regions.map fun r => r.token.map String.ofList := by
  obtain ⟨r, rs, rfl⟩ := List.exists_cons_of_ne_nil nonempty
  have opened : tokens b.delimiters (b.literal (r :: rs) trailing).toList =
      (r :: rs).map Region.token := by
    rw [Brackets.literal, String.toList_ofList, ← readFrom_regions r rs trailing.toList]
    exact readFrom_opening (f := .start) b.piece?_opening
  rw [scan, opened, List.map_map]
  rfl

/-- The brackets of a row. -/
def Brackets.round : Brackets := { opening := '(', closing := ')' }

/-- The regions of `a"b""c"d`, of nothing and of `"\)"`. -/
def Region.specimens : List (Region .round) :=
  [⟨[.bare 'a' (by decide),
      .segment [.plain 'b' (by decide), .quote, .plain 'c' (by decide)],
      .bare 'd' (by decide)], trivial⟩,
    ⟨[], trivial⟩,
    ⟨[.segment [.escaped ')']], trivial⟩]

theorem scan_literal_specimens :
    Region.specimens ≠ [] ∧
      Brackets.round.literal Region.specimens ", (rest" = "(a\"b\"\"c\"d,,\"\\)\"), (rest" ∧
      scan Brackets.round.delimiters (Brackets.round.literal Region.specimens ", (rest") =
        [some "b\"cd", none, some ")"] := by
  have nonempty : Region.specimens ≠ [] := List.cons_ne_nil _ _
  exact ⟨nonempty, by decide +kernel, scan_literal .round Region.specimens nonempty ", (rest"⟩

end RowLiteral.Literal
