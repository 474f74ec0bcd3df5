import Mathlib.Data.List.DropRight
import RowLiteral.Proofs.Literal.Written

/-!
# Literal — a scan on its way

A scan passes over a text piece by piece.  On its way it is at a *cursor*: the text that is left and
the index at which it starts, the index of the last delimiter, what was collected for the field, and
the tokens of the fields before.  Whether a delimiter was just read is not kept but seen from the
two indices.  `Reached d text ps s` says that the scan of `text` is at `s` when it has passed over
the pieces `ps`, none of which ends it.

* `Step.field_eq`: in one step the field changes as its piece says, however many characters a
  segment takes.
* `Reached.pieces_eq`, `Reached.tokens_eq`: the pieces of a text are those passed over and those
  left; its tokens are those that the cursor has and those that are read from its field on.
* `Reached.collected_eq`: what is collected comes from the pieces since the last comma.
* `scan_positions`: a comma and the closing delimiter each add exactly one token, so that the place
  of a token is the number of commas before it.
* `Reached.token_eq`, `scan_tells_iff`: the token of a field is what was collected for it, unless
  the opening delimiter stands last in the field.
-/

namespace RowLiteral.Literal
open RowLiteral.Text

/-! ### Fields and their pieces -/

/-- The field after a piece that does not end the scan. -/
def Field.after (f : Field) : Piece → Field
  | .opening => f.mark
  | .comma => .start
  | .bare c => f.add c
  | .quoted text => .replace text
  | .closing | .blank => f

/-- The tokens that a piece adds which does not end the scan. -/
def Field.passed (f : Field) : Piece → List Token
  | .comma => f.close
  | _ => []

/-- What is collected for a field after one more of its pieces. -/
def Piece.collect (collected : Option (List Char)) : Piece → Option (List Char)
  | .bare c => some (collected.getD [] ++ [c])
  | .quoted text => some text
  | .opening | .closing | .comma | .blank => collected

/-- A piece that puts something into its field. -/
def Piece.IsContent : Piece → Prop
  | .bare _ | .quoted _ => True
  | _ => False

/-- The pieces since the last comma. -/
def fieldPieces (ps : List Piece) : List Piece := ps.rtakeWhile (· ≠ .comma)

/-- What is collected from pieces for the field on the way. -/
def collectedFrom (ps : List Piece) : Option (List Char) :=
  (fieldPieces ps).foldl Piece.collect none

/-- Something that is collected was read since the last comma. -/
def HasContent (ps : List Piece) : Prop := ∃ q ∈ fieldPieces ps, q.IsContent

/-- A token tells what was read for the field on the way: what was collected, and NULL only where
nothing was. -/
def Tells (t : Token) (ps : List Piece) : Prop :=
  (HasContent ps → t = collectedFrom ps) ∧ (t = none → ¬ HasContent ps)

variable {d : Delimiters} {f : Field} {p : Piece} {ps qs : List Piece} {text : List Char}

theorem Field.IsOpen.after (h : f.IsOpen) : (f.after p).IsOpen := by
  cases p with
  | opening => exact isOpen_mark
  | comma => exact isOpen_start
  | bare c => exact isOpen_add
  | quoted text => exact isOpen_replace
  | closing | blank => exact h

theorem fieldPieces_concat (ps : List Piece) (p : Piece) :
    fieldPieces (ps ++ [p]) = if p = .comma then [] else fieldPieces ps ++ [p] := by
  by_cases h : p = .comma <;> simp [fieldPieces, h]

theorem collectedFrom_concat (ps : List Piece) (p : Piece) : collectedFrom (ps ++ [p]) =
    if p = .comma then none else p.collect (collectedFrom ps) := by
  rw [collectedFrom, fieldPieces_concat]
  split
  · rfl
  · rw [List.foldl_append]
    rfl

/-- Something is collected if and only if the field has content. -/
theorem isSome_collectedFrom_iff : (collectedFrom ps).isSome = true ↔ HasContent ps := by
  unfold HasContent
  induction ps using List.reverseRecOn with
  | nil => simp [collectedFrom, fieldPieces]
  | append_singleton ps p ih =>
      rw [collectedFrom_concat, fieldPieces_concat]
      cases p with
      | comma => simp
      | bare c | quoted text => simp [Piece.collect, Piece.IsContent]
      | opening | closing | blank => simp [Piece.collect, Piece.IsContent, ih]

/-! ### Cursors -/

/-- A place on the way of a scan. -/
structure Cursor where
  rest : List Char
  index : Nat
  lastDelimiter : Int
  collected : Option (List Char)
  tokens : List Token

namespace Cursor

/-- The beginning of a text.  The last delimiter counts as standing before the text. -/
def start (text : List Char) : Cursor := ⟨text, 0, -1, none, []⟩

/-- The field on the way: a delimiter was just read if the last one has the index before. -/
def field (s : Cursor) : Field := ⟨s.collected, s.lastDelimiter = (s.index : Int) - 1⟩

/-- What comes next, unless it is a segment or nothing. -/
def next? (d : Delimiters) (s : Cursor) : Option Piece := s.rest.head?.bind d.piece?

end Cursor

variable {s s' : Cursor}

/-- One piece is passed over.  A segment takes all characters up to its closing quote, or all that
are left. -/
inductive Step (d : Delimiters) : Cursor → Piece → Cursor → Prop where
  | opening {s : Cursor} {c : Char} {cs : List Char} (next : s.rest = c :: cs)
      (char : d.piece? c = some .opening) :
      Step d s .opening { s with rest := cs, index := s.index + 1, lastDelimiter := s.index }
  | comma {s : Cursor} {c : Char} {cs : List Char} (next : s.rest = c :: cs)
      (char : d.piece? c = some .comma) :
      Step d s .comma ⟨cs, s.index + 1, s.index, none, s.tokens ++ s.field.close⟩
  | bare {s : Cursor} {c : Char} {cs : List Char} (next : s.rest = c :: cs)
      (char : d.piece? c = some (.bare c)) :
      Step d s (.bare c)
        { s with rest := cs, index := s.index + 1, collected := some (s.collected.getD [] ++ [c]) }
  | segment {s : Cursor} {c : Char} {cs value : List Char} {after : Option (List Char)}
      (next : s.rest = c :: cs) (quote : d.piece? c = none)
      (read : readQuoted cs = (value, after)) :
      Step d s (.quoted value)
        { s with
          rest := after.getD []
          index := s.index + 1 + (cs.length - (after.getD []).length)
          collected := some value }

/-- The scan of a text is at a cursor after some pieces. -/
inductive Reached (d : Delimiters) (text : List Char) : List Piece → Cursor → Prop where
  | start : Reached d text [] (.start text)
  | step {ps : List Piece} {p : Piece} {s s' : Cursor} (before : Reached d text ps s)
      (step : Step d s p s') : Reached d text (ps ++ [p]) s'

namespace Step

/-- The last delimiter stands before what is left. -/
theorem lastDelimiter_lt (h : Step d s p s') (before : s.lastDelimiter < s.index) :
    s'.lastDelimiter < s'.index := by
  cases h <;> simp only at before ⊢ <;> omega

/-- **In one step the field changes as its piece says.**  What is no delimiter leaves the last one
further behind. -/
theorem field_eq (h : Step d s p s') (before : s.lastDelimiter < s.index) :
    s'.field = s.field.after p := by
  cases h with
  | opening => simp [Cursor.field, Field.after, Field.mark]
  | comma => simp [Cursor.field, Field.after, Field.start]
  | bare | segment =>
      simp only [Cursor.field, Field.after, Field.add, Field.replace, Field.mk.injEq, true_and,
        decide_eq_false_iff_not] at before ⊢
      omega

/-- The tokens that a step adds. -/
theorem tokens_eq (h : Step d s p s') : s'.tokens = s.tokens ++ s.field.passed p := by
  cases h with
  | comma => rfl
  | opening | bare | segment => exact (List.append_nil _).symm

theorem collected_eq (h : Step d s p s') :
    s'.collected = if p = .comma then none else p.collect s.collected := by
  cases h <;> rfl

/-- The piece that a step passes over is the first of those that are left. -/
theorem pieces_eq (h : Step d s p s') : pieces d s.rest = p :: pieces d s'.rest := by
  cases h with
  | opening next char | comma next char | bare next char => rw [next, pieces_cons_of_some char]
  | segment next quote read =>
      obtain rfl := eq_quote_of_piece? quote
      rw [next, pieces_quote quote, read]

/-- The rest of the text gives the tokens of the piece and those of what comes after it. -/
theorem tokensFrom_eq (h : Step d s p s') (ps : List Piece) :
    tokensFrom f (p :: ps) = f.passed p ++ tokensFrom (f.after p) ps := by
  cases h <;> rw [tokensFrom] <;> rfl

/-- A step leaves less of the text. -/
theorem length_lt (h : Step d s p s') : s'.rest.length < s.rest.length := by
  cases h with
  | opening next | comma next | bare next => rw [next]; exact Nat.lt_succ_self _
  | @segment c cs value after next _ read =>
      have taken := readQuoted_length cs
      rw [read] at taken
      rw [next, List.length_cons]
      simp only at taken ⊢
      omega

end Step

/-! ### The way of a scan -/

namespace Reached

theorem lastDelimiter_lt (h : Reached d text ps s) : s.lastDelimiter < s.index := by
  induction h with
  | start => exact show (-1 : Int) < 0 by decide
  | step _ step ih => exact step.lastDelimiter_lt ih

/-- **The field on the way is that of the pieces.** -/
theorem field_eq (h : Reached d text ps s) : s.field = ps.foldl Field.after .start := by
  induction h with
  | start => rfl
  | step before step ih =>
      rw [step.field_eq before.lastDelimiter_lt, ih, List.foldl_append]
      rfl

/-- **At every place a delimiter was just read or something was collected.** -/
theorem isOpen (h : Reached d text ps s) : s.field.IsOpen := by
  induction h with
  | start => exact Field.isOpen_start
  | step before step ih =>
      rw [step.field_eq before.lastDelimiter_lt]
      exact ih.after

/-- What is collected comes from the pieces since the last comma. -/
theorem collected_eq (h : Reached d text ps s) : s.collected = collectedFrom ps := by
  induction h with
  | start => rfl
  | step _ step ih => rw [step.collected_eq, ih, collectedFrom_concat]

/-- There are as many tokens as commas. -/
theorem length_tokens (h : Reached d text ps s) : s.tokens.length = ps.count .comma := by
  induction h with
  | start => rfl
  | @step ps s p s' before step ih =>
      rw [step.tokens_eq, List.length_append, ih, List.count_append]
      cases step with
      | comma char => rw [Field.passed, before.isOpen.close]; rfl
      | opening | bare | segment => rfl

/-- **The pieces that were passed over** are the first of those of the text. -/
theorem pieces_eq (h : Reached d text ps s) : pieces d text = ps ++ pieces d s.rest := by
  induction h with
  | start => rfl
  | step _ step ih => rw [ih, step.pieces_eq, List.append_assoc, List.singleton_append]

/-- **The tokens of a text** are those before a place and those that are read from there on. -/
theorem tokens_eq (h : Reached d text ps s) :
    tokens d text = s.tokens ++ readFrom d s.field s.rest := by
  induction h with
  | start => rfl
  | step before step ih =>
      rw [ih, readFrom, step.pieces_eq, step.tokensFrom_eq, step.tokens_eq,
        step.field_eq before.lastDelimiter_lt, List.append_assoc, readFrom]

/-- **The token of a field** is what was collected, unless the opening delimiter stands last. -/
theorem token_eq (h : Reached d text ps s) : s.field.token =
    if (fieldPieces ps).getLast? = some .opening then none else collectedFrom ps := by
  cases h with
  | start => rfl
  | step before step =>
      rw [step.field_eq before.lastDelimiter_lt, fieldPieces_concat, collectedFrom_concat,
        ← before.collected_eq]
      cases step <;>
        simp [Field.after, Field.token, Field.mark, Field.start, Field.add, Field.replace,
          Piece.collect, Cursor.field]

/-- The token tells what was read unless the opening delimiter stands last in a field with
content. -/
theorem tells_iff (h : Reached d text ps s) : Tells s.field.token ps ↔
    ¬ (HasContent ps ∧ (fieldPieces ps).getLast? = some .opening) := by
  rw [h.token_eq, Tells, ← isSome_collectedFrom_iff]
  split
  · next last => cases collectedFrom ps <;> simp [last]
  · next last => cases collectedFrom ps <;> simp [last]

end Reached

/-! ### Where a field ends -/

namespace Cursor

/-- The closing delimiter comes next. -/
def IsAtClosing (d : Delimiters) (s : Cursor) : Prop := ∃ c ∈ s.rest.head?, d.closing = some c

instance : Decidable (s.IsAtClosing d) := inferInstanceAs (Decidable (∃ _, _))

/-- A comma or the closing delimiter comes next, and is read as that. -/
def EndsField (d : Delimiters) (s : Cursor) : Prop :=
  s.next? d = some .comma ∨ s.next? d = some .closing

/-- Nothing more is passed over. -/
def IsLast (d : Delimiters) (s : Cursor) : Prop := ∀ p s', ¬ Step d s p s'

/-- The field ends with its token there, and what follows does not depend on it. -/
theorem EndsField.exists_readFrom (h : s.EndsField d) (f : Field) :
    ∃ ts, readFrom d f s.rest = f.close ++ ts := by
  rcases h with h | h <;>
    obtain ⟨c, next, char⟩ := Option.bind_eq_some_iff.1 h <;>
    obtain ⟨cs, rest⟩ := List.head?_eq_some_iff.1 next <;> rw [rest]
  · exact ⟨_, readFrom_comma char⟩
  · exact ⟨[], by rw [readFrom_closing char, List.append_nil]⟩

/-- A scan goes no further at the end of the text, at the closing delimiter and at a blank. -/
theorem IsLast.cases (h : s.IsLast d) :
    s.rest = [] ∨ s.next? d = some .closing ∨ s.next? d = some .blank := by
  cases rest : s.rest with
  | nil => exact .inl rfl
  | cons c cs =>
      simp only [next?, rest, List.head?_cons, Option.bind_some]
      cases char : d.piece? c with
      | none => exact absurd (.segment rest char rfl) (h _ _)
      | some p =>
          cases p with
          | closing => exact .inr (.inl rfl)
          | blank => exact .inr (.inr rfl)
          | opening => exact absurd (.opening rest char) (h _ _)
          | comma => exact absurd (.comma rest char) (h _ _)
          | bare e =>
              obtain rfl : e = c := isOf_of_piece? char
              exact absurd (.bare rest char) (h _ _)
          | quoted text => exact (isOf_of_piece? char).elim

/-- The tokens that are read where a scan goes no further. -/
theorem IsLast.readFrom_eq (h : s.IsLast d) (f : Field) :
    readFrom d f s.rest = if s.next? d = some .closing then f.close else [] := by
  rcases h.cases with rest | closing | blank
  · simp [next?, rest, readFrom, pieces, tokensFrom]
  · obtain ⟨c, next, char⟩ := Option.bind_eq_some_iff.1 closing
    obtain ⟨cs, rest⟩ := List.head?_eq_some_iff.1 next
    rw [if_pos closing, rest, readFrom_closing char]
  · obtain ⟨c, next, char⟩ := Option.bind_eq_some_iff.1 blank
    obtain ⟨cs, rest⟩ := List.head?_eq_some_iff.1 next
    rw [blank, if_neg (by simp), rest, readFrom_blank char]

end Cursor

namespace Reached

/-- **The place of a token is the number of commas before it.** -/
theorem getElem?_tokens (h : Reached d text ps s) (ends : s.EndsField d) :
    (tokens d text)[ps.count .comma]? = some s.field.token := by
  obtain ⟨ts, read⟩ := ends.exists_readFrom s.field
  rw [h.tokens_eq, read, h.isOpen.close, ← h.length_tokens, List.getElem?_append_right le_rfl,
    Nat.sub_self]
  rfl

/-- A scan goes on until it goes no further. -/
theorem exists_isLast (h : Reached d text ps s) : ∃ qs s', Reached d text qs s' ∧ s'.IsLast d := by
  -- by induction on the text that is left
  induction length : s.rest.length using Nat.strongRecOn generalizing ps s with
  | _ n ih =>
    subst length
    by_cases last : s.IsLast d
    · exact ⟨ps, s, h, last⟩
    · simp only [Cursor.IsLast, not_forall, not_not] at last
      obtain ⟨p, s', step⟩ := last
      exact ih _ step.length_lt (h.step step) rfl

/-- Where the scan goes no further there is one token for each comma, and one for the closing
delimiter if it stands there. -/
theorem length_tokens_of_isLast (h : Reached d text ps s) (last : s.IsLast d) :
    (tokens d text).length =
      ps.count .comma + if s.next? d = some .closing then 1 else 0 := by
  rw [h.tokens_eq, List.length_append, h.length_tokens, last.readFrom_eq]
  split
  · rw [h.isOpen.close]; rfl
  · rfl

end Reached

/-! ### The places of fields -/

/-- A text that spells a delimiter is that character. -/
theorem eq_singleton_of_singleUnit? {t : String} {c : Char} (h : singleUnit? t = some c) :
    t = String.singleton c := by
  unfold singleUnit? at h
  split at h
  · next e unit =>
    split at h
    · rw [← Option.some.inj h, ← String.toList_inj, unit, String.toList_singleton]
    · cases h
  · cases h

section

variable {opening closing : String} (distinct : opening ≠ closing)
include distinct

/-- Of two texts that differ the closing delimiter is read as that. -/
theorem piece?_of_closing {c : Char} (h : (Delimiters.ofTexts opening closing).closing = some c) :
    (Delimiters.ofTexts opening closing).piece? c = some .closing := by
  have other : (Delimiters.ofTexts opening closing).opening ≠ some c := fun same =>
    distinct ((eq_singleton_of_singleUnit? same).trans (eq_singleton_of_singleUnit? h).symm)
  rw [Delimiters.piece?, if_neg other, if_pos h]

theorem Cursor.next?_eq_closing_iff : s.next? (.ofTexts opening closing) = some .closing ↔
    s.IsAtClosing (.ofTexts opening closing) := by
  constructor
  · intro h
    obtain ⟨c, next, char⟩ := Option.bind_eq_some_iff.1 h
    exact ⟨c, next, isOf_of_piece? char⟩
  · rintro ⟨c, next, same⟩
    exact Option.bind_eq_some_iff.2 ⟨c, next, piece?_of_closing distinct same⟩

/-- A comma ends a field, unless it is the opening delimiter. -/
theorem Cursor.endsField_of_head (opening_ne : opening ≠ ",")
    (h : s.rest.head? = some ',' ∨ s.IsAtClosing (.ofTexts opening closing)) :
    s.EndsField (.ofTexts opening closing) := by
  rcases h with comma | closed
  · have other : (Delimiters.ofTexts opening closing).opening ≠ some ',' := fun same =>
      opening_ne (eq_singleton_of_singleUnit? same)
    by_cases close : (Delimiters.ofTexts opening closing).closing = some ','
    · exact .inr ((Cursor.next?_eq_closing_iff distinct).2 ⟨',', comma, close⟩)
    · refine .inl (Option.bind_eq_some_iff.2 ⟨',', comma, ?_⟩)
      rw [Delimiters.piece?, if_neg other, if_neg close]
      rfl
  · exact .inr ((Cursor.next?_eq_closing_iff distinct).2 closed)

/-- **Places do not shift.**  Wherever a scan is, the last delimiter has the index before unless
something was collected, so that a field never ends without a token.  The token of a field that ends
at a comma or at the closing delimiter has the number of commas before it as its place, and there
are as many tokens as commas that were passed over, and one more if the scan ends at the closing
delimiter. -/
theorem scan_positions (opening_ne : opening ≠ ",") (text : String) :
    (∀ ps s, Reached (.ofTexts opening closing) text.toList ps s →
      (s.collected = none → s.lastDelimiter = (s.index : Int) - 1) ∧
        s.field.close = [s.field.token] ∧
        (s.rest.head? = some ',' ∨ s.IsAtClosing (.ofTexts opening closing) →
          (scan (.ofTexts opening closing) text)[ps.count .comma]? =
            some (s.field.token.map String.ofList))) ∧
    ∃ ps s, Reached (.ofTexts opening closing) text.toList ps s ∧
      s.IsLast (.ofTexts opening closing) ∧
      (scan (.ofTexts opening closing) text).length =
        ps.count .comma + if s.IsAtClosing (.ofTexts opening closing) then 1 else 0 := by
  refine ⟨fun ps s reached => ⟨fun empty => ?_, reached.isOpen.close, fun ends => ?_⟩, ?_⟩
  · rcases reached.isOpen with delimiter | some
    · exact of_decide_eq_true delimiter
    · rw [Cursor.field, empty] at some
      cases some
  · have place := reached.getElem?_tokens (Cursor.endsField_of_head distinct opening_ne ends)
    rw [scan, List.getElem?_map, place, Option.map_some]
  · obtain ⟨ps, s, reached, last⟩ := Reached.start.exists_isLast
    refine ⟨ps, s, reached, last, ?_⟩
    rw [scan, List.length_map, reached.length_tokens_of_isLast last]
    simp only [Cursor.next?_eq_closing_iff distinct]

end

theorem scan_positions_nested :
    "(" ≠ ")" ∧ "(" ≠ "," ∧
      ∃ s, Reached (.ofTexts "(" ")") "((a,\"b,\"(,)".toList
        [.opening, .opening, .bare 'a', .comma, .quoted ['b', ','], .opening] s ∧
      s.rest.head? = some ',' ∧
      (scan (.ofTexts "(" ")") "((a,\"b,\"(,)")[1]? =
        some (s.field.token.map String.ofList) := by
  have distinct : "(" ≠ ")" := by decide
  have opening_ne : "(" ≠ "," := by decide
  have reached : Reached (.ofTexts "(" ")") "((a,\"b,\"(,)".toList
      [.opening, .opening, .bare 'a', .comma, .quoted ['b', ','], .opening]
      ⟨[',', ')'], 9, 8, some ['b', ','], [some ['a']]⟩ :=
    .step (.step (.step (.step (.step (.step .start (.opening rfl (by decide)))
      (.opening rfl (by decide))) (.bare rfl (by decide))) (.comma rfl (by decide)))
      (.segment rfl (by decide) rfl)) (.opening rfl (by decide))
  obtain ⟨places, -⟩ := scan_positions distinct opening_ne "((a,\"b,\"(,)"
  exact ⟨distinct, opening_ne, _, reached, rfl, (places _ _ reached).2.2 (.inl rfl)⟩

/-! ### What a field is told as -/

/-- **Where a field is told as it was read.**  The token of a field that ends at a comma or at the
closing delimiter has its place in the scan, and tells what was read for the field if and only if
there was nothing or the opening delimiter does not stand last. -/
theorem scan_tells_iff (d : Delimiters) (text : String) {ps : List Piece} {s : Cursor}
    (reached : Reached d text.toList ps s) (ends : s.EndsField d) :
    ∃ t : Token, (scan d text)[ps.count .comma]? = some (t.map String.ofList) ∧
      (Tells t ps ↔ ¬ (HasContent ps ∧ (fieldPieces ps).getLast? = some .opening)) := by
  refine ⟨s.field.token, ?_, reached.tells_iff⟩
  rw [scan, List.getElem?_map, reached.getElem?_tokens ends, Option.map_some]

/-- The way to the comma of `(a(,b)`. -/
theorem reached_opening_last : Reached (.ofTexts "(" ")") "(a(,b)".toList
    [.opening, .bare 'a', .opening] ⟨[',', 'b', ')'], 3, 2, some ['a'], []⟩ :=
  .step (.step (.step .start (.opening rfl (by decide))) (.bare rfl (by decide)))
    (.opening rfl (by decide))

theorem scan_tells_iff_opening_last :
    ∃ s, Reached (.ofTexts "(" ")") "(a(,b)".toList [.opening, .bare 'a', .opening] s ∧
      s.EndsField (.ofTexts "(" ")") ∧
      ∃ t : Token, (scan (.ofTexts "(" ")") "(a(,b)")[0]? = some (t.map String.ofList) ∧
        (Tells t [.opening, .bare 'a', .opening] ↔
          ¬ (HasContent [.opening, .bare 'a', .opening] ∧
            (fieldPieces [.opening, .bare 'a', .opening]).getLast? = some .opening)) := by
  have ends : Cursor.EndsField (.ofTexts "(" ")") ⟨[',', 'b', ')'], 3, 2, some ['a'], []⟩ :=
    .inl (by decide)
  exact ⟨_, reached_opening_last, ends, scan_tells_iff _ _ reached_opening_last ends⟩

/-- A field is not told as it was read in every text: `(a(,b)` has a character in its first field,
of which NULL is told. -/
theorem not_scan_tells : ¬ ∀ (opening closing text : String), opening ≠ closing →
    ∀ ps s, Reached (.ofTexts opening closing) text.toList ps s →
      s.EndsField (.ofTexts opening closing) →
      ∃ t : Token, (scan (.ofTexts opening closing) text)[ps.count .comma]? =
        some (t.map String.ofList) ∧ Tells t ps := by
  intro told
  obtain ⟨t, place, tells⟩ := told "(" ")" "(a(,b)" (by decide) _ _ reached_opening_last
    (.inl (by decide))
  have null : (scan (.ofTexts "(" ")") "(a(,b)")[0]? = some none := by decide +kernel
  have same : t.map String.ofList = none := Option.some.inj (place.symm.trans null)
  exact tells.2 (Option.map_eq_none_iff.1 same) ⟨.bare 'a', by decide, trivial⟩

end RowLiteral.Literal
