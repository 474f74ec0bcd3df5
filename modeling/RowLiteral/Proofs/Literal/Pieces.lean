import RowLiteral.Literal.Scan
import RowLiteral.Value.Text

/-!
# Literal — the pieces of written text

Into which pieces a text falls that was written with `enquote`, or bare.

* `readQuoted_doubled`: what was doubled is read back from between quotes, and the segment ends at
  the quote that closes it, whatever follows, unless that is a quote too.
* `pieces_enquote`: a text between quotes is one piece.

In a row a character is bare when it is neither one that asks for quotes nor a breaking blank
(`row_piece?_bare`).  The two classes were drawn independently: a breaking blank beyond ASCII does
not ask for quotes.
-/

namespace RowLiteral.Text

/-! ### Quoted segments -/

theorem readQuoted_cons {c : Char} {cs : List Char} (hq : c ≠ '"') (hb : c ≠ '\\') :
    readQuoted (c :: cs) = (c :: (readQuoted cs).1, (readQuoted cs).2) := by
  rw [readQuoted]
  · rintro _ rfl; exact absurd rfl hq
  · rintro rfl; exact absurd rfl hq
  · rintro _ _ rfl; exact absurd rfl hb

/-- A quote that no quote follows closes the segment. -/
theorem readQuoted_close {rest : List Char} (h : rest.head? ≠ some '"') :
    readQuoted ('"' :: rest) = ([], some rest) := by
  rw [readQuoted]
  rintro cs rfl
  exact h rfl

theorem doubled_append (cs ds : List Char) : doubled (cs ++ ds) = doubled cs ++ doubled ds :=
  List.flatMap_append

theorem doubled_cons (c : Char) (cs : List Char) :
    doubled (c :: cs) = (if isDoubled c then [c, c] else [c]) ++ doubled cs :=
  List.flatMap_cons

/-- Nothing is doubled where there is no quote and no backslash. -/
theorem doubled_eq_self {cs : List Char} (h : ∀ c ∈ cs, isDoubled c = false) : doubled cs = cs := by
  induction cs with
  | nil => rfl
  | cons c cs ih =>
      rw [doubled_cons, h c List.mem_cons_self, ih fun d hd => h d (List.mem_cons_of_mem _ hd)]
      rfl

/-- **A doubled text is read back from between quotes.** -/
theorem readQuoted_doubled (cs : List Char) {rest : List Char} (h : rest.head? ≠ some '"') :
    readQuoted (doubled cs ++ '"' :: rest) = (cs, some rest) := by
  induction cs with
  | nil => exact readQuoted_close h
  | cons c cs ih =>
      rw [doubled_cons]
      by_cases hq : c = '"'
      · subst hq
        simp only [isDoubled, beq_self_eq_true, Bool.true_or, if_true, List.cons_append,
          List.nil_append, readQuoted, ih]
      by_cases hb : c = '\\'
      · subst hb
        simp only [isDoubled, beq_self_eq_true, Bool.or_true, if_true, List.cons_append,
          List.nil_append, readQuoted, ih]
      · have hd : isDoubled c = false := by simp [isDoubled, hq, hb]
        rw [hd, if_neg Bool.false_ne_true, List.cons_append, List.nil_append, List.cons_append,
          readQuoted_cons hq hb, ih]

/-- After an opening quote, an even number of quotes and one more are half as many quotes and the
end of the segment. -/
theorem readQuoted_quotes (n : Nat) {rest : List Char} (h : rest.head? ≠ some '"') :
    readQuoted (List.replicate (2 * n) '"' ++ '"' :: rest) = (List.replicate n '"', some rest) := by
  have e : List.replicate (2 * n) '"' = doubled (List.replicate n '"') := by
    induction n with
    | zero => rfl
    | succ n ih => rw [List.replicate_succ (n := n), doubled_cons, ← ih]; rfl
  rw [e, readQuoted_doubled _ h]

/-- What follows a segment is the end of what was read. -/
theorem readQuoted_rest_suffix (cs : List Char) : (readQuoted cs).2.getD [] <:+ cs := by
  fun_induction readQuoted cs with
  | case1 => exact List.suffix_rfl
  | case2 cs text rest e ih =>
      rw [e] at ih
      exact ih.trans ⟨['"', '"'], rfl⟩
  | case3 cs => exact ⟨['"'], rfl⟩
  | case4 c cs text rest e ih =>
      rw [e] at ih
      exact ih.trans ⟨['\\', c], rfl⟩
  | case5 c cs _ _ _ text rest e ih =>
      rw [e] at ih
      exact ih.trans ⟨[c], rfl⟩

end RowLiteral.Text

namespace RowLiteral
open Text

/-! ### Characters that ask for quotes -/

/-- What is written twice asks for quotes. -/
theorem needsQuoting_of_isDoubled {c : Char} (h : isDoubled c = true) : needsQuoting c = true := by
  simp only [isDoubled, Bool.or_eq_true, beq_iff_eq] at h
  rcases h with rfl | rfl <;> rfl

/-- A text without characters that ask for quotes stays as it is when it is doubled. -/
theorem doubled_eq_self_of_plain {cs : List Char} (h : ∀ c ∈ cs, needsQuoting c = false) :
    doubled cs = cs :=
  doubled_eq_self fun c hc => Bool.eq_false_iff.2 fun hd =>
    absurd (needsQuoting_of_isDoubled hd) (by rw [h c hc]; exact Bool.false_ne_true)

end RowLiteral

namespace RowLiteral.Literal
open RowLiteral.Text

/-! ### Pieces -/

variable {d : Delimiters} {c : Char} {cs rest : List Char}

theorem pieces_cons_of_some {p : Piece} (h : d.piece? c = some p) :
    pieces d (c :: rest) = p :: pieces d rest := by
  rw [pieces, h]

/-- Where a quote is no delimiter, it starts a piece that reaches to the closing quote. -/
theorem pieces_quote (h : d.piece? '"' = none) :
    pieces d ('"' :: rest) =
      .quoted (readQuoted rest).1 :: pieces d ((readQuoted rest).2.getD []) := by
  rw [pieces, h]

/-- **A text between quotes is one piece.** -/
theorem pieces_enquote (hd : d.piece? '"' = none) (h : rest.head? ≠ some '"') :
    pieces d (enquote cs ++ rest) = .quoted cs :: pieces d rest := by
  rw [enquote, List.cons_append, List.cons_append, List.append_assoc, List.singleton_append,
    pieces_quote hd, readQuoted_doubled cs h]
  rfl

/-- What a piece says of the character that it is made of. -/
def Piece.IsOf (d : Delimiters) (c : Char) : Piece → Prop
  | .opening => d.opening = some c
  | .closing => d.closing = some c
  | .comma => c = ','
  | .blank => isBreaking c = true
  | .bare e => e = c
  | .quoted _ => False

theorem isOf_of_piece? {p : Piece} (h : d.piece? c = some p) : p.IsOf d c := by
  unfold Delimiters.piece? at h
  split at h
  · cases h; assumption
  split at h
  · cases h; assumption
  split at h
  · cases h
  split at h
  · cases h; assumption
  split at h
  · cases h; assumption
  · cases h; rfl

/-- Only a quote is no piece of its own. -/
theorem eq_quote_of_piece? (h : d.piece? c = none) : c = '"' := by
  unfold Delimiters.piece? at h
  split at h
  · cases h
  split at h
  · cases h
  split at h
  · assumption
  split at h
  · cases h
  split at h <;> cases h

/-! ### The characters of a row -/

theorem row_piece?_quote : Delimiters.row.piece? '"' = none := rfl

theorem row_piece?_opening : Delimiters.row.piece? '(' = some .opening := rfl

theorem row_piece?_closing : Delimiters.row.piece? ')' = some .closing := rfl

theorem row_piece?_comma : Delimiters.row.piece? ',' = some .comma := rfl

/-- A character that does not ask for quotes is bare or a blank. -/
theorem row_piece?_plain (h : needsQuoting c = false) :
    Delimiters.row.piece? c = some (if isBreaking c then .blank else .bare c) := by
  simp only [needsQuoting, Bool.or_eq_false_iff, beq_eq_false_iff_ne, ne_eq] at h
  obtain ⟨⟨⟨⟨⟨⟨-, hq⟩, ho⟩, hc⟩, -⟩, hm⟩, -⟩ := h
  have ho' : Delimiters.row.opening ≠ some c := fun e => ho (Option.some.inj e).symm
  have hc' : Delimiters.row.closing ≠ some c := fun e => hc (Option.some.inj e).symm
  rw [Delimiters.piece?, if_neg ho', if_neg hc', if_neg hq, if_neg hm]
  split <;> rfl

theorem row_piece?_bare (h : needsQuoting c = false) (hb : isBreaking c = false) :
    Delimiters.row.piece? c = some (.bare c) := by
  rw [row_piece?_plain h, hb]
  rfl

end RowLiteral.Literal
