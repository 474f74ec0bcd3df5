import RowLiteral.Literal.Piece

/-!
# Literal — scanning

The second stage of reading a literal: pieces are gathered into the *tokens* of its fields.  A token
is the text of a field, or `none` for a field in which nothing stands.

A field is kept as what was collected for it and whether the piece just read was a delimiter.  A
comma or the closing delimiter ends a field; the token is `none` when a delimiter stands directly
before, and what was collected otherwise.  The opening delimiter only marks its place: it neither
starts a field nor drops what was collected.  A quoted segment replaces what was collected before
it, and a bare character adds to it.  The closing delimiter and a blank end the scan, and a field
that has not been ended by then is dropped.

`length_lt_of_mem_scan` says that a token is shorter than the text it was scanned from.
-/

namespace RowLiteral.Literal
open RowLiteral.Text

/-- The text of a field, or `none` where nothing stands. -/
abbrev Token := Option (List Char)

/-- A field on the way: what was collected, and whether a delimiter was just read. -/
structure Field where
  collected : Option (List Char)
  atDelimiter : Bool
deriving DecidableEq, Repr

namespace Field

/-- The field that starts after a comma. -/
def start : Field := ⟨none, true⟩

/-- The field with one more bare character. -/
def add (f : Field) (c : Char) : Field := ⟨some (f.collected.getD [] ++ [c]), false⟩

/-- The field after a quoted segment. -/
def replace (text : List Char) : Field := ⟨some text, false⟩

/-- The field after an opening delimiter. -/
def mark (f : Field) : Field := { f with atDelimiter := true }

/-- The tokens of a field that ends: one, or none where nothing was read since the start. -/
def close (f : Field) : List Token :=
  if f.atDelimiter then [none]
  else match f.collected with
    | some text => [some text]
    | none => []

end Field

/-- The tokens of a sequence of pieces, read from within a field. -/
def tokensFrom : Field → List Piece → List Token
  | _, [] | _, .blank :: _ => []
  | f, .opening :: ps => tokensFrom f.mark ps
  | f, .closing :: _ => f.close
  | f, .comma :: ps => f.close ++ tokensFrom .start ps
  | f, .bare c :: ps => tokensFrom (f.add c) ps
  | _, .quoted text :: ps => tokensFrom (.replace text) ps

/-- The tokens of a literal. -/
def tokens (d : Delimiters) (cs : List Char) : List Token := tokensFrom .start (pieces d cs)

/-- The fields of a literal as texts. -/
def scan (d : Delimiters) (text : String) : List (Option String) :=
  (tokens d text.toList).map (Option.map String.ofList)

/-- The fields of a row literal. -/
def scanRow (text : String) : List (Option String) := scan .row text

/-- The elements of an array literal. -/
def scanArray (text : String) : List (Option String) := scan .array text

/-! ### The length of tokens -/

/-- The characters of tokens, and for each token the delimiter that ended it. -/
def tokensWeight : List Token → Nat
  | [] => 0
  | t :: ts => (t.getD []).length + 1 + tokensWeight ts

theorem tokensWeight_append (ts us : List Token) :
    tokensWeight (ts ++ us) = tokensWeight ts + tokensWeight us := by
  induction ts with
  | nil => simp [tokensWeight]
  | cons t ts ih => simp only [List.cons_append, tokensWeight, ih, Nat.add_assoc]

theorem tokensWeight_close_le (f : Field) :
    tokensWeight f.close ≤ (f.collected.getD []).length + 1 := by
  unfold Field.close
  split
  · simp [tokensWeight]
  · split <;> simp_all [tokensWeight]

/-- The tokens take up no more than the pieces and what was collected. -/
theorem tokensWeight_tokensFrom_le (f : Field) (ps : List Piece) :
    tokensWeight (tokensFrom f ps) ≤ (f.collected.getD []).length + piecesWeight ps := by
  fun_induction tokensFrom f ps with
  | case1 | case2 => simp [tokensWeight]
  | case3 f ps ih =>
    simp only [piecesWeight, Piece.weight, Field.mark] at ih ⊢
    omega
  | case4 f ps =>
    have := tokensWeight_close_le f
    simp only [piecesWeight, Piece.weight]
    omega
  | case5 f ps ih =>
    have := tokensWeight_close_le f
    simp only [tokensWeight_append, piecesWeight, Piece.weight, Field.start, Option.getD_none,
      List.length_nil] at ih ⊢
    omega
  | case6 f c ps ih =>
    simp only [Field.add, Option.getD_some, List.length_append, List.length_cons, List.length_nil,
      piecesWeight, Piece.weight] at ih ⊢
    omega
  | case7 f text ps ih =>
    simp only [Field.replace, Option.getD_some, piecesWeight, Piece.weight] at ih ⊢
    omega

/-- The tokens of a literal, each with one delimiter, take up no more than the literal. -/
theorem tokensWeight_tokens_le (d : Delimiters) (cs : List Char) :
    tokensWeight (tokens d cs) ≤ cs.length := by
  have h := tokensWeight_tokensFrom_le .start (pieces d cs)
  have h' := piecesWeight_pieces_le d cs
  simp only [Field.start, Option.getD_none, List.length_nil] at h
  exact Nat.le_trans h (by omega)

theorem length_lt_tokensWeight {t : List Char} :
    ∀ {ts : List Token}, some t ∈ ts → t.length < tokensWeight ts
  | u :: ts, h => by
    rcases List.mem_cons.1 h with rfl | h
    · simp only [tokensWeight, Option.getD_some]
      omega
    · have := length_lt_tokensWeight h
      simp only [tokensWeight]
      omega

/-- A token is shorter than the text that it was scanned from. -/
theorem length_lt_of_mem_scan {d : Delimiters} {text token : String}
    (h : some token ∈ scan d text) : token.length < text.length := by
  obtain ⟨t, ht, e⟩ := List.mem_map.1 h
  obtain ⟨cs, rfl, rfl⟩ := Option.map_eq_some_iff.1 e
  have h₁ := length_lt_tokensWeight ht
  have h₂ := tokensWeight_tokens_le d text.toList
  rw [String.length_toList] at h₂
  rw [String.length_ofList]
  exact Nat.lt_of_lt_of_le h₁ h₂

end RowLiteral.Literal
