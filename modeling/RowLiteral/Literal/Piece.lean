import RowLiteral.Text.Blank
import RowLiteral.Text.Quoted
import RowLiteral.Text.Units

/-!
# Literal — pieces

A literal is read in two stages.  This file holds the first: the text is cut into *pieces*, a quoted
segment being one piece and every character outside quotes another.  What a character outside
quotes is depends on the delimiters, and is asked in a fixed order: opening delimiter, closing
delimiter, quote, comma, breaking blank, bare character.

`piecesWeight_pieces_le` says that the pieces of a text are no longer than the text.
-/

namespace RowLiteral.Literal
open RowLiteral.Text

/-- The characters that open and close a literal; one that is absent is never met. -/
structure Delimiters where
  opening : Option Char
  closing : Option Char
deriving DecidableEq, Repr

namespace Delimiters

/-- The delimiters of a row. -/
def row : Delimiters := ⟨some '(', some ')'⟩

/-- The delimiters of an array. -/
def array : Delimiters := ⟨some '\x7b', some '\x7d'⟩

/-- The delimiters that two texts spell: a text that is not one unit spells none. -/
def ofTexts (opening closing : String) : Delimiters := ⟨singleUnit? opening, singleUnit? closing⟩

end Delimiters

/-- A part of a literal. -/
inductive Piece where
  | opening | closing | comma | blank
  | bare (c : Char)
  | quoted (text : List Char)
deriving DecidableEq, Repr

/-- What a character is when it stands outside quotes; `none` for the quote that starts a
segment. -/
def Delimiters.piece? (d : Delimiters) (c : Char) : Option Piece :=
  if d.opening = some c then some .opening
  else if d.closing = some c then some .closing
  else if c = '"' then none
  else if c = ',' then some .comma
  else if isBreaking c then some .blank
  else some (.bare c)

/-- The pieces of a text. -/
def pieces (d : Delimiters) : List Char → List Piece
  | [] => []
  | c :: cs =>
    match d.piece? c with
    | some p => p :: pieces d cs
    | none => .quoted (readQuoted cs).1 :: pieces d ((readQuoted cs).2.getD [])
termination_by cs => cs.length
decreasing_by
  · simp
  · have := readQuoted_length cs
    simp only [List.length_cons]
    omega

/-! ### The length of pieces -/

/-- The least number of characters that a piece takes. -/
def Piece.weight : Piece → Nat
  | .opening | .closing | .comma | .blank | .bare _ => 1
  | .quoted text => text.length + 1

/-- The least number of characters that pieces take. -/
def piecesWeight : List Piece → Nat
  | [] => 0
  | p :: ps => p.weight + piecesWeight ps

theorem Delimiters.weight_of_piece? {d : Delimiters} {c : Char} {p : Piece}
    (h : d.piece? c = some p) : p.weight = 1 := by
  unfold Delimiters.piece? at h
  split at h
  · cases h; rfl
  split at h
  · cases h; rfl
  split at h
  · cases h
  split at h
  · cases h; rfl
  split at h <;> cases h <;> rfl

/-- The pieces of a text take up no more than the text. -/
theorem piecesWeight_pieces_le (d : Delimiters) (cs : List Char) :
    piecesWeight (pieces d cs) ≤ cs.length := by
  fun_induction pieces d cs with
  | case1 => simp [piecesWeight]
  | case2 c cs p h ih =>
    simp only [piecesWeight, List.length_cons, Delimiters.weight_of_piece? h]
    omega
  | case3 c cs h ih =>
    have := readQuoted_length cs
    simp only [piecesWeight, List.length_cons, Piece.weight]
    omega

end RowLiteral.Literal
