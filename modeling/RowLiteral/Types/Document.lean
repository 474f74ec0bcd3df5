import RowLiteral.Number.Numeral
import RowLiteral.Text.KeyOrder

/-!
# Types — documents

A *document* is what a types file holds: scalars, sequences and mappings.  The readers give a
document as it is written, with the entries of a mapping in the order of the text.  What is loaded
is the *listed* document, in which every mapping is a table whose keys are listed array indices
first.
-/

namespace RowLiteral
open Text

/-- What a types file holds. -/
inductive Document where
  | null
  | bool (b : Bool)
  | number (n : Number.Numeral)
  | text (s : String)
  | sequence (xs : List Document)
  | mapping (entries : List (String × Document))
deriving Repr

namespace Document

/-- The mapping with given entries, listed in the order of keys. -/
def ofEntries (entries : List (String × Document)) : Document :=
  .mapping (Table.listed (Table.ofEntries entries))

mutual
/-- A document with the entries of its mappings in the order of keys. -/
def listed : Document → Document
  | .sequence xs => .sequence (listedItems xs)
  | .mapping entries => .ofEntries (listedEntries entries)
  | d => d

/-- The items of a sequence, listed. -/
def listedItems : List Document → List Document
  | [] => []
  | x :: xs => x.listed :: listedItems xs

/-- The entries of a mapping, each with its document listed. -/
def listedEntries : List (String × Document) → List (String × Document)
  | [] => []
  | (key, x) :: entries => (key, x.listed) :: listedEntries entries
end

/-- The entries of a mapping. -/
def entries? : Document → Option (List (String × Document))
  | .mapping entries => some entries
  | _ => none

/-- The entry of a mapping under a key. -/
def get? (key : String) (d : Document) : Option Document :=
  d.entries?.bind fun entries => Table.get? entries key

end Document

end RowLiteral
