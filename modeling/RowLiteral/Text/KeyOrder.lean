import RowLiteral.Number.Numeral
import RowLiteral.Table

/-!
# Text — the order of keys

Where the keys of a table are listed, those that are array indices — numerals without a leading
zero, below 2³² − 1 — come first, from the least to the greatest, and the others follow in the order
in which they were first written.
-/

namespace RowLiteral

/-- The array index that a key spells. -/
def Text.arrayIndex? (key : String) : Option Nat :=
  let cs := key.toList
  let n := Number.ofDigits cs
  if cs ≠ [] && cs.all Char.isDigit && (cs == ['0'] || cs.head? != some '0') && n < 4294967295 then
    some n
  else
    none

/-- The entries of a table in the order in which they are listed: array indices first, ascending. -/
def Table.listed {α : Type} (t : Table String α) : Table String α :=
  let indexed := t.filterMap fun e => (Text.arrayIndex? e.1).map fun n => (n, e)
  (indexed.mergeSort fun a b => a.1 ≤ b.1).map Prod.snd ++
    t.filter fun e => (Text.arrayIndex? e.1).isNone

end RowLiteral
