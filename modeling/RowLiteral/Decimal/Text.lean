import RowLiteral.Decimal.Basic
import RowLiteral.Number.Layout
import RowLiteral.Text.Blank

/-!
# Decimal — text

A decimal is written by its digits, in the same layout as a double, and a zero without its sign.
It is read from a numeral, with blanks around it.
-/

namespace RowLiteral.Decimal
open RowLiteral.Number RowLiteral.Text

/-- The text of a decimal. -/
def toText : Decimal → String
  | .nan => "NaN"
  | .infinity negative => if negative then "-Infinity" else "Infinity"
  | .finite negative c e _ => String.ofList (signedLayout negative c e)

/-- The text of a decimal that also tells the two zeros apart. -/
def toSignedText (d : Decimal) : String :=
  match d with
  | .finite true 0 _ _ => "-0"
  | _ => d.toText

/-- The finite decimal that an exact text spells. -/
def ofChars? (cs : List Char) : Option Decimal := (numeral? cs).map ofNumeral

/-- The finite decimal that a text spells. -/
def ofText? (s : String) : Option Decimal := ofChars? (trimChars s.toList)

end RowLiteral.Decimal
