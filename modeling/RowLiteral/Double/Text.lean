import RowLiteral.Double.Shortest
import RowLiteral.Number.Layout
import RowLiteral.Text.Blank

/-!
# Double — text

A double is written by its shortest decimal; a zero is written without its sign.  It is read from
a numeral, or from one of the words `NaN` and `Infinity`, with an optional sign and with blanks
around it.
-/

namespace RowLiteral.Double
open RowLiteral.Number RowLiteral.Text

/-- The text of a double. -/
def toText : Double → String
  | .nan => "NaN"
  | .infinity negative => if negative then "-Infinity" else "Infinity"
  | .finite negative r =>
    let (c, e) := shortest r
    String.ofList (signedLayout negative c e)

/-- The text of a double that also tells the two zeros apart. -/
def toSignedText (x : Double) : String :=
  match x with
  | .finite true r => if r.val = 0 then "-0" else x.toText
  | _ => x.toText

/-- The double that an exact text spells. -/
def ofChars? (cs : List Char) : Option Double :=
  let (negative, rest) := readSign cs
  if rest = "NaN".toList then some .nan
  else if rest = "Infinity".toList then some (.infinity negative)
  else (unsigned? negative rest).map ofNumeral

/-- The double that a text spells. -/
def ofText? (s : String) : Option Double := ofChars? (trimChars s.toList)

end RowLiteral.Double
