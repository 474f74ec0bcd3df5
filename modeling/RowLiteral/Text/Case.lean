/-!
# Text — case

Names and words are compared in one case.  They are written in the letters of ASCII, so only those
letters matter that have one of these as their lower or their upper case.
-/

namespace RowLiteral.Text

/-- A text in lower case, as far as letters of ASCII are concerned. -/
def lower (s : String) : String := String.ofList (s.toList.map Char.toLower)

/-- A letter in upper case, for the letters whose upper case is one of `A` to `Z`: those of ASCII,
the dotless i and the long s. -/
def upperChar (c : Char) : Char :=
  if c = '\u0131' then 'I' else if c = '\u017f' then 'S' else c.toUpper

/-- A text in upper case, as far as letters of ASCII are concerned. -/
def upper (s : String) : String := String.ofList (s.toList.map upperChar)

end RowLiteral.Text
