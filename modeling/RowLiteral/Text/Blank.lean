/-!
# Text — blanks

Two classes of white space.  A *breaking* blank ends the scan of a literal when it stands outside
quotes: the layout controls, the information separators and the Unicode spaces, without the three
non-breaking spaces.  A *margin* blank is one that `trim` takes off the ends of a text before it is
read as a number, a date or a name: the layout controls, every Unicode space and the byte order
mark.
-/

namespace RowLiteral.Text

/-! ### Character classes -/

/-- The space separators of Unicode, category `Zs`. -/
def isSpaceSeparator (c : Char) : Bool :=
  c == ' ' || c == '\u00a0' || c == '\u1680' || ('\u2000' ≤ c && c ≤ '\u200a') ||
    c == '\u202f' || c == '\u205f' || c == '\u3000'

/-- The line separator and the paragraph separator. -/
def isLineSeparator (c : Char) : Bool := c == '\u2028' || c == '\u2029'

/-- The spaces at which a line may not be broken. -/
def isNonBreaking (c : Char) : Bool := c == '\u00a0' || c == '\u2007' || c == '\u202f'

/-- Tab, line feed, vertical tab, form feed and carriage return. -/
def isLayoutControl (c : Char) : Bool := '\t' ≤ c && c ≤ '\r'

/-- The file, group, record and unit separators. -/
def isInformationSeparator (c : Char) : Bool := '\u001c' ≤ c && c ≤ '\u001f'

/-- The blanks that end a scan outside quotes. -/
def isBreaking (c : Char) : Bool :=
  isLayoutControl c || isInformationSeparator c ||
    ((isSpaceSeparator c || isLineSeparator c) && !isNonBreaking c)

/-- The blanks that do not count at the ends of a text. -/
def isMargin (c : Char) : Bool :=
  isLayoutControl c || c == '\ufeff' || isSpaceSeparator c || isLineSeparator c

/-- A text of one character that is a breaking blank. -/
def isBreakingText (s : String) : Bool :=
  match s.toList with
  | [c] => isBreaking c
  | _ => false

/-! ### Trimming -/

/-- A list without the margin blanks at its two ends. -/
def trimChars (cs : List Char) : List Char :=
  ((cs.dropWhile isMargin).reverse.dropWhile isMargin).reverse

/-- A text without the margin blanks at its two ends. -/
def trim (s : String) : String := String.ofList (trimChars s.toList)

/-- A text of margin blanks only, the empty text among them. -/
def isBlank (s : String) : Bool := s.toList.all isMargin

end RowLiteral.Text
