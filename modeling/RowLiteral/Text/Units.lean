/-!
# Text — units

The length of a text is counted in UTF-16 units: a character outside the basic plane takes two.
`unitLength` is that length, `units` the units themselves, and `clip` keeps as many whole characters
as a number of units allows.
-/

namespace RowLiteral.Text

/-- The units of one character: itself, or a high and a low surrogate. -/
def charUnits (c : Char) : List Nat :=
  let n := c.toNat
  if n < 0x10000 then [n] else [0xd800 + (n - 0x10000) / 0x400, 0xdc00 + (n - 0x10000) % 0x400]

/-- The characters of a sequence of units; a high and a low surrogate make one character. -/
def ofUnits : List Nat → List Char
  | [] => []
  | [n] => [Char.ofNat n]
  | m :: n :: ns =>
    if 0xd800 ≤ m && m < 0xdc00 && 0xdc00 ≤ n && n < 0xe000 then
      Char.ofNat (0x10000 + (m - 0xd800) * 0x400 + (n - 0xdc00)) :: ofUnits ns
    else Char.ofNat m :: ofUnits (n :: ns)

/-- The units of a text. -/
def units (s : String) : List Nat := s.toList.flatMap charUnits

/-- The number of units of a text. -/
def unitLength (s : String) : Nat := (units s).length

/-- The longest beginning of a list of characters that takes at most `n` units. -/
def clipChars : Nat → List Char → List Char
  | _, [] => []
  | n, c :: cs =>
    let width := (charUnits c).length
    if width ≤ n then c :: clipChars (n - width) cs else []

/-- The longest beginning of a text that takes at most `n` units. -/
def clip (n : Nat) (s : String) : String := String.ofList (clipChars n s.toList)

/-- The text as one character of one unit, where it is that. -/
def singleUnit? (s : String) : Option Char :=
  match s.toList with
  | [c] => if c.toNat < 0x10000 then some c else none
  | _ => none

/-- A text shortened to `limit` units, with dots where something was cut. -/
def abbreviate (limit : Int) (s : String) : String :=
  if (unitLength s : Int) ≤ limit then s else clip limit.toNat s ++ "..."

/-- How much of a literal or a value a log line shows. -/
def logLimit : Int := 100

end RowLiteral.Text
