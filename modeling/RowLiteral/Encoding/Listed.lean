import RowLiteral.Encoding.Charset
import RowLiteral.Encoding.HighHalf
import RowLiteral.Encoding.Utf8

/-!
# Encoding — listed decoders

Decoders that are written out here: that of UTF-8, and those of the character sets of one byte for
each character whose upper half is listed.  In a set that is not listed a byte beyond ASCII gives
the replacement character, and one set has no decoder.  The lower half of a set is ASCII, but two
sets order three of its controls as the code pages of personal computers do.
-/

namespace RowLiteral

namespace Charset

/-- The upper half of a set of one byte for each character, where it is listed. -/
def highHalf? : Charset → Option String
  | .latin1 | .windows1252 => some HighHalf.windows1252
  | .latin5 | .windows1254 => some HighHalf.windows1254
  | .latin9 => some HighHalf.latin9
  | .windows1251 => some HighHalf.windows1251
  | .koi8r => some HighHalf.koi8r
  | .cyrillic => some HighHalf.cyrillic
  | _ => none

/-- Whether the controls of a set stand as they do in the code pages of personal computers. -/
def hasPcControls : Charset → Bool
  | .ibm866 | .shiftjis => true
  | _ => false

/-- The ASCII character of a byte where the file separator, the delete and the substitute have
changed places: they stand at 1A, 1C and 7F. -/
def pcControl (b : Nat) : Nat :=
  if b = 0x1a then 0x1c else if b = 0x1c then 0x7f else if b = 0x7f then 0x1a else b

/-- The character of a byte of the lower half of a set. -/
def lowerHalf (c : Charset) (b : Nat) : Char :=
  Char.ofNat (if c.hasPcControls then pcControl b else b)

/-- The character of a byte in a set of one byte for each character. -/
def decodeByte (c : Charset) (b : UInt8) : Char :=
  if b.toNat < 0x80 then c.lowerHalf b.toNat
  else ((c.highHalf?.bind fun half => half.toList[b.toNat - 0x80]?)).getD Utf8.replacement

end Charset

/-- The listed decoders. -/
def Decoders.listed : Decoders
  | .utf8 => some Utf8.decode
  | .latin10 => none
  | c => some fun bs => String.ofList (bs.map c.decodeByte)

/-- UTF-8 under its first name. -/
def Encoding.utf8 : Encoding := ⟨"UTF8", Utf8.decode⟩

end RowLiteral
