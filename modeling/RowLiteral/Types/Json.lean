import RowLiteral.Text.Units
import RowLiteral.Types.Document

/-!
# Types — JSON documents

Reading a text that is one JSON document, as it is written.  The readers of values, items and
members call each other with less and less fuel; the length of the text is enough.
-/

namespace RowLiteral.Json
open RowLiteral.Number RowLiteral.Text

/-- Blanks between the parts of a document. -/
def isBlankChar (c : Char) : Bool := c == ' ' || c == '\t' || c == '\n' || c == '\r'

/-- A text without the blanks at its start. -/
def skipBlanks (cs : List Char) : List Char := cs.dropWhile isBlankChar

/-- The value of a hexadecimal digit. -/
def hexValue? (c : Char) : Option Nat :=
  if c.isDigit then some (c.toNat - '0'.toNat)
  else if 'a' ≤ c && c ≤ 'f' then some (c.toNat - 'a'.toNat + 10)
  else if 'A' ≤ c && c ≤ 'F' then some (c.toNat - 'A'.toNat + 10)
  else none

/-- The unit of four hexadecimal digits. -/
def unit? (a b c d : Char) : Option Nat := do
  return (((← hexValue? a) * 16 + (← hexValue? b)) * 16 + (← hexValue? c)) * 16 + (← hexValue? d)

/-- The unit that a letter after a backslash stands for. -/
def escape? : Char → Option Nat
  | '"' => some 0x22
  | '\\' => some 0x5c
  | '/' => some 0x2f
  | 'b' => some 0x08
  | 'f' => some 0x0c
  | 'n' => some 0x0a
  | 'r' => some 0x0d
  | 't' => some 0x09
  | _ => none

/-- The units of a text that ends at the next quote, and what follows the quote. -/
def readUnits? : List Char → Option (List Nat × List Char)
  | [] => none
  | '"' :: cs => some ([], cs)
  | '\\' :: 'u' :: a :: b :: c :: d :: cs => do
    let u ← unit? a b c d
    let (us, rest) ← readUnits? cs
    return (u :: us, rest)
  | '\\' :: e :: cs => do
    let u ← escape? e
    let (us, rest) ← readUnits? cs
    return (u :: us, rest)
  | c :: cs => do
    let (us, rest) ← readUnits? cs
    return (charUnits c ++ us, rest)

/-- The text after an opening quote, and what follows it. -/
def readText? (cs : List Char) : Option (String × List Char) :=
  (readUnits? cs).map fun (us, rest) => (String.ofList (ofUnits us), rest)

/-- Whether a character can stand in a number or a word. -/
def isWordChar (c : Char) : Bool := c.isAlphanum || c == '+' || c == '-' || c == '.'

/-- A number or one of the words, and what follows it. -/
def readWord? (cs : List Char) : Option (Document × List Char) :=
  let word := cs.takeWhile isWordChar
  let rest := cs.dropWhile isWordChar
  if word = "null".toList then some (.null, rest)
  else if word = "true".toList then some (.bool true, rest)
  else if word = "false".toList then some (.bool false, rest)
  else (numeral? word).map fun n => (.number n, rest)

/-- A quoted key and its colon, and what follows them. -/
def readKey? (cs : List Char) : Option (String × List Char) :=
  match skipBlanks cs with
  | '"' :: cs => do
    let (key, cs) ← readText? cs
    match skipBlanks cs with
    | ':' :: cs => return (key, cs)
    | _ => none
  | _ => none

mutual
/-- A document and what follows it. -/
def read? : Nat → List Char → Option (Document × List Char)
  | 0, _ => none
  | fuel + 1, cs =>
    match skipBlanks cs with
    | '"' :: cs => (readText? cs).map fun (s, rest) => (.text s, rest)
    | '[' :: cs =>
      match skipBlanks cs with
      | ']' :: cs => some (.sequence [], cs)
      | cs => (readItems? fuel cs).map fun (xs, rest) => (.sequence xs, rest)
    | '\x7b' :: cs =>
      match skipBlanks cs with
      | '\x7d' :: cs => some (.mapping [], cs)
      | cs => (readMembers? fuel cs).map fun (es, rest) => (.mapping es, rest)
    | cs => readWord? cs

/-- The items of a sequence up to its end, and what follows it. -/
def readItems? : Nat → List Char → Option (List Document × List Char)
  | 0, _ => none
  | fuel + 1, cs => do
    let (x, cs) ← read? fuel cs
    match skipBlanks cs with
    | ']' :: cs => return ([x], cs)
    | ',' :: cs =>
      let (xs, cs) ← readItems? fuel cs
      return (x :: xs, cs)
    | _ => none

/-- The members of a mapping up to its end, and what follows it. -/
def readMembers? : Nat → List Char → Option (List (String × Document) × List Char)
  | 0, _ => none
  | fuel + 1, cs => do
    let (key, cs) ← readKey? cs
    let (x, cs) ← read? fuel cs
    match skipBlanks cs with
    | '\x7d' :: cs => return ([(key, x)], cs)
    | ',' :: cs =>
      let (es, cs) ← readMembers? fuel cs
      return ((key, x) :: es, cs)
    | _ => none
end

/-- The document that a text is. -/
def document? (cs : List Char) : Option Document := do
  let (d, rest) ← read? (cs.length + 1) cs
  if skipBlanks rest = [] then some d else none

end RowLiteral.Json
