import RowLiteral.Text.Blank
import RowLiteral.Types.Document

/-!
# Types — block documents

Reading a text in lines: nested mappings by indentation, with plain keys and plain scalars.  Lines
that are blank or start with `#` do not count.  A key without a scalar has the mapping of the lines
that are indented further, or null.  A text without such lines is no document.
-/

namespace RowLiteral.Block
open RowLiteral.Number RowLiteral.Text

/-- A line: how far it is indented, its key, and the text after the colon. -/
structure Line where
  indent : Nat
  key : List Char
  rest : List Char
deriving DecidableEq, Repr

/-- Blanks inside a line. -/
def isGap (c : Char) : Bool := c == ' ' || c == '\t' || c == '\r'

/-- A list of characters without the blanks at its end. -/
def dropGapsRight (cs : List Char) : List Char := (cs.reverse.dropWhile isGap).reverse

/-- The part of a line before a comment, which starts with `#` after a blank. -/
def beforeComment : List Char → List Char
  | [] => []
  | c :: cs => if isGap c && cs.head? = some '#' then [] else c :: beforeComment cs

/-- The key of a line and what follows its colon, which ends the line or has a blank after it. -/
def splitKey? : List Char → Option (List Char × List Char)
  | [] => none
  | c :: cs =>
    if c = ':' && (cs = [] || cs.head?.any isGap) then some ([], cs)
    else (splitKey? cs).map fun (key, rest) => (c :: key, rest)

/-- The lines of a text. -/
def splitLines : List Char → List (List Char)
  | [] => [[]]
  | c :: cs =>
    match splitLines cs with
    | line :: lines => if c = '\n' then [] :: line :: lines else (c :: line) :: lines
    | [] => [[c]]

/-- A line without its indentation, comment and blanks at the end; `none` where nothing is left. -/
def content? (cs : List Char) : Option (Nat × List Char) :=
  let body := cs.dropWhile (· == ' ')
  let text := if body.head? = some '#' then [] else dropGapsRight (beforeComment body)
  if text = [] then none else some (cs.length - body.length, text)

/-- The line with some content; `none` where it has no key. -/
def line? (content : Nat × List Char) : Option Line :=
  (splitKey? content.2).map fun (key, rest) => ⟨content.1, dropGapsRight key, rest.dropWhile isGap⟩

/-- The words for null. -/
def nullWords : List String := ["", "null", "Null", "NULL", "~"]

/-- The words for true. -/
def trueWords : List String := ["true", "True", "TRUE"]

/-- The words for false. -/
def falseWords : List String := ["false", "False", "FALSE"]

/-- The document of a plain scalar. -/
def scalar (cs : List Char) : Document :=
  let s := String.ofList cs
  if s ∈ nullWords then .null
  else if s ∈ trueWords then .bool true
  else if s ∈ falseWords then .bool false
  else match numeral? cs with
    | some n => .number n
    | none => .text s

/-- The text of a plain key; an integer is written anew. -/
def keyText (cs : List Char) : String :=
  match integer? cs with
  | some n => toString n
  | none => String.ofList cs

/-- The entries of the lines that are indented as far as given, and the lines after them. -/
def readEntries : Nat → Nat → List Line → List (String × Document) × List Line
  | 0, _, lines => ([], lines)
  | _, _, [] => ([], [])
  | fuel + 1, indent, line :: lines =>
    if line.indent ≠ indent then ([], line :: lines)
    else
      let (value, lines) : Document × List Line :=
        match line.rest, lines with
        | [], next :: lines =>
          if indent < next.indent then
            let (entries, rest) := readEntries fuel next.indent (next :: lines)
            (.mapping entries, rest)
          else (.null, next :: lines)
        | rest, lines => (scalar rest, lines)
      let (entries, lines) := readEntries fuel indent lines
      ((keyText line.key, value) :: entries, lines)

/-- The document that a text is; `none` where it has no lines that count. -/
def document? (cs : List Char) : Option Document :=
  match (splitLines cs).filterMap content? with
  | [] => none
  | content :: contents =>
    match (content :: contents).mapM line? with
    | none => some (scalar content.2)
    | some lines => some (.mapping (readEntries (lines.length + 1) content.1 lines).1)

end RowLiteral.Block
