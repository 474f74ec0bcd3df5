import RowLiteral.Text.Quoted
import RowLiteral.Value.Basic

/-!
# Value — text

The text of a value, and the literal of a row.  The literal is made in two steps: `outgoing?` gives
for each attribute the token that is to be read back, or nothing for NULL and for an object without
content, and `writeToken` puts a token between quotes where it holds a character that would end or
change the scan.

On the way out a nested row has its quotes and backslashes doubled once more, and an object of the
type `json` has a backslash put before each quote.
-/

namespace RowLiteral
open Text

/-! ### Scalars -/

/-- The text of a truth value. -/
def boolText (b : Bool) : String := if b then "true" else "false"

/-- The two hexadecimal digits of a byte. -/
def hexByte (b : UInt8) : List Char :=
  [Nat.digitChar (b.toNat / 16), Nat.digitChar (b.toNat % 16)]

/-- Bytes in hexadecimal digits. -/
def hexText (bs : List UInt8) : String := String.ofList (bs.flatMap hexByte)

/-- The text of a scalar in a zone; `none` for an object without content. -/
def Scalar.text? (zone : Zone) : Scalar → Option String
  | .bool b => some (boolText b)
  | .int2 x | .int4 x | .float4 x | .float8 x => some x.toText
  | .int8 n => some (toString n)
  | .decimal d => some d.toText
  | .char s | .text s => some s
  | .bytes bs => some ("\\x" ++ hexText bs)
  | .point p => some p.toText
  | .box b => some b.toText
  | .object _ content => content
  | .temporal type m => some (Temporal.format zone type m)

/-! ### Rows -/

/-- The characters that have to stand between quotes. -/
def needsQuoting (c : Char) : Bool :=
  c == '\\' || c == '"' || c == '(' || c == ')' || c == ' ' || c == ',' || isLayoutControl c

/-- A token as it stands in the literal. -/
def writeToken : Option (List Char) → List Char
  | none => []
  | some cs => if cs.any needsQuoting then enquote cs else cs

/-- The literal with given tokens. -/
def writeRow (tokens : List (Option (List Char))) : List Char :=
  '(' :: List.intercalate [','] (tokens.map writeToken) ++ [')']

/-- The text of a scalar in a column of a row, before it is made fit for the literal. -/
def Scalar.columnText? (machine : Zone) (h : RowHeader) (c : Column) (s : Scalar) : Option String :=
  match s with
  | .bytes bs => some (h.encoding.decode bs)
  | .bool b => some (if c.typeId = ColumnType.bit.id then (if b then "1" else "0") else boolText b)
  | s => s.text? (h.calendar.zone machine)

/-- The token of a scalar in a column of a row. -/
def Scalar.outgoing? (machine : Zone) (h : RowHeader) (c : Column) (s : Scalar) :
    Option (List Char) :=
  (s.columnText? machine h c).map fun text =>
    match s with
    | .object label _ => if label = "json" then escapeQuotes text.toList else text.toList
    | _ => text.toList

mutual
/-- The token of an attribute in a column of a row. -/
def outgoing? (machine : Zone) (h : RowHeader) (c : Column) : Option Value → Option (List Char)
  | none => none
  | some (.scalar s) => s.outgoing? machine h c
  | some (.row h' attributes) =>
    some (doubled (writeRow (outgoingTokens machine h' h'.type.columns attributes)))

/-- The tokens of the attributes of a row. -/
def outgoingTokens (machine : Zone) (h : RowHeader) :
    List Column → List (Option Value) → List (Option (List Char))
  | c :: cs, a :: as => outgoing? machine h c a :: outgoingTokens machine h cs as
  | _, _ => []
end

namespace Row

/-- The tokens of a row. -/
def tokens (machine : Zone) (r : Row) : List (Option (List Char)) :=
  outgoingTokens machine r.header r.type.columns r.attributes

/-- The literal of a row, on a machine in a zone. -/
def render (machine : Zone) (r : Row) : String := String.ofList (writeRow (r.tokens machine))

end Row

/-- The text of a value in a calendar, on a machine in a zone; a row has its own calendar. -/
def Value.text? (machine : Zone) (calendar : Calendar) : Value → Option String
  | .scalar s => s.text? (calendar.zone machine)
  | .row h attributes => some (Row.render machine ⟨h, attributes⟩)

end RowLiteral
