import RowLiteral.Decimal.Text
import RowLiteral.Encoding.Charset
import RowLiteral.Geometry
import RowLiteral.RowType

/-!
# Value

The values that stand in the columns of a row.  A *scalar* has no parts that are values; a *row* has
a header and one *attribute* for each column of its type, which is a value or NULL.  The header
holds what the text of the row depends on besides its attributes: the row type, the encoding for
bytes and the calendar for temporal values.

A row that is kept somewhere may have an *identity*, the number under which it is kept: such a row
counts as equal to itself whatever it holds.
-/

namespace RowLiteral

/-- The kinds of values. -/
inductive Kind where
  | bool | int2 | int4 | int8 | float4 | float8 | decimal | char | text | bytes | point | box
  | object
  | temporal (type : TemporalType)
  | composite
deriving DecidableEq, Repr

namespace Kind

/-- The name of a kind. -/
def name : Kind → String
  | .bool => "bool"
  | .int2 => "int2"
  | .int4 => "int4"
  | .int8 => "int8"
  | .float4 => "float4"
  | .float8 => "float8"
  | .decimal => "decimal"
  | .char => "char"
  | .text => "text"
  | .bytes => "bytes"
  | .point => "point"
  | .box => "box"
  | .object => "object"
  | .temporal type => type.name
  | .composite => "composite"

/-- Every kind. -/
def all : List Kind :=
  [.bool, .int2, .int4, .int8, .float4, .float8, .decimal, .char, .text, .bytes, .point, .box,
    .object, .temporal .date, .temporal .time, .temporal .timestamp, .composite]

/-- The kind of a name. -/
def ofName? (s : String) : Option Kind := all.find? fun k => k.name = s

end Kind

/-- A value without parts.  The numbers of `int2`, `int4` and the floats are doubles; nothing but
the way in which they were made keeps them within the range of their kind. -/
inductive Scalar where
  | bool (b : Bool)
  | int2 (x : Double)
  | int4 (x : Double)
  | int8 (n : Int)
  | float4 (x : Double)
  | float8 (x : Double)
  | decimal (d : Decimal)
  | char (s : String)
  | text (s : String)
  | bytes (bs : List UInt8)
  | point (p : Point)
  | box (b : Box)
  /-- A type label with a text or nothing, for types that have no form of their own here. -/
  | object (label : String) (content : Option String)
  | temporal (type : TemporalType) (m : Moment)
deriving DecidableEq

namespace Scalar

/-- The kind of a scalar. -/
def kind : Scalar → Kind
  | .bool _ => .bool
  | .int2 _ => .int2
  | .int4 _ => .int4
  | .int8 _ => .int8
  | .float4 _ => .float4
  | .float8 _ => .float8
  | .decimal _ => .decimal
  | .char _ => .char
  | .text _ => .text
  | .bytes _ => .bytes
  | .point _ => .point
  | .box _ => .box
  | .object _ _ => .object
  | .temporal type _ => .temporal type

/-- A number in single precision. -/
def single (x : Double) : Scalar := .float4 x.toSingle

/-- A whole number as an `int2`. -/
def ofInt2 (n : Int) : Scalar := .int2 (.ofInt n)

/-- A whole number as an `int4`. -/
def ofInt4 (n : Int) : Scalar := .int4 (.ofInt n)

end Scalar

/-- What a row has besides its attributes. -/
structure RowHeader where
  type : RowType
  encoding : Encoding
  calendar : Calendar
  identity : Option Nat

/-- A scalar or a row. -/
inductive Value where
  | scalar (s : Scalar)
  | row (header : RowHeader) (attributes : List (Option Value))

/-- A value or NULL. -/
abbrev Attribute := Option Value

/-- A row type with one attribute for each column, and what the text of the row depends on. -/
structure Row where
  header : RowHeader
  attributes : List Attribute

/-- The row type of a row. -/
def Row.type (r : Row) : RowType := r.header.type

/-- The row kept under a number. -/
def Row.keptAs (n : Nat) (r : Row) : Row :=
  { r with header := { r.header with identity := some n } }

namespace Value

/-- The kind of a value. -/
def kind : Value → Kind
  | .scalar s => s.kind
  | .row _ _ => .composite

/-- A row as a value. -/
def ofRow (r : Row) : Value := .row r.header r.attributes

/-- A text as a value. -/
def text (s : String) : Value := .scalar (.text s)

end Value

end RowLiteral
