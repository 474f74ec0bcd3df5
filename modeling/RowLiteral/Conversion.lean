import RowLiteral.Coercion
import RowLiteral.Number.Integer

/-!
# Conversion

On request the text of a value is read as a value of another kind.  The *targets* are the kinds that
can be asked for.  A kind that is no target cannot be converted to; a text that spells no value of
the target is an error that names both.
-/

namespace RowLiteral

/-- What a value can be converted to. -/
inductive Target where
  | integer | long | double | decimal | string | boolean | timestamp
deriving DecidableEq, Repr

namespace Target

/-- Every target. -/
def all : List Target := [.integer, .long, .double, .decimal, .string, .boolean, .timestamp]

/-- The name of a target. -/
def name : Target → String
  | .integer => "integer"
  | .long => "long"
  | .double => "double"
  | .decimal => "decimal"
  | .string => "string"
  | .boolean => "boolean"
  | .timestamp => "timestamp"

/-- The target of a name. -/
def ofName? (s : String) : Option Target := all.find? fun t => t.name = s

/-- Whether values of a kind are values of the target already. -/
def accepts : Target → Kind → Bool
  | .integer, k => k = .int4
  | .long, k => k = .int8
  | .double, k => k = .float8
  | .decimal, k => k = .decimal
  | .string, k => k = .text
  | .boolean, k => k = .bool
  | .timestamp, k => match k with
    | .temporal _ => true
    | _ => false

/-- The value of the target that a text spells, if the target is not temporal. -/
def ofText? : Target → String → Option Scalar
  | .integer, s => (Number.Range.int32.integerOfText? s).map .ofInt4
  | .long, s => (Number.Range.int64.integerOfText? s).map .int8
  | .double, s => (Double.ofText? s).map .float8
  | .decimal, s => (Decimal.ofText? s).map .decimal
  | .string, s => some (.text s)
  | .boolean, s => (boolOfText? s).map .bool
  | .timestamp, _ => none

end Target

/-- Reads a text as a value of a target. -/
def convert (reader : TemporalReader) (calendar : Calendar) (target : Target) (s : String) :
    Except CodecError Value :=
  match target with
  | .timestamp =>
    match reader.timestamp calendar s with
    | .ok m => .ok (.scalar (.temporal .timestamp m))
    | .error (.unreadable _ _) => .error (.invalidValue target.name s)
    | .error e => .error (.temporal e)
  | target =>
    match target.ofText? s with
    | some v => .ok (.scalar v)
    | none => .error (.invalidValue target.name s)

/-- Reads a text as a value of the kind of a name. -/
def convertText (reader : TemporalReader) (calendar : Calendar) (kind s : String) :
    Except CodecError Value :=
  match Target.ofName? kind with
  | some target => convert reader calendar target s
  | none => .error (.unsupportedConversion kind)

end RowLiteral
