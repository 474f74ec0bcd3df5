import RowLiteral.Conversion
import RowLiteral.Row.Materialize
import RowLiteral.Text.KeyOrder

/-!
# Row — access

The attributes of a row under the names of their columns, and its attributes converted on request.
A request is a table of kinds by declared type names.  An attribute of a column whose type the
request does not name, a NULL, and an attribute of the kind asked for are kept as they are.
-/

namespace RowLiteral

namespace Row

/-- The name that no record has an entry for. -/
def unrecorded : String := "__proto__"

/-- The attributes of a row by the names of their columns.  Of columns with one name the first gives
the place and the last the attribute. -/
def record (r : Row) : Table String Attribute :=
  let entries := (r.type.columns.map Column.name).zip r.attributes
  (Table.ofEntries (entries.filter fun e => e.1 ≠ unrecorded)).listed

/-- The text that a value is converted from. -/
def conversionText (machine : Zone) (calendar : Calendar) (v : Value) : String :=
  (v.text? machine calendar).getD "null"

/-- The value that a value is converted to; `none` where it is kept as it is. -/
def convertValue? (s : Session) (calendar : Calendar) (kind : String) (v : Value) :
    Except CodecError (Option Value) :=
  match Target.ofName? kind with
  | none => .error (.unsupportedConversion kind)
  | some target =>
    if target.accepts v.kind then .ok none
    else (convert s.reader calendar target (conversionText s.machine calendar v)).map some

/-- The attribute that stands for one in a column on a request. -/
def convertAttribute (s : Session) (calendar : Calendar) (request : Table String String)
    (c : Column) : Attribute → Except CodecError Attribute
  | none => .ok none
  | some v =>
    match request.get? c.typeName with
    | none => .ok (some v)
    | some kind => (convertValue? s calendar kind v).map fun v' => some (v'.getD v)

/-- The attributes of a row converted on a request, up to the first that fails. -/
def attributesAs (s : Session) (r : Row) (request : Table String String) :
    Except CodecError (List Attribute) :=
  (r.type.columns.zip r.attributes).mapM fun e =>
    convertAttribute s r.header.calendar request e.1 e.2

end Row

end RowLiteral
