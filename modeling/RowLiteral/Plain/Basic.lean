import RowLiteral.Row.Access
import RowLiteral.Value.Equality

/-!
# Plain values

The values that callers hand in: absent values, truth values, numbers, integers of any size, texts,
bytes, dates, decimals, values and rows of this library, lists and objects.  `Plain.toAttribute`
turns one into an attribute.  An object that names a kind and has a payload of it is the value that
it spells; any other object is refused, and so is a list.
-/

namespace RowLiteral

/-- A value as callers have it. -/
inductive Plain where
  | absent
  | null
  | bool (b : Bool)
  | number (x : Double)
  | integer (n : Int)
  | text (s : String)
  | bytes (bs : List UInt8)
  | date (m : Moment)
  | decimal (d : Decimal)
  | value (v : Value)
  | row (r : Row)
  | list (xs : List Plain)
  | object (members : List (String × Plain))

namespace Plain

/-- The member of an object. -/
def member? (members : List (String × Plain)) (key : String) : Option Plain :=
  Table.get? members key

/-- The kind that an object names, if it also has a value. -/
def namedKind? (members : List (String × Plain)) : Option Kind :=
  match member? members "kind", member? members "value" with
  | some (.text kind), some _ => Kind.ofName? kind
  | _, _ => none

/-- Whether a plain value is a value of this library: one, or an object that names a kind. -/
def isValue : Plain → Bool
  | .value _ => true
  | .object members => (namedKind? members).isSome
  | _ => false

/-- The value that an object spells by a kind and a payload. -/
def spelled? (members : List (String × Plain)) : Option Value :=
  match namedKind? members, member? members "value" with
  | some .bool, some (.bool b) => some (.scalar (.bool b))
  | some .int2, some (.number x) => some (.scalar (.int2 x))
  | some .int4, some (.number x) => some (.scalar (.int4 x))
  | some .float4, some (.number x) => some (.scalar (.float4 x))
  | some .float8, some (.number x) => some (.scalar (.float8 x))
  | some .int8, some (.integer n) => some (.scalar (.int8 n))
  | some .decimal, some (.decimal d) => some (.scalar (.decimal d))
  | some .char, some (.text s) => some (.scalar (.char s))
  | some .text, some (.text s) => some (.scalar (.text s))
  | some .bytes, some (.bytes bs) => some (.scalar (.bytes bs))
  | some (.temporal type), some (.date m) => some (.scalar (.temporal type m))
  | some .composite, some (.row r) => some (.ofRow r)
  | _, _ => none

/-- The greatest integer below which every integer is a double. -/
def safeInteger : Nat := 9007199254740991

/-- A number as a value: an `int4` where it is an integer of 32 bits, an `int8` where it is another
safe integer, and a `float8` otherwise. -/
def ofNumber (x : Double) : Scalar :=
  match x.toInt? with
  | none => .float8 x
  | some n =>
    if (Number.Range.int32.keep? n).isSome then .int4 x
    else if n.natAbs ≤ safeInteger then .int8 n
    else .float8 x

/-- The attribute of a plain value. -/
def toAttribute : Plain → Except CodecError Attribute
  | .absent | .null => .ok none
  | .bool b => .ok (some (.scalar (.bool b)))
  | .number x => .ok (some (.scalar (ofNumber x)))
  | .integer n => .ok (some (.scalar (.int8 n)))
  | .text s => .ok (some (.text s))
  | .bytes bs => .ok (some (.scalar (.bytes bs)))
  | .date m => .ok (some (.scalar (.temporal .timestamp m)))
  | .decimal d => .ok (some (.scalar (.decimal d)))
  | .value v => .ok (some v)
  | .row r => .ok (some (.ofRow r))
  | .list _ => .error (.unsupportedAttribute "Array")
  | .object members =>
    match spelled? members with
    | some v => .ok (some v)
    | none => .error (.unsupportedAttribute "Object")

/-- Whether a plain value is a row that is equal to a given one. -/
def equalsRow (r : Row) : Plain → Bool
  | .row s => r.equals s
  | _ => false

end Plain

end RowLiteral
