import RowLiteral.Log
import RowLiteral.Text.Hash
import RowLiteral.Value.Text

/-!
# Coercion

A value is reshaped to the type of the column in which it is to stand: numbers are narrowed or
widened, texts become truth values, characters, geometry or objects.  `reshape` gives the new
value, or nothing where the value is kept as it is because it has the shape already or has none that
the type could take.  It fails only for an `int4` that holds a fraction and is to become an integer
of 64 bits; `coerce` reports that and keeps the value too.
-/

namespace RowLiteral
open Text

/-! ### Truth values -/

/-- The words for true. -/
def trueWords : List String := ["1", "true", "t", "yes", "y", "on"]

/-- The words for false. -/
def falseWords : List String := ["0", "false", "f", "no", "n", "off"]

/-- The truth value that a text spells, in any case and with blanks around it. -/
def boolOfText? (s : String) : Option Bool :=
  let word := lower (trim s)
  if word ∈ trueWords then some true else if word ∈ falseWords then some false else none

/-- The truth value that a single character spells. -/
def boolOfChar? (s : String) : Option Bool :=
  if s ∈ ["1", "t", "T", "y", "Y"] then some true
  else if s ∈ ["0", "f", "F", "n", "N"] then some false
  else none

/-- One is true and zero is false. -/
def boolOfNumber? (x : Double) : Option Bool :=
  if x = .one then some true else if x.isZero then some false else none

/-- The truth value that a scalar can be read as. -/
def Scalar.bool? : Scalar → Option Bool
  | .bool b => some b
  | .text s => boolOfText? s
  | .char s => boolOfChar? s
  | .int2 x | .int4 x | .float4 x | .float8 x => boolOfNumber? x
  | .int8 n => boolOfNumber? (.ofInt n)
  | .decimal d => boolOfNumber? d.toDouble
  | _ => none

/-- The truth value that a value can be read as. -/
def Value.bool? : Value → Option Bool
  | .scalar s => s.bool?
  | .row _ _ => none

/-! ### Shapes -/

/-- A number that is not whole. -/
structure Fraction where
  number : Double
deriving DecidableEq, Repr

/-- What a fraction is refused with where an integer is needed. -/
def Fraction.message (f : Fraction) : String :=
  s!"The number {f.number.toText} cannot be converted to a BigInt because it is not an integer"

/-- The low 16 bits of an integer, as a signed number. -/
def wrap16 (n : Int) : Int := n.bmod 65536

/-- The shape of a scalar as a type of the given number of columns, if it changes. -/
def Scalar.reshape (type : ColumnType) (s : Scalar) : Except Fraction (Option Scalar) :=
  match type, s with
  | .int2, .int4 x => .ok (some (.ofInt2 (wrap16 x.truncate)))
  | .int2, .int8 n => .ok (some (.ofInt2 (wrap16 n)))
  | .int4, .int8 n => .ok (some (.ofInt4 (wrap32 n)))
  | .int8, .int4 x | .oid, .int4 x =>
    match x.toInt? with
    | some n => .ok (some (.int8 n))
    | none => .error ⟨x⟩
  | .float4, .float8 x | .float4, .int4 x => .ok (some (.single x))
  | .float4, .int8 n => .ok (some (.single (.ofInt n)))
  | .float8, .float4 x | .float8, .int4 x => .ok (some (.float8 x))
  | .float8, .int8 n => .ok (some (.float8 (.ofInt n)))
  | .numeric, .int4 x | .numeric, .float4 x | .numeric, .float8 x =>
    .ok (if x.isFinite then some (.decimal (.ofDouble x)) else none)
  | .bool, .bool _ | .bit, .bool _ => .ok none
  | .bool, s | .bit, s => .ok (s.bool?.map .bool)
  | .char, .text t | .bpchar, .text t => .ok (if unitLength t = 1 then some (.char t) else none)
  | .point, .text t => .ok ((Point.ofText? t).map .point)
  | .box, .text t => .ok ((Box.ofText? t).map .box)
  | .json, .text t | .json, .char t => .ok (some (.object "json" (some t)))
  | .varbit, .text t | .varbit, .char t => .ok (some (.object "unknown" (some t)))
  | _, _ => .ok none

/-- The shape of a text in a column of text: a character, if it has one unit. -/
def textShape (t : String) : Scalar := if unitLength t = 1 then .char t else .text t

/-- The shape of a value in a column of text, if it changes; values are written in the machine's
zone. -/
def Value.reshapeText (machine : Zone) : Value → Option Scalar
  | .scalar (.char t) => if unitLength t = 1 then none else some (textShape t)
  | .scalar (.text t) => if unitLength t = 1 then some (.char t) else none
  | v => (v.text? machine .machine).map textShape

/-- The shape of a value as a type, if it changes. -/
def Value.reshape (machine : Zone) (type : ColumnType) (v : Value) :
    Except Fraction (Option Value) :=
  match type, v with
  | .text, v => .ok ((v.reshapeText machine).map .scalar)
  | type, .scalar s => (s.reshape type).map (Option.map .scalar)
  | _, .row _ _ => .ok none

/-- The new shape of a value as the type of an identifier; `none` where it is kept as it is. -/
def Value.coerce? (machine : Zone) (v : Value) (t : TypeId) : Logged (Option Value) :=
  match ColumnType.ofId? t with
  | none => .quiet none
  | some type =>
    match v.reshape machine type with
    | .ok v' => .quiet v'
    | .error f =>
      let message := s!"Leaving {v.kind.name} value unchanged for type {t}: {f.message}"
      ⟨none, [⟨.debug, .coercion, message, none⟩]⟩

/-- A value in the shape of the type of an identifier. -/
def Value.coerce (machine : Zone) (v : Value) (t : TypeId) : Value :=
  (v.coerce? machine t).value.getD v

end RowLiteral
