import RowLiteral.Coercion
import RowLiteral.Error

/-!
# Row — materialization

A row is made from raw attributes.  An attribute in a temporal column is read in the calendar of the
session, unless it is of that type already; one in any other column is coerced.  What cannot be read
is reported and kept as it is.  Attributes that are missing are NULL, and those beyond the last
column are dropped, which is reported too.

A report shows what the reader of temporal text has thrown.  In a `Session` that is a failure, which
has a text, so that a row is made of everything.  In an `OpenSession` it may be a thing that cannot
be shown: then no row is made.
-/

namespace RowLiteral
open Text

/-- What the making of rows depends on: the encoding and the calendar that rows take over, the
readers of temporal text, and the zone of the machine. -/
structure SessionOf (ε : Type) where
  encoding : Encoding
  calendar : Calendar
  reader : TemporalReaderOf ε
  machine : Zone

/-- A session whose readers throw failures only. -/
abbrev Session := SessionOf TemporalFailure

/-- A session whose readers may throw anything. -/
abbrev OpenSession := SessionOf Thrown

/-- The temporal type of a column type. -/
def ColumnType.temporal? : ColumnType → Option TemporalType
  | .date => some .date
  | .time | .timetz => some .time
  | .timestamp | .timestamptz => some .timestamp
  | _ => none

/-- The temporal type of a column. -/
def Column.temporal? (c : Column) : Option TemporalType :=
  (ColumnType.ofId? c.typeId).bind ColumnType.temporal?

namespace Session

/-- The header of the rows of a type. -/
def header (s : Session) (type : RowType) : RowHeader := ⟨type, s.encoding, s.calendar, none⟩

/-- A value as a report shows it. -/
def shown (s : Session) (v : Value) : String :=
  abbreviate logLimit ((v.text? s.machine .machine).getD "null")

/-- The temporal value that a value spells; `none` where it is kept as it is. -/
def readTemporal? (s : Session) (type : TemporalType) (c : Column) (v : Value) :
    Logged (Option Value) :=
  if v.kind = .temporal type then .quiet none
  else match s.reader.read type s.calendar ((v.text? s.machine s.calendar).getD "") with
    | .ok m => .quiet (some (.scalar (.temporal type m)))
    | .error why =>
      let message := s!"Keeping raw value {s.shown v} for {c.name}: {why.message}"
      ⟨none, [⟨.debug, .row, message, none⟩]⟩

/-- The value that stands in a column for a raw value; `none` where that is kept as it is. -/
def resolve? (s : Session) (c : Column) (v : Value) : Logged (Option Value) :=
  match c.temporal? with
  | some type => s.readTemporal? type c v
  | none => v.coerce? s.machine c.typeId

/-- The attribute that stands in a column for a raw one. -/
def resolve (s : Session) (c : Column) : Attribute → Logged Attribute
  | none => .quiet none
  | some v => (s.resolve? c v).map fun v' => some (v'.getD v)

/-- The attributes that stand in columns for raw ones. -/
def resolveAll (s : Session) : List Column → List Attribute → List (Logged Attribute)
  | [], _ => []
  | c :: cs, [] => s.resolve c none :: s.resolveAll cs []
  | c :: cs, a :: as => s.resolve c a :: s.resolveAll cs as

/-- The report on a number of attributes that is not that of the columns. -/
def countReport (type : RowType) (raw : List Attribute) : List Entry :=
  if raw.length = type.columns.length then []
  else
    let message := s!"{type.name} expects {type.columns.length} attributes, got {raw.length}"
    [⟨.warn, .row, message, none⟩]

/-- The row of a type that raw attributes make. -/
def materialize (s : Session) (type : RowType) (raw : List Attribute) : Logged Row :=
  let attributes := Logged.collect (s.resolveAll type.columns raw)
  ⟨⟨s.header type, attributes.value⟩, countReport type raw ++ attributes.entries⟩

end Session

/-! ### Readers that throw anything -/

/-- What was thrown as a failure: a thing that cannot be shown gives its message. -/
def Thrown.told : Thrown → TemporalFailure
  | .shown why => why
  | .unshowable message => .failed message

namespace OpenSession

/-- The session in which all that is thrown has a text. -/
def told (s : OpenSession) : Session :=
  ⟨s.encoding, s.calendar, s.reader.mapError Thrown.told, s.machine⟩

/-- What the reader gives for a value in a column; `none` where the column is not temporal or the
value is of its type already. -/
def reading? (s : OpenSession) (c : Column) (v : Value) : Option (Except Thrown Moment) :=
  match c.temporal? with
  | some type =>
    if v.kind = .temporal type then none
    else some (s.reader.read type s.calendar ((v.text? s.machine s.calendar).getD ""))
  | none => none

/-- Why no row can be made with a raw attribute in a column: what the reader throws of it cannot be
shown. -/
def obstacle? (s : OpenSession) (c : Column) (a : Attribute) : Option String :=
  match a.bind (s.reading? c) with
  | some (.error (.unshowable message)) => some message
  | _ => none

/-- The attributes that stand in columns for raw ones, up to the first obstacle. -/
def resolveAll (s : OpenSession) :
    List Column → List Attribute → Logged (Except CodecError (List Attribute))
  | [], _ => .quiet (.ok [])
  | c :: cs, as =>
    match s.obstacle? c as.head?.join with
    | some message => .quiet (.error (.unshowable message))
    | none =>
      let first := s.told.resolve c as.head?.join
      let rest := s.resolveAll cs as.tail
      ⟨rest.value.map fun attributes => first.value :: attributes, first.entries ++ rest.entries⟩

/-- The row of a type that raw attributes make, or why none can be made. -/
def materialize (s : OpenSession) (type : RowType) (raw : List Attribute) :
    Logged (Except CodecError Row) :=
  let attributes := s.resolveAll type.columns raw
  ⟨attributes.value.map fun as => ⟨s.told.header type, as⟩,
    Session.countReport type raw ++ attributes.entries⟩

end OpenSession

end RowLiteral
