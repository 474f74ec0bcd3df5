import RowLiteral.Literal.Scan
import RowLiteral.Types.File

/-!
# Codec

A codec reads literals as rows.  It is opened with settings and row types, and more types can be
defined later.  A token of a column that has the type of a registered row is itself a literal and is
read in the same way; any other token is taken as a text and then given the shape of its column.
Reading ends because a token is shorter than its literal.
-/

namespace RowLiteral
open Text Literal

/-- A registry of row types and what rows depend on. -/
structure Codec where
  registry : Registry
  session : Session

namespace Codec

/-- What is reported when a codec has been opened. -/
def readyReport (c : Codec) : Entry :=
  let settings := s!"encoding {c.session.encoding.name}, time zone {c.session.calendar.name}"
  ⟨.log, .service, s!"Codec ready ({settings}, {c.registry.types.length} composite types)", none⟩

/-- A codec for a session, with row types defined one after the other. -/
def ofSession (session : Session) (types : List RowTypeDefinition) :
    Logged (Except CodecError Codec) :=
  let defined := (Registry.empty Catalog.builtin).defineAll types
  match defined.value with
  | .error e => ⟨.error e, defined.entries⟩
  | .ok registry =>
    let c : Codec := ⟨registry, session⟩
    ⟨.ok c, defined.entries ++ [c.readyReport]⟩

/-- The session that settings give on a machine in a zone with given decoders. -/
def sessionOf (machine : Zone) (decoders : Decoders) (settings : Settings) :
    Except CodecError Session :=
  (Encoding.ofName decoders settings.clientEncoding).map fun encoding =>
    ⟨encoding, settings.calendar, Temporal.reader machine, machine⟩

/-- The codec that settings and row types give. -/
def ofSettings (machine : Zone) (decoders : Decoders) (settings : Option Settings)
    (types : List RowTypeDefinition) : Logged (Except CodecError Codec) :=
  match settings with
  | none => .quiet (.error .settingsAbsent)
  | some settings =>
    match sessionOf machine decoders settings with
    | .error e => .quiet (.error e)
    | .ok session => ofSession session types

/-- The row type of a name. -/
def rowType (c : Codec) (name : String) : Except CodecError RowType :=
  match c.registry.get? name with
  | some t => .ok t
  | none => .error (.unknownRowType name)

/-- Defines a row type: the row type, or why there is none, and the codec after it. -/
def define (c : Codec) (name : String) (ds : List ColumnDefinition) :
    Logged (Except CodecError RowType × Codec) :=
  (c.registry.defineLogged name ds).map fun (answer, registry) => (answer, { c with registry })

/-- The row type that the tokens of a column are literals of. -/
def nested? (c : Codec) (column : Option Column) : Option RowType :=
  match column with
  | some column =>
    if column.typeId = ColumnType.record.id then c.registry.get? column.typeName else none
  | none => none

/-- What is reported of a literal that has been read. -/
def parsedReport (type : RowType) (literal : String) : Entry :=
  ⟨.debug, .service, s!"Parsed {type.name} from {abbreviate logLimit literal}", none⟩

/-- Reads a literal as a row of a type. -/
def parse (c : Codec) (type : RowType) (literal : String) : Logged Row :=
  let fields : List (Logged Attribute) := (scanRow literal).attach.mapIdx fun i token =>
    match token with
    | ⟨none, _⟩ => .quiet none
    | ⟨some text, mem⟩ =>
      have : text.length < literal.length := length_lt_of_mem_scan mem
      match c.nested? type.columns[i]? with
      | some t => (c.parse t text).map fun r => some (.ofRow r)
      | none => .quiet (some (.text text))
  let raw := Logged.collect fields
  let row := c.session.materialize type raw.value
  ⟨row.value, raw.entries ++ parsedReport type literal :: row.entries⟩
termination_by literal.length

/-- Reads a literal as a row of the type of a name. -/
def parseNamed (c : Codec) (typeName literal : String) : Logged (Except CodecError Row) :=
  match c.rowType typeName with
  | .error e => .quiet (.error e)
  | .ok type => (c.parse type literal).map .ok

/-- Reads a literal as the record of a row of a type. -/
def readRecord (c : Codec) (type : RowType) (literal : String) : Logged (Table String Attribute) :=
  (c.parse type literal).map Row.record

end Codec

/-- Makes a row of a type from plain values. -/
def OpenSession.materializePlain (s : OpenSession) (type : RowType) (values : List Plain) :
    Logged (Except CodecError Row) :=
  match values.mapM Plain.toAttribute with
  | .error e => .quiet (.error e)
  | .ok raw => s.materialize type raw

end RowLiteral
