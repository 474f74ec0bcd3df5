import RowLiteral.Table

/-!
# Column types

The types that the server numbers.  A *type identifier* is such a number; the *column types* are the
ones that the codec treats in a way of their own.  A *catalog* turns identifiers into names and
names into identifiers, in whatever way.  One can be made from a list of types with their names and
further spellings, of which what is listed later counts.
-/

namespace RowLiteral

/-- The number of a type on the server. -/
abbrev TypeId := Int

/-- The types that the codec knows by their numbers. -/
inductive ColumnType where
  | bool | bytea | char | int8 | int2 | int4 | text | oid | json | point | box | float4 | float8
  | bpchar | varchar | date | time | timestamp | timestamptz | timetz | bit | varbit | numeric
  | record
deriving DecidableEq, Repr

namespace ColumnType

/-- Every column type, in the order of their names. -/
def all : List ColumnType :=
  [.bit, .bool, .box, .bpchar, .bytea, .char, .date, .float4, .float8, .int2, .int4, .int8, .json,
    .numeric, .oid, .point, .record, .text, .time, .timestamp, .timestamptz, .timetz, .varbit,
    .varchar]

/-- The number of a column type. -/
def id : ColumnType → TypeId
  | .bool => 16
  | .bytea => 17
  | .char => 18
  | .int8 => 20
  | .int2 => 21
  | .int4 => 23
  | .text => 25
  | .oid => 26
  | .json => 114
  | .point => 600
  | .box => 603
  | .float4 => 700
  | .float8 => 701
  | .bpchar => 1042
  | .varchar => 1043
  | .date => 1082
  | .time => 1083
  | .timestamp => 1114
  | .timestamptz => 1184
  | .timetz => 1266
  | .bit => 1560
  | .varbit => 1562
  | .numeric => 1700
  | .record => 2249

/-- The name of a column type. -/
def name : ColumnType → String
  | .bool => "BOOL"
  | .bytea => "BYTEA"
  | .char => "CHAR"
  | .int8 => "INT8"
  | .int2 => "INT2"
  | .int4 => "INT4"
  | .text => "TEXT"
  | .oid => "OID"
  | .json => "JSON"
  | .point => "POINT"
  | .box => "BOX"
  | .float4 => "FLOAT4"
  | .float8 => "FLOAT8"
  | .bpchar => "BPCHAR"
  | .varchar => "VARCHAR"
  | .date => "DATE"
  | .time => "TIME"
  | .timestamp => "TIMESTAMP"
  | .timestamptz => "TIMESTAMPTZ"
  | .timetz => "TIMETZ"
  | .bit => "BIT"
  | .varbit => "VARBIT"
  | .numeric => "NUMERIC"
  | .record => "RECORD"

/-- The column type with a number. -/
def ofId? (t : TypeId) : Option ColumnType := all.find? fun c => c.id = t

theorem mem_all (c : ColumnType) : c ∈ all := by cases c <;> decide

theorem ofId?_id (c : ColumnType) : ofId? c.id = some c := by cases c <;> decide

theorem ofId?_eq_some_iff {t : TypeId} {c : ColumnType} : ofId? t = some c ↔ t = c.id := by
  constructor
  · intro h
    have := List.find?_some h
    simp only [decide_eq_true_eq] at this
    exact this.symm
  · rintro rfl
    exact ofId?_id c

end ColumnType

/-! ### Catalogs -/

/-- A type of a catalog: its number, its name and the further spellings of its name. -/
structure CatalogEntry where
  id : TypeId
  name : String
  aliases : List String
deriving DecidableEq, Repr

/-- What tells the names of types by their numbers, and their numbers by spellings of names. -/
structure Catalog where
  /-- The name of a type. -/
  name? : TypeId → Option String
  /-- The number of a type. -/
  id? : String → Option TypeId

/-- The names of types by number, and the numbers of types by every spelling of their names. -/
structure CatalogTables where
  names : Table TypeId String
  ids : Table String TypeId

namespace CatalogTables

/-- The tables with one more type. -/
def add (ts : CatalogTables) (e : CatalogEntry) : CatalogTables :=
  ⟨ts.names.put e.id e.name, ts.ids.putAll ((e.name :: e.aliases).map fun s => (s, e.id))⟩

/-- The tables of a list of types. -/
def ofEntries (es : List CatalogEntry) : CatalogTables := es.foldl add ⟨[], []⟩

/-- The catalog that looks up what it tells. -/
def catalog (ts : CatalogTables) : Catalog := ⟨fun t => ts.names.get? t, fun s => ts.ids.get? s⟩

end CatalogTables

namespace Catalog

/-- The catalog of a list of types. -/
def ofEntries (es : List CatalogEntry) : Catalog := (CatalogTables.ofEntries es).catalog

/-- The types that the server brings along. -/
def builtin : Catalog := ofEntries
  [⟨16, "boolean", ["bool"]⟩,
    ⟨17, "bytea", []⟩,
    ⟨18, "\"char\"", []⟩,
    ⟨20, "bigint", ["int8"]⟩,
    ⟨21, "smallint", ["int2"]⟩,
    ⟨23, "integer", ["int4", "int"]⟩,
    ⟨25, "text", []⟩,
    ⟨26, "oid", []⟩,
    ⟨114, "json", []⟩,
    ⟨142, "xml", []⟩,
    ⟨600, "point", []⟩,
    ⟨603, "box", []⟩,
    ⟨650, "cidr", []⟩,
    ⟨700, "real", ["float4"]⟩,
    ⟨701, "double precision", ["float8"]⟩,
    ⟨790, "money", []⟩,
    ⟨869, "inet", []⟩,
    ⟨1042, "character", ["bpchar", "char"]⟩,
    ⟨1043, "character varying", ["varchar"]⟩,
    ⟨1082, "date", []⟩,
    ⟨1083, "time without time zone", ["time"]⟩,
    ⟨1114, "timestamp without time zone", ["timestamp"]⟩,
    ⟨1184, "timestamp with time zone", ["timestamptz"]⟩,
    ⟨1186, "interval", []⟩,
    ⟨1266, "time with time zone", ["timetz"]⟩,
    ⟨1560, "bit", []⟩,
    ⟨1562, "bit varying", ["varbit"]⟩,
    ⟨1700, "numeric", ["decimal"]⟩,
    ⟨2249, "record", []⟩,
    ⟨2950, "uuid", []⟩,
    ⟨3802, "jsonb", []⟩]

end Catalog

end RowLiteral
