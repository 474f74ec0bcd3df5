import RowLiteral.Calendar.Temporal
import RowLiteral.ColumnType

/-!
# Errors

Why an operation of the library fails.  Each cause is a constructor with what its message names;
`CodecError.message` is the wording.
-/

namespace RowLiteral

/-- A constraint on the settings that does not hold, and the value that breaks it as text. -/
inductive Violation where
  /-- The encoding is not a text. -/
  | encodingNoText (value : String)
  /-- The encoding is a text of blanks. -/
  | encodingBlank (value : String)
  /-- The time zone is not one of the calendars. -/
  | zoneUnknown (value : String)
deriving DecidableEq, Repr

/-- What a violation says. -/
def Violation.message : Violation → String
  | .encodingNoText value =>
    s!"clientEncoding must name an encoding, clientEncoding must be a string (got {value})"
  | .encodingBlank value => s!"clientEncoding must name an encoding (got {value})"
  | .zoneUnknown value => s!"timeZone must be one of the following values: local, utc (got {value})"

/-- The causes of failure. -/
inductive CodecError where
  /-- A value cannot be converted to that kind at all. -/
  | unsupportedConversion (kind : String)
  /-- The text of a value does not spell a value of the kind. -/
  | invalidValue (kind text : String)
  /-- A temporal text was not read. -/
  | temporal (failure : TemporalFailure)
  /-- What the reader of a temporal text has thrown cannot be shown. -/
  | unshowable (message : String)
  /-- A plain value has no counterpart among the values; `shape` is its outer form. -/
  | unsupportedAttribute (shape : String)
  /-- An integer of any size has no place in a JSON text. -/
  | integerInJson
  /-- The name is not one of a built-in type. -/
  | unsupportedTypeName (name : String)
  /-- The type of a column is neither registered nor in the catalog. -/
  | unknownTypeName (name column rowType : String)
  /-- The type of a column has no name in the catalog. -/
  | unknownTypeId (id : TypeId) (column rowType : String)
  /-- A column has neither a type name nor a type identifier. -/
  | untypedColumn (column rowType : String)
  /-- A row type has no columns. -/
  | noColumns (rowType : String)
  /-- No row type of that name is registered. -/
  | unknownRowType (name : String)
  /-- The encoding is not known. -/
  | unsupportedEncoding (name : String)
  /-- The encoding is known, but bytes in it cannot be decoded. -/
  | undecodableEncoding (label : String)
  /-- There are no settings. -/
  | settingsAbsent
  /-- The settings of a part of the program break constraints. -/
  | invalidSettings (part : String) (violations : List Violation)
  /-- The text of the types file is no document. -/
  | typesFileMalformed (message : String)
  /-- The types file holds no mapping of types. -/
  | typesFileShape
  /-- A row type of the types file has no columns. -/
  | fileTypeWithoutColumns (rowType : String)
  /-- A column of the types file names no type. -/
  | fileColumnWithoutType (column rowType : String)
  /-- A column of the types file names an unknown type. -/
  | fileColumnType (type column rowType : String)
  /-- The types file defines no row type. -/
  | typesFileEmpty
  /-- The types file is not there. -/
  | typesFileAbsent (path : String)
  /-- The types file cannot be read. -/
  | typesFileUnreadable (message : String)
deriving DecidableEq, Repr

/-- What a failure says. -/
def CodecError.message : CodecError → String
  | .unsupportedConversion kind => s!"Unsupported conversion to {kind}"
  | .invalidValue kind text => s!"Bad value for type {kind}: {text}"
  | .temporal failure => failure.message
  | .unshowable message => message
  | .unsupportedAttribute shape => s!"Unsupported attribute value: [object {shape}]"
  | .integerInJson => "Do not know how to serialize a BigInt"
  | .unsupportedTypeName name => s!"Unsupported PostgreSQL type: {name}"
  | .unknownTypeName name column rowType =>
    s!"Unknown type '{name}' for field '{column}' of '{rowType}'"
  | .unknownTypeId id column rowType =>
    s!"Unknown type identifier {id} for field '{column}' of '{rowType}'"
  | .untypedColumn column rowType =>
    s!"Field '{column}' of '{rowType}' needs a type name or a type identifier"
  | .noColumns rowType => s!"Composite type '{rowType}' must have at least one field"
  | .unknownRowType name => s!"Unknown composite type: {name}"
  | .unsupportedEncoding name => s!"Unsupported client encoding: {name}"
  | .undecodableEncoding label => s!"The \"{label}\" encoding is not supported"
  | .settingsAbsent => "Codec configuration not found"
  | .invalidSettings part violations =>
    s!"Invalid configuration for {part}: " ++
      String.intercalate "; " (violations.map Violation.message)
  | .typesFileMalformed message => message
  | .typesFileShape => "Invalid type definitions file: must contain a \"types\" mapping"
  | .fileTypeWithoutColumns rowType => s!"Composite type '{rowType}' must define at least one field"
  | .fileColumnWithoutType column rowType =>
    s!"Field '{column}' in type '{rowType}' must name a type"
  | .fileColumnType type column rowType =>
    s!"Invalid type '{type}' for field '{column}' in type '{rowType}': " ++
      s!"Unsupported PostgreSQL type: {type}"
  | .typesFileEmpty =>
    "No composite types found in type definitions file. At least one type must be defined."
  | .typesFileAbsent path =>
    s!"Type definitions file not found: {path}. " ++
      "Please ensure the file exists or set TYPES_PATH environment variable."
  | .typesFileUnreadable message => message

/-- The word that stands before the message where an error is reported by its first line. -/
def CodecError.title : CodecError → String
  | .unsupportedConversion _ => "UnsupportedConversionError"
  | .invalidValue _ _ => "InvalidValueError"
  | .temporal (.unreadable _ _) => "TemporalParseError"
  | .temporal (.failed _) | .undecodableEncoding _ => "RangeError"
  | .unsupportedAttribute _ | .integerInJson | .unshowable _ => "TypeError"
  | .typesFileMalformed _ => "YAMLException"
  | _ => "Error"

/-- The code that stands in brackets after the title of an error, if it has one. -/
def CodecError.code? : CodecError → Option String
  | .undecodableEncoding _ => some "ERR_ENCODING_NOT_SUPPORTED"
  | _ => none

/-- The title of an error with its code, as it opens the report. -/
def CodecError.heading (e : CodecError) : String :=
  match e.code? with
  | some code => s!"{e.title} [{code}]"
  | none => e.title

/-- The first line of the report of an error. -/
def CodecError.headline (e : CodecError) : String :=
  e.heading ++ ": " ++ String.ofList (e.message.toList.takeWhile fun c => c ≠ '\n')

end RowLiteral
