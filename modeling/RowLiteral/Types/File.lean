import RowLiteral.Registry
import RowLiteral.Settings
import RowLiteral.Types.Block
import RowLiteral.Types.Json

/-!
# Types — the types file

The types file declares row types: a mapping `types` from their names to mappings from the names of
columns to the names of types.  A column may have a built-in type or any type of the same file, also
one that is declared later; the types of the file come first.  The first fault in the order of the
keys is the error.

How a text is read as a document is up to a *loader*.  One that reads a JSON document or a block
document is written out here (`written?`).
-/

namespace RowLiteral
open Text

/-- Why a file was not read: a code and a message. -/
structure ReadFailure where
  code : String
  message : String
deriving DecidableEq, Repr

/-- What reads texts as documents: a text may have a document or none, or it is refused with a
message.  Of a document only what is looked at has to be there: scalars, and mappings down to the
types of columns. -/
abbrev Loader := String → Except String (Option Document)

namespace TypesFile

/-- The document of a text, as it is written. -/
def written? (text : String) : Option Document :=
  (Json.document? text.toList).or (Block.document? text.toList)

/-- The document of a text. -/
def document? (text : String) : Option Document := (written? text).map Document.listed

/-- The loader of the documents that are read here.  No text is refused. -/
def loader : Loader := fun text => .ok (written? text)

/-- The definition of a column from the document of its type. -/
def column (names : List String) (rowType name : String) : Document →
    Except CodecError ColumnDefinition
  | .text type =>
    if isBlank type then .error (.fileColumnWithoutType name rowType)
    else if type ∈ names then .ok ⟨name, some type, some ColumnType.record.id⟩
    else match Catalog.builtin.id? type with
      | some id => .ok ⟨name, some type, some id⟩
      | none => .error (.fileColumnType type name rowType)
  | _ => .error (.fileColumnWithoutType name rowType)

/-- The definition of a row type from the document of its columns. -/
def rowType (names : List String) (name : String) (d : Document) :
    Except CodecError RowTypeDefinition :=
  match d.entries? with
  | none | some [] => .error (.fileTypeWithoutColumns name)
  | some columns =>
    (columns.mapM fun e => column names name e.1 e.2).map fun cs => ⟨name, cs⟩

/-- The definitions of a document. -/
def definitions (d : Option Document) : Except CodecError (List RowTypeDefinition) :=
  match (d.bind (Document.get? "types")).bind Document.entries? with
  | none => .error .typesFileShape
  | some [] => .error .typesFileEmpty
  | some types => types.mapM fun e => rowType (types.map Prod.fst) e.1 e.2

/-- Where the file is expected when nothing else is set. -/
def defaultPath : String := "./types.yaml"

/-- What is reported of definitions. -/
def summary (ds : List RowTypeDefinition) : String :=
  s!"Loaded {ds.length} composite types: " ++
    String.intercalate ", " (ds.map RowTypeDefinition.name)

/-- The error of a file that was not read. -/
def unreadable (path : String) (why : ReadFailure) : CodecError :=
  if why.code = "ENOENT" then .typesFileAbsent path else .typesFileUnreadable why.message

/-- What is reported of an error. -/
def failureReport (path : String) : CodecError → String
  | .typesFileAbsent _ => s!"Type definitions file not found at {path}"
  | _ => "Failed to load composite type definitions"

/-- The definitions of a text. -/
def definitionsIn (loader : Loader) (text : String) : Except CodecError (List RowTypeDefinition) :=
  match loader text with
  | .error message => .error (.typesFileMalformed message)
  | .ok d => definitions (d.map Document.listed)

/-- The definitions of a file. -/
def definitionsOf (loader : Loader) (path : String) (file : Except ReadFailure String) :
    Except CodecError (List RowTypeDefinition) :=
  match file with
  | .error why => .error (unreadable path why)
  | .ok text => definitionsIn loader text

/-- Loads the types file of the environment. -/
def load (loader : Loader) (env : Environment) (file : Except ReadFailure String) :
    Logged (Except CodecError (List RowTypeDefinition)) :=
  let path := orDefault env.typesPath defaultPath
  let loading : Entry := ⟨.log, .types, s!"Loading composite type definitions from: {path}", none⟩
  match definitionsOf loader path file with
  | .ok ds => ⟨.ok ds, [loading, ⟨.log, .types, summary ds, none⟩]⟩
  | .error e => ⟨.error e, [loading, ⟨.error, .types, failureReport path e, none⟩]⟩

end TypesFile

end RowLiteral
