import RowLiteral.Codec

/-!
# Command

The command `decode <type> <literal>`: it loads the settings and the types file, reads the literal
as a row of the type and reports its attributes and its literal.  Its outcome is an exit status and
a report.  A usage error ends it before anything is loaded.  Settings and types are both loaded even
if the first fails; the failure that came first is then reported.

From there on the command is a run that goes on until one of its steps fails.  The status tells
whether one has, and the report of a failure comes last.
-/

namespace RowLiteral
open Text

/-- How the program ends, and what it reports. -/
structure Outcome where
  status : Nat
  entries : List Entry
deriving DecidableEq, Repr

/-- What the program finds where it runs: the zone of the machine, its decoders of bytes and a
loader of documents. -/
structure Platform where
  zone : Zone
  decoders : Decoders
  loader : Loader

namespace Command

/-- How the command is used. -/
def usage : String := "Usage: pgrecord decode <type> <literal>"

/-- A request to decode a literal. -/
structure Request where
  typeName : String
  literal : String
deriving DecidableEq, Repr

/-- The request that arguments make. -/
def request? : List String → Option Request
  | command :: typeName :: literal :: _ =>
    if command = "decode" && typeName ≠ "" then some ⟨typeName, literal⟩ else none
  | _ => none

/-- Opens a codec with the settings and the types of the environment. -/
def start (p : Platform) (env : Environment) (file : Except ReadFailure String) :
    Logged (Except CodecError Codec) :=
  let settings := Settings.ofEnvironment env
  let types := TypesFile.load p.loader env file
  let loaded := settings.entries ++ types.entries
  match settings.value, types.value with
  | .error e, _ | .ok _, .error e => ⟨.error e, loaded⟩
  | .ok s, .ok ds =>
    let opened := Codec.ofSettings p.zone p.decoders (some s) ds
    ⟨opened.value, loaded ++ opened.entries⟩

/-- How NULL is shown, and a value that has no text. -/
def nullText (text? : Option String) : String := text?.getD "NULL"

/-- How an attribute is shown: its text and its kind. -/
def shownAttribute (machine : Zone) (calendar : Calendar) : Attribute → String
  | none => nullText none
  | some v => s!"{nullText (v.text? machine calendar)} ({v.kind.name})"

/-- The report on the attributes of a row. -/
def attributeEntries (s : Session) (r : Row) : List Entry :=
  (r.type.columns.zip r.attributes).map fun (c, a) =>
    ⟨.log, .command, s!"{c.name} {c.typeName}: {shownAttribute s.machine s.calendar a}", none⟩

/-- The report on a row. -/
def rowEntries (s : Session) (r : Row) : List Entry :=
  attributeEntries s r ++ [⟨.log, .command, s!"Rendered: {r.render s.machine}", none⟩]

/-- Decodes a literal. -/
def decode (c : Codec) (q : Request) : Logged (Except CodecError Unit) :=
  (c.parseNamed q.typeName q.literal).andThen fun row => ⟨.ok (), rowEntries c.session row⟩

/-- The report of a failure to start. -/
def startFailure (e : CodecError) : Entry := ⟨.error, .startup, e.message, some e.headline⟩

/-- The report of a failure to decode. -/
def decodeFailure (e : CodecError) : Entry :=
  ⟨.error, .command, "Failed to decode literal", some e.headline⟩

/-- Loads everything and decodes a literal. -/
def execute (p : Platform) (env : Environment) (file : Except ReadFailure String) (q : Request) :
    Logged (Except Entry Unit) :=
  ((start p env file).mapError startFailure).andThen fun c => (decode c q).mapError decodeFailure

/-- The outcome of a run: what ended one that failed is reported last. -/
def outcome (x : Logged (Except Entry Unit)) : Outcome :=
  match x.value with
  | .ok () => ⟨0, x.entries⟩
  | .error last => ⟨1, x.entries ++ [last]⟩

/-- Runs the program; the report has the entries of the enabled levels. -/
def run (p : Platform) (env : Environment) (file : Except ReadFailure String)
    (arguments : List String) : Outcome :=
  match request? arguments with
  | none => ⟨2, [⟨.error, .command, usage, none⟩]⟩
  | some q =>
    let result := outcome (execute p env file q)
    let enabled := Level.enabled env.logLevel
    { result with entries := result.entries.filter fun e => e.level ∈ enabled }

end Command

end RowLiteral
