import RowLiteral.Command
import RowLiteral.Encoding.Listed

/-!
# Main

The program: it takes the arguments, the environment and the types file from the system, hands them
to `Command.run`, prints the report and ends with the status.  The machine counts as one in the zone
of UTC with the listed decoders, and the types file is a JSON document or a block document.
-/

namespace RowLiteral.Program

/-- The machine in the zone of UTC. -/
def platform : Platform := ⟨0, Decoders.listed, TypesFile.loader⟩

/-- The environment of the process. -/
def environment : IO Environment := do
  return ⟨← IO.getEnv "TYPES_PATH", ← IO.getEnv "CLIENT_ENCODING",
    ← IO.getEnv "CODEC_TIME_ZONE", ← IO.getEnv "LOG_LEVEL"⟩

/-- Why the system did not read a file. -/
def failureOf (e : IO.Error) : ReadFailure :=
  match e with
  | .noFileOrDirectory _ _ _ => ⟨"ENOENT", toString e⟩
  | e => ⟨"EIO", toString e⟩

/-- The text of the types file, or why there is none. -/
def readTypes (env : Environment) : IO (Except ReadFailure String) := do
  try
    let text ← IO.FS.readFile (orDefault env.typesPath TypesFile.defaultPath)
    return .ok text
  catch e => return .error (failureOf e)

/-- Prints an entry; errors go to the error stream. -/
def printEntry (e : Entry) : IO Unit := do
  let line := s!"{e.level.name} [{e.reporter.name}] {e.message}"
  if e.level = .error then IO.eprintln line else IO.println line
  if let some cause := e.cause then IO.eprintln cause

end RowLiteral.Program

/-- Runs the command and ends with its status. -/
def main (arguments : List String) : IO UInt32 := do
  let env ← RowLiteral.Program.environment
  let file ← RowLiteral.Program.readTypes env
  let outcome := RowLiteral.Command.run RowLiteral.Program.platform env file arguments
  outcome.entries.forM RowLiteral.Program.printEntry
  return outcome.status.toUInt32
