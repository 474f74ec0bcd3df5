import RowLiteral.Text.Blank
import RowLiteral.Text.Case

/-!
# Log

What a computation reports while it runs: a list of entries, each with a level, the part of the
program that reports and a message.  `Logged α` is a value together with the entries that were
reported on the way to it, in order.
-/

namespace RowLiteral

/-- How severe an entry is. -/
inductive Level where
  | error | warn | log | debug | verbose
deriving DecidableEq, Repr

namespace Level

/-- The levels from the most severe to the least. -/
def all : List Level := [.error, .warn, .log, .debug, .verbose]

/-- The name of a level. -/
def name : Level → String
  | .error => "error"
  | .warn => "warn"
  | .log => "log"
  | .debug => "debug"
  | .verbose => "verbose"

/-- The level of a name, in any case and with blanks around it. -/
def ofName? (s : String) : Option Level := all.find? fun l => l.name = Text.lower (Text.trim s)

/-- The levels that are shown when `least` is asked for: it and all that are more severe. -/
def downTo (least : Level) : List Level :=
  match least with
  | .error => [.error]
  | .warn => [.error, .warn]
  | .log => [.error, .warn, .log]
  | .debug => [.error, .warn, .log, .debug]
  | .verbose => all

/-- The levels that a setting enables; an absent or unknown setting asks for `log`. -/
def enabled (setting : Option String) : List Level :=
  downTo ((setting.bind ofName?).getD .log)

end Level

/-- The parts of the program that report. -/
inductive Reporter where
  | service | registry | row | coercion | types | settings | command | startup
deriving DecidableEq, Repr

/-- The name under which a part of the program reports. -/
def Reporter.name : Reporter → String
  | .service => "CompositeCodecService"
  | .registry => "StructDescriptorRegistry"
  | .row => "CompositeValue"
  | .coercion => "Coercion"
  | .types => "TypesConfig"
  | .settings => "ConfigValidation"
  | .command => "pgrecord"
  | .startup => "ExceptionHandler"

/-- A report; one about an error may carry the error's first line. -/
structure Entry where
  level : Level
  reporter : Reporter
  message : String
  cause : Option String
deriving DecidableEq, Repr

/-- A value and what was reported on the way to it. -/
structure Logged (α : Type) where
  value : α
  entries : List Entry
deriving DecidableEq, Repr

namespace Logged

variable {α β : Type}

/-- A value without a report. -/
def quiet (x : α) : Logged α := ⟨x, []⟩

/-- The values of a list and all that was reported, in order. -/
def collect (xs : List (Logged α)) : Logged (List α) :=
  ⟨xs.map value, xs.flatMap entries⟩

/-- Another value with the same report. -/
def map (f : α → β) (x : Logged α) : Logged β := ⟨f x.value, x.entries⟩

/-! ### Runs that may fail -/

variable {ε ε' : Type}

/-- A run that fails with something else. -/
def mapError (f : ε → ε') (x : Logged (Except ε α)) : Logged (Except ε' α) :=
  x.map (Except.mapError f)

/-- Goes on with the value of a run that has not failed. -/
def andThen (x : Logged (Except ε α)) (next : α → Logged (Except ε β)) : Logged (Except ε β) :=
  match x.value with
  | .error e => ⟨.error e, x.entries⟩
  | .ok a => ⟨(next a).value, x.entries ++ (next a).entries⟩

end Logged

end RowLiteral
