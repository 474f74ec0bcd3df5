import RowLiteral.Plain.Json

/-!
# Settings

What a session is opened with: the name of an encoding and a calendar.  Settings are given as plain
values; numbers and truth values are taken as their texts first.  The name of the encoding has to be
a text with something in it, and the calendar one of the two names.  All constraints that do not
hold are listed in one error.
-/

namespace RowLiteral
open Text

/-- The environment of the program; a variable that is absent is not set. -/
structure Environment where
  typesPath : Option String
  clientEncoding : Option String
  timeZone : Option String
  logLevel : Option String
deriving DecidableEq, Repr

/-- The value of a variable, or a text to take where it is not set or empty. -/
def orDefault (found : Option String) (default : String) : String :=
  match found with
  | some "" | none => default
  | some s => s

/-- The name of an encoding and a calendar. -/
structure Settings where
  clientEncoding : String
  calendar : Calendar
deriving DecidableEq, Repr

namespace Settings

mutual
/-- A plain value as a setting: an absent value stays, the items of a list are taken one by one, and
anything else becomes a text. -/
def read : Plain → Plain
  | .absent => .absent
  | .null => .null
  | .text s => .text s
  | .bool b => .text (boolText b)
  | .number x => .text x.toText
  | .integer n => .text (toString n)
  | .decimal d => .text d.toText
  | .bytes bs => .text (String.intercalate "," (bs.map fun b => toString b.toNat))
  | .list xs => .list (readItems xs)
  | _ => .text "[object Object]"

/-- The items of a list as settings. -/
def readItems : List Plain → List Plain
  | [] => []
  | x :: xs => read x :: readItems xs
end

/-- A setting as an error shows it. -/
def shown (x : Plain) : String :=
  match x.json? with
  | .ok (some t) => t
  | _ => "undefined"

/-- What does not hold of the name of the encoding. -/
def encodingViolations : Plain → List Violation
  | .text s => if isBlank s then [.encodingBlank (shown (.text s))] else []
  | x => [.encodingNoText (shown x)]

/-- The calendar of a setting. -/
def calendar? : Plain → Option Calendar
  | .text s => Calendar.ofName? s
  | _ => none

/-- What does not hold of the calendar. -/
def zoneViolations (x : Plain) : List Violation :=
  match calendar? x with
  | some _ => []
  | none => [.zoneUnknown (shown x)]

/-- The settings that two plain values give, or what does not hold of them. -/
def check (clientEncoding timeZone : Plain) : Except (List Violation) Settings :=
  let encoding := read clientEncoding
  let zone := read timeZone
  match encodingViolations encoding ++ zoneViolations zone, encoding, calendar? zone with
  | [], .text name, some calendar => .ok ⟨name, calendar⟩
  | violations, _, _ => .error violations

/-- The settings of a part of the program; violations are reported. -/
def validate (part : String) (clientEncoding timeZone : Plain) :
    Logged (Except CodecError Settings) :=
  match check clientEncoding timeZone with
  | .ok s => .quiet (.ok s)
  | .error violations =>
    ⟨.error (.invalidSettings part violations),
      [⟨.error, .settings, s!"Configuration validation failed for {part}", none⟩]⟩

/-- The settings of the environment: UTF8 and the machine's zone, where nothing is set. -/
def ofEnvironment (env : Environment) : Logged (Except CodecError Settings) :=
  validate "codec" (.text (orDefault env.clientEncoding "UTF8"))
    (.text (orDefault env.timeZone "local"))

end Settings

end RowLiteral
