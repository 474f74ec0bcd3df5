import RowLiteral.Calendar.Timestamp
import RowLiteral.Text.Blank

/-!
# Calendar — dates, times and timestamps

Text of the three temporal types is read in a calendar: the machine's own zone or UTC.  A text with
a zone of its own keeps it.  A text without one is read in the machine's zone first; in the UTC
calendar its fields are then taken over to UTC.  A text that spells no moment is an error that
tells which type was asked for and the text as it was given.

A date is the midnight of its day, and a time is read on the first of January 1970.  Writing prints
the fields of a moment in the zone of the calendar; a moment that is nothing has no fields, and each
of them is written as `NaN`.
-/

namespace RowLiteral
open Text

/-- The temporal types. -/
inductive TemporalType where
  | date | time | timestamp
deriving DecidableEq, Repr

/-- The name of a temporal type. -/
def TemporalType.name : TemporalType → String
  | .date => "date"
  | .time => "time"
  | .timestamp => "timestamp"

/-- Why a text was not read. -/
inductive TemporalFailure where
  /-- The text spells nothing of the type. -/
  | unreadable (type : TemporalType) (text : String)
  /-- The reader itself failed. -/
  | failed (message : String)
  /-- The reader gave up with something that is no error and shows as a text. -/
  | gaveUp (text : String)
deriving DecidableEq, Repr

/-- What a failure says. -/
def TemporalFailure.message : TemporalFailure → String
  | .unreadable type text => s!"Unable to parse {type.name} from: {text}"
  | .failed message => message
  | .gaveUp text => text

/-- What a reader throws. -/
inductive Thrown where
  /-- A failure, which has a text. -/
  | shown (why : TemporalFailure)
  /-- A thing that has no text; the attempt to show it fails with a message of its own. -/
  | unshowable (message : String)
deriving DecidableEq, Repr

/-- Readers of the three temporal types, which may throw something instead. -/
structure TemporalReaderOf (ε : Type) where
  date : Calendar → String → Except ε Moment
  time : Calendar → String → Except ε Moment
  timestamp : Calendar → String → Except ε Moment

/-- Readers that throw failures only. -/
abbrev TemporalReader := TemporalReaderOf TemporalFailure

namespace TemporalReaderOf

variable {ε ε' : Type}

/-- The reader of a temporal type. -/
def read (r : TemporalReaderOf ε) : TemporalType → Calendar → String → Except ε Moment
  | .date => r.date
  | .time => r.time
  | .timestamp => r.timestamp

/-- The reader that throws the same on every text. -/
def failing (why : ε) : TemporalReaderOf ε :=
  ⟨fun _ _ => .error why, fun _ _ => .error why, fun _ _ => .error why⟩

/-- The reader that throws something else in place of what a reader throws. -/
def mapError (f : ε → ε') (r : TemporalReaderOf ε) : TemporalReaderOf ε' :=
  ⟨fun c s => (r.date c s).mapError f, fun c s => (r.time c s).mapError f,
    fun c s => (r.timestamp c s).mapError f⟩

end TemporalReaderOf

namespace Temporal

/-! ### The shape of a text -/

/-- Blanks, at least one, and the era at the end of a text. -/
def isEraEnd (cs : List Char) : Bool :=
  cs.head?.any isMargin && cs.dropWhile isMargin == ['B', 'C']

/-- The beginning of a text that is one or more digits, and what follows it. -/
def spanDigits? (cs : List Char) : Option (List Char × List Char) :=
  match cs.takeWhile Char.isDigit with
  | [] => none
  | ds => some (ds, cs.dropWhile Char.isDigit)

/-- A hyphen and two digits at the start of a text, and what follows them. -/
def hyphenPair? : List Char → Option (List Char × List Char)
  | '-' :: a :: b :: cs => if a.isDigit && b.isDigit then some (['-', a, b], cs) else none
  | _ => none

/-- The date and the era of a text that is nothing else. -/
def dateOnly? (cs : List Char) : Option (List Char × List Char) := do
  let (year, cs) ← spanDigits? cs
  let (month, cs) ← hyphenPair? cs
  let (day, cs) ← hyphenPair? cs
  if cs = [] || isEraEnd cs then some (year ++ month ++ day, cs) else none

/-- What follows two digits at the start of a text. -/
def afterPair? : List Char → Option (List Char)
  | a :: b :: cs => if a.isDigit && b.isDigit then some cs else none
  | _ => none

/-- What follows a group of two digits of an offset, with or without a colon before it. -/
def afterGroup? : List Char → Option (List Char)
  | ':' :: cs => afterPair? cs
  | cs => afterPair? cs

/-- What follows up to `n` groups of an offset. -/
def afterGroups : Nat → List Char → List Char
  | 0, cs => cs
  | n + 1, cs => match afterGroup? cs with
    | some rest => afterGroups n rest
    | none => cs

/-- What follows the zone that starts a text. -/
def afterZone? : List Char → Option (List Char)
  | 'Z' :: cs => some cs
  | '+' :: cs | '-' :: cs => (afterPair? cs).map (afterGroups 2)
  | _ => none

/-- What follows the seconds and their fraction, where they are there. -/
def afterSeconds? : List Char → Option (List Char)
  | ':' :: cs => do
    let cs ← afterPair? cs
    match cs with
    | '.' :: cs => return (← spanDigits? cs).2
    | cs => return cs
  | cs => some cs

/-- Whether a text is a time of day with a zone, and an era or nothing after it. -/
def isZonedTime (cs : List Char) : Bool :=
  let rest := do
    let cs ← afterPair? cs
    let cs ← Timestamp.expect? ':' cs
    let cs ← afterPair? cs
    let cs ← afterSeconds? cs
    afterZone? cs
  match rest with
  | some cs => cs == [] || isEraEnd cs
  | none => false

/-- Whether a text ends in a time of day with a zone. -/
def hasZone : List Char → Bool
  | [] => false
  | c :: cs => isZonedTime (c :: cs) || hasZone cs

/-! ### Reading -/

/-- The text that is read for a text: a date alone gets the midnight of its day. -/
def completed (cs : List Char) : List Char :=
  match dateOnly? cs with
  | some (date, era) => date ++ " 00:00:00".toList ++ era
  | none => cs

/-- The moment that shows in UTC the fields that a moment has in a zone. -/
def toUtc (zone : Zone) (m : Moment) : Moment := m.bind fun t => Moment.build 0 (fieldsOf zone t)

/-- The moment that a text spells in a calendar, on a machine in a zone.  The outer option is `none`
where the text spells no moment; one that is spelled may still be lost on the way to UTC. -/
def read? (machine : Zone) (calendar : Calendar) (text : String) : Option Moment :=
  let cs := trimChars text.toList
  (Timestamp.moment machine (completed cs)).map fun t =>
    if calendar = .utc && !hasZone cs then toUtc machine (some t) else some t

/-- The midnight before a moment, in a zone. -/
def midnight (zone : Zone) (m : Moment) : Moment :=
  m.bind fun t =>
    let f := fieldsOf zone t
    Moment.build zone ⟨f.year, f.month, f.day, 0, 0, 0, 0⟩

/-- What is read where nothing was spelled. -/
def orUnreadable (type : TemporalType) (text : String) : Option Moment →
    Except TemporalFailure Moment
  | some m => .ok m
  | none => .error (.unreadable type text)

/-- The date that a text spells. -/
def readDate (machine : Zone) (calendar : Calendar) (text : String) :
    Except TemporalFailure Moment :=
  orUnreadable .date text ((read? machine calendar text).map (midnight (calendar.zone machine)))

/-- The time that a text spells. -/
def readTime (machine : Zone) (calendar : Calendar) (text : String) :
    Except TemporalFailure Moment :=
  orUnreadable .time text (read? machine calendar ("1970-01-01 " ++ trim text))

/-- The timestamp that a text spells. -/
def readTimestamp (machine : Zone) (calendar : Calendar) (text : String) :
    Except TemporalFailure Moment :=
  orUnreadable .timestamp text (read? machine calendar text)

/-- The reader of a machine in a zone. -/
def reader (machine : Zone) : TemporalReader :=
  ⟨readDate machine, readTime machine, readTimestamp machine⟩

/-! ### Writing -/

/-- The text of a field. -/
def fieldText : Option Int → String
  | some n => toString n
  | none => "NaN"

/-- The text of a field, filled up to a width with zeros on the left. -/
def pad (width : Nat) (field : Option Int) : String :=
  let s := fieldText field
  String.ofList (List.replicate (width - s.length) '0') ++ s

/-- The text of the day of a moment. -/
def formatDate (zone : Zone) (m : Moment) : String :=
  let f := m.map (fieldsOf zone)
  s!"{pad 4 (f.map Fields.year)}-{pad 2 (f.map fun g => g.month + 1)}-{pad 2 (f.map Fields.day)}"

/-- The text of the time of day of a moment; the milliseconds are left out where they are zero. -/
def formatTime (zone : Zone) (m : Moment) : String :=
  let f := m.map (fieldsOf zone)
  let two := fun field => pad 2 (f.map field)
  let time := s!"{two Fields.hours}:{two Fields.minutes}:{two Fields.seconds}"
  let millis := f.map Fields.millis
  if millis = some 0 then time else s!"{time}.{pad 3 millis}"

/-- The text of a moment. -/
def formatTimestamp (zone : Zone) (m : Moment) : String :=
  s!"{formatDate zone m} {formatTime zone m}"

/-- The text of a moment as one of the temporal types. -/
def format (zone : Zone) : TemporalType → Moment → String
  | .date => formatDate zone
  | .time => formatTime zone
  | .timestamp => formatTimestamp zone

end Temporal

end RowLiteral
