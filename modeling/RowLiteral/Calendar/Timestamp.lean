import RowLiteral.Calendar.Basic
import RowLiteral.Number.Numeral

/-!
# Calendar — timestamps as text

The text `Y-MM-DD HH:MM:SS.fff+hh:mm:ss BC`, of which the time, the fraction, the zone and the era
may be missing.  Reading is lenient in the places that the format leaves open:

* a group of two digits that are not there counts as minus one and takes up nothing;
* a time is read only if at least nine characters are left and a space comes first;
* of a fraction the first three digits count;
* a zone `+00` at the end is UTC, and a zone may also be `Z`;
* fields out of range carry over.

Without a zone the fields are those of the machine's zone.
-/

namespace RowLiteral.Timestamp
open RowLiteral.Number

/-! ### The parts of a timestamp -/

/-- A given character, and what follows it. -/
def expect? (c : Char) : List Char → Option (List Char)
  | [] => none
  | d :: cs => if d = c then some cs else none

/-- Two digits and what follows them; minus one if they are not both there. -/
def readPair : List Char → Int × List Char
  | a :: b :: cs =>
    if a.isDigit && b.isDigit then (10 * digitValue a + digitValue b, cs) else (-1, a :: b :: cs)
  | cs => (-1, cs)

/-- A year, a month and a day. -/
structure Date where
  year : Int
  month : Int
  day : Int
deriving DecidableEq, Repr

/-- The date that starts a text. -/
def readDate? (cs : List Char) : Option (Date × List Char) := do
  let year := cs.takeWhile Char.isDigit
  let cs ← expect? '-' (cs.dropWhile Char.isDigit)
  let (month, cs) := readPair cs
  let cs ← expect? '-' cs
  let (day, cs) := readPair cs
  if year = [] then none else some (⟨ofDigits year, month - 1, day⟩, cs)

/-- The milliseconds that the digits of a fraction spell: the first three count. -/
def millisOf (ds : List Char) : Int := ofDigits ((ds ++ ['0', '0', '0']).take 3)

/-- The milliseconds of a fraction; zero, if there is none. -/
def readMillis? (cs : List Char) : Option (Int × List Char) :=
  match cs with
  | '.' :: cs =>
    let ds := cs.takeWhile Char.isDigit
    if ds = [] then none else some (millisOf ds, cs.dropWhile Char.isDigit)
  | cs => some (0, cs)

/-- The hours, minutes, seconds and milliseconds of a time of day. -/
structure Time where
  hours : Int
  minutes : Int
  seconds : Int
  millis : Int
deriving DecidableEq, Repr

/-- The time that follows a date; midnight, if none is there. -/
def readTime? (cs : List Char) : Option (Time × List Char) :=
  if cs.length < 9 || cs.head? ≠ some ' ' then some (⟨0, 0, 0, 0⟩, cs)
  else do
    let (hours, cs) := readPair cs.tail
    let cs ← expect? ':' cs
    let (minutes, cs) := readPair cs
    let cs ← expect? ':' cs
    let (seconds, cs) := readPair cs
    let (millis, cs) ← readMillis? cs
    return (⟨hours, minutes, seconds, millis⟩, cs)

/-- The seconds of an offset `hh`, `hh:mm` or `hh:mm:ss`. -/
def readOffset (cs : List Char) : Int × List Char :=
  let (hours, cs) := readPair cs
  match cs with
  | ':' :: cs =>
    let (minutes, cs) := readPair cs
    match cs with
    | ':' :: cs =>
      let (seconds, cs) := readPair cs
      (hours * 3600 + minutes * 60 + seconds, cs)
    | cs => (hours * 3600 + minutes * 60, cs)
  | cs => (hours * 3600, cs)

/-- The zone that follows a time, in milliseconds east of UTC; `none` if none is there. -/
def readZone (cs : List Char) : Option Int × List Char :=
  if cs = ['+', '0', '0'] then (some 0, [])
  else match cs with
    | '+' :: cs => let (seconds, cs) := readOffset cs; (some (seconds * 1000), cs)
    | '-' :: cs => let (seconds, cs) := readOffset cs; (some (-seconds * 1000), cs)
    | 'Z' :: cs => (some 0, cs)
    | cs => (none, cs)

/-- The year of a date before Christ, or of one that is not. -/
def eraYear (beforeChrist : Bool) (year : Int) : Int := if beforeChrist then 1 - year else year

/-- A timestamp: its fields, and its zone in milliseconds east of UTC. -/
structure Parts where
  fields : Fields
  zone : Option Int
deriving DecidableEq, Repr

/-- The parts of the timestamp that a text spells. -/
def parts? (cs : List Char) : Option Parts := do
  let (date, cs) ← readDate? cs
  let (time, cs) ← readTime? cs
  let (zone, cs) := readZone cs
  let beforeChrist := cs = [' ', 'B', 'C']
  if cs = [] || beforeChrist then
    some ⟨⟨eraYear beforeChrist date.year, date.month, date.day, time.hours, time.minutes,
      time.seconds, time.millis⟩, zone⟩
  else none

/-! ### The moment of a timestamp -/

/-- Whether a year is small enough to be built in the twentieth century first. -/
def isShortYear (year : Int) : Bool := -99 ≤ year && year ≤ 99

/-- The year in which a date is built first: the years 0 to 99 stand for 1900 to 1999. -/
def buildYear (year : Int) : Int := if 0 ≤ year && year ≤ 99 then 1900 + year else year

/-- The moment with given fields in a zone.  Where the year is short, the day is the one that the
month and the day give in the building year, moved to the year itself. -/
def momentIn (zone : Zone) (f : Fields) : Moment :=
  let m := Moment.ofFields zone { f with year := buildYear f.year }
  if isShortYear f.year then Moment.change zone m fun g => { g with year := f.year } else m

/-- The moment of a timestamp, on a machine in a zone. -/
def Parts.moment (machine : Zone) (p : Parts) : Moment :=
  match p.zone with
  | some offset => (momentIn 0 p.fields).bind fun t => Moment.ofInstant (t - offset)
  | none => momentIn machine p.fields

/-- The moment of the timestamp that a text spells; none if it spells no timestamp. -/
def moment (machine : Zone) (cs : List Char) : Moment := (parts? cs).bind (Parts.moment machine)

end RowLiteral.Timestamp
