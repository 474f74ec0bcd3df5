/-!
# Calendar — instants and calendar fields

An *instant* is a number of milliseconds since the start of 1970 in UTC.  A *moment* is an instant
within a hundred million days of that start, or nothing: a moment that lies outside is lost, and
stays lost whatever is done with it.  *Fields* are the year, month, day and time of day of an
instant in a zone, which is a fixed offset from UTC.  The calendar is Gregorian for all years, with
a year zero, and fields out of range carry over to the next larger field.

Months count from zero.  Days are counted in eras of 400 years that start on the first of March, so
that the leap day ends a year.
-/

namespace RowLiteral

/-- The milliseconds of an hour. -/
def hourMillis : Int := 3600000

/-- The milliseconds of a day. -/
def dayMillis : Int := 86400000

/-- A zone: the milliseconds by which its clocks are ahead of UTC. -/
structure Zone where
  offset : Int
deriving DecidableEq, Repr

/-- The zone a number of hours east of UTC. -/
def Zone.ofHours (n : Int) : Zone := ⟨n * hourMillis⟩

/-- A whole number stands for the zone that many hours east of UTC. -/
instance : Coe Int Zone := ⟨Zone.ofHours⟩

instance (n : Nat) : OfNat Zone n := ⟨.ofHours n⟩

/-- A point in time, in milliseconds since 1970 in UTC; `none` is no point in time. -/
abbrev Moment := Option Int

/-- The zone in which texts without a zone of their own are read and written: that of the machine,
or UTC. -/
inductive Calendar where
  | machine | utc
deriving DecidableEq, Repr

/-- The zone of a calendar, on a machine in a zone. -/
def Calendar.zone (machine : Zone) : Calendar → Zone
  | .machine => machine
  | .utc => 0

/-- The name of a calendar. -/
def Calendar.name : Calendar → String
  | .machine => "local"
  | .utc => "utc"

/-- The calendar of a name. -/
def Calendar.ofName? (s : String) : Option Calendar :=
  if s = "local" then some .machine else if s = "utc" then some .utc else none

/-- The fields of a point in time; the month counts from zero. -/
structure Fields where
  year : Int
  month : Int
  day : Int
  hours : Int
  minutes : Int
  seconds : Int
  millis : Int
deriving DecidableEq, Repr

/-! ### Days -/

/-- The days from the first of March of the year 0 to the start of 1970. -/
def epochDays : Int := 719468

/-- The number of a day of the calendar, counted from the start of 1970.  The month and the day may
lie outside their ranges. -/
def dayNumber (year month day : Int) : Int :=
  let m := month % 12
  let y := year + month / 12 - (if m < 2 then 1 else 0)
  let m' := (m + 10) % 12
  let yearOfEra := y % 400
  let dayOfYear := (153 * m' + 2) / 5
  y / 400 * 146097 + yearOfEra * 365 + yearOfEra / 4 - yearOfEra / 100 + dayOfYear + day - 1 -
    epochDays

/-- The year, the month and the day with a number. -/
def civilOfDay (n : Int) : Int × Int × Int :=
  let z := n + epochDays
  let dayOfEra := z % 146097
  let yearOfEra := (dayOfEra - dayOfEra / 1460 + dayOfEra / 36524 - dayOfEra / 146096) / 365
  let dayOfYear := dayOfEra - (365 * yearOfEra + yearOfEra / 4 - yearOfEra / 100)
  let m' := (5 * dayOfYear + 2) / 153
  let day := dayOfYear - (153 * m' + 2) / 5 + 1
  let month := if m' < 10 then m' + 2 else m' - 10
  (yearOfEra + z / 146097 * 400 + (if month < 2 then 1 else 0), month, day)

/-! ### Instants -/

/-- The milliseconds from midnight to a time of day. -/
def timeMillis (f : Fields) : Int :=
  f.hours * hourMillis + f.minutes * 60000 + f.seconds * 1000 + f.millis

/-- The instant with given fields in a zone. -/
def Fields.instant (zone : Zone) (f : Fields) : Int :=
  dayNumber f.year f.month f.day * dayMillis + timeMillis f - zone.offset

/-- The fields of an instant in a zone. -/
def fieldsOf (zone : Zone) (t : Int) : Fields :=
  let u := t + zone.offset
  let (year, month, day) := civilOfDay (u / dayMillis)
  let r := u % dayMillis
  ⟨year, month, day, r / hourMillis, r / 60000 % 60, r / 1000 % 60, r % 1000⟩

/-! ### Moments -/

/-- The greatest distance of a moment from the start of 1970. -/
def reach : Int := 8640000000000000

/-- The moment of an instant: nothing, if it is out of reach. -/
def Moment.ofInstant (t : Int) : Moment := if -reach ≤ t && t ≤ reach then some t else none

/-- The moment with given fields in a zone. -/
def Moment.ofFields (zone : Zone) (f : Fields) : Moment := Moment.ofInstant (f.instant zone)

/-- The moment whose fields in a zone are those of another, changed. -/
def Moment.change (zone : Zone) (m : Moment) (f : Fields → Fields) : Moment :=
  m.bind fun t => Moment.ofFields zone (f (fieldsOf zone t))

/-- The moment with given fields in a zone, reached in two steps from the start of 1970: first its
day, then its time of day.  It is nothing if either step is out of reach. -/
def Moment.build (zone : Zone) (f : Fields) : Moment :=
  let day : Moment := Moment.change zone (some 0) fun g =>
    { g with year := f.year, month := f.month, day := f.day }
  Moment.change zone day fun g =>
    { g with hours := f.hours, minutes := f.minutes, seconds := f.seconds, millis := f.millis }

end RowLiteral
