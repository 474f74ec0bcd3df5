import RowLiteral.Proofs.Calendar.Reading

/-!
# Calendar — what is written is read back

The moment that a text spells is that of its fields on the machine.  In the UTC calendar it is then
taken over to UTC, which adds what the clocks of the machine are ahead of UTC (`Calendar.ahead`,
`Temporal.read?_eq`).  So a text that spells the fields of an instant in a calendar is read as this
instant, if the machine reaches it (`Temporal.read?_of_parts`).

`Temporal.read_format` is the law for all three types, from the year 1 on and two days away from the
bounds: a timestamp is read as its instant, a date as the midnight of its day and a time as the time
of day on the first of January 1970.
-/

namespace RowLiteral

variable {machine : Zone} {calendar : Calendar} {t : Int} {f : Fields} {text : String}

/-! ### Calendars -/

/-- The milliseconds by which the clocks of a machine are ahead of those of a calendar. -/
def Calendar.ahead (machine : Zone) (calendar : Calendar) : Int :=
  machine.offset - (calendar.zone machine).offset

theorem Calendar.ahead_machine (machine : Zone) : Calendar.ahead machine .machine = 0 :=
  Int.sub_self _

theorem Calendar.ahead_utc (machine : Zone) : Calendar.ahead machine .utc = machine.offset :=
  Int.sub_zero _

theorem Zone.IsFixed.zone (fixed : machine.IsFixed) (calendar : Calendar) :
    (calendar.zone machine).IsFixed := by
  cases calendar with
  | machine => exact fixed
  | utc => exact show Zone.IsFixed 0 from ⟨by decide, by decide⟩

theorem Zone.IsFixed.ahead (fixed : machine.IsFixed) (calendar : Calendar) :
    -dayMillis < calendar.ahead machine ∧ calendar.ahead machine < dayMillis := by
  cases calendar with
  | machine =>
      rw [Calendar.ahead_machine]
      decide
  | utc =>
      rw [Calendar.ahead_utc]
      exact fixed

/-- The instant with given fields on the machine, and that with the same fields in a calendar. -/
theorem instant_zone (machine : Zone) (calendar : Calendar) (f : Fields) :
    f.instant machine + calendar.ahead machine = f.instant (calendar.zone machine) := by
  rw [Fields.instant, Fields.instant, Calendar.ahead]
  ring

/-- The start of the day on which a day starts. -/
theorem dayStart_dayStart (zone : Zone) (t : Int) :
    dayStart zone (dayStart zone t) = dayStart zone t := by
  rw [← instant_midnight, fieldsOf_dayStart, ← instant_midnight]
  rfl

namespace Temporal
open Timestamp Number

/-- A text is read on the machine, and taken over to the calendar where no zone is seen. -/
theorem read?_eq (machine : Zone) (calendar : Calendar) (text : String) :
    read? machine calendar text =
      (moment machine (completed (Text.trimChars text.toList))).map fun t =>
        if hasZone (Text.trimChars text.toList) then some t
          else Moment.ofInstant (t + calendar.ahead machine) := by
  refine Option.map_congr fun t spelled => ?_
  have reached : InReach t := inReach_of_moment spelled
  cases calendar with
  | machine =>
      rw [Calendar.ahead_machine, Int.add_zero, Moment.ofInstant_of_inReach reached, ite_self]
      rfl
  | utc =>
      rw [Calendar.ahead_utc, toUtc_some]
      cases hasZone (Text.trimChars text.toList) <;> rfl

/-- A text without a zone is read as the moment that it spells on the machine, taken over to the
calendar. -/
theorem read?_of_some {cs : List Char} (trimmed : Text.trimChars text.toList = cs)
    (zoneless : hasZone cs = false) (spelled : moment machine (completed cs) = some t)
    (reached : InReach (t + calendar.ahead machine)) :
    read? machine calendar text = some (some (t + calendar.ahead machine)) := by
  rw [read?_eq, trimmed, spelled, Option.map_some, zoneless, if_neg Bool.false_ne_true,
    Moment.ofInstant_of_inReach reached]

theorem read?_of_none {cs : List Char} (trimmed : Text.trimChars text.toList = cs)
    (spelled : moment machine (completed cs) = none) : read? machine calendar text = none := by
  rw [read?_eq, trimmed, spelled, Option.map_none]

/-! ### From the year 0 on -/

/-- A text that spells proper fields is read as the instant with these fields in the calendar, where
the machine reaches it. -/
theorem read?_of_parts {cs : List Char} (fixed : machine.IsFixed) (calendar : Calendar)
    (proper : f.IsProper) (positive : 0 ≤ f.year) (ordinary : ¬ IsLeapDayOfZero f)
    (trimmed : Text.trimChars text.toList = cs) (zoneless : hasZone cs = false)
    (parts : parts? (completed cs) = some ⟨f, none⟩)
    (reached : InReach (f.instant (calendar.zone machine))) :
    read? machine calendar text = (Moment.ofInstant (f.instant machine)).map fun _ =>
      some (f.instant (calendar.zone machine)) := by
  have spelled : moment machine (completed cs) = Moment.ofInstant (f.instant machine) := by
    rw [moment, parts]
    exact momentIn_eq fixed proper positive ordinary
  by_cases within : InReach (f.instant machine)
  · rw [Moment.ofInstant_of_inReach within] at spelled ⊢
    rw [← instant_zone] at reached ⊢
    exact read?_of_some trimmed zoneless spelled reached
  · rw [Moment.ofInstant_of_not_inReach within] at spelled ⊢
    exact read?_of_none trimmed spelled

/-- The same, by the instant: the machine reads it where its own clocks reach these fields. -/
theorem read?_of_parts_at {cs : List Char} (fixed : machine.IsFixed) (calendar : Calendar)
    (proper : f.IsProper) (positive : 0 ≤ f.year) (ordinary : ¬ IsLeapDayOfZero f)
    (trimmed : Text.trimChars text.toList = cs) (zoneless : hasZone cs = false)
    (parts : parts? (completed cs) = some ⟨f, none⟩)
    (same : f.instant (calendar.zone machine) = t) (reached : InReach t) :
    read? machine calendar text =
      (Moment.ofInstant (t - calendar.ahead machine)).map fun _ => some t := by
  have read := read?_of_parts fixed calendar proper positive ordinary trimmed zoneless parts
    (by rwa [same])
  rw [eq_sub_of_add_eq (instant_zone machine calendar f), same] at read
  exact read

theorem trimChars_formatDate (zone : Zone) (t : Int) :
    Text.trimChars (formatDate zone (some t)).toList = (formatDate zone (some t)).toList := by
  rw [toList_formatDate]
  exact trimChars_of_forall fun c => isMargin_of_mem_dateChars

theorem trimChars_formatTimestamp (zone : Zone) (t : Int) :
    Text.trimChars (formatTimestamp zone (some t)).toList =
      (formatTimestamp zone (some t)).toList := by
  rw [toList_formatTimestamp, trimChars_stampChars]

/-- A timestamp is read as the instant that it was written for. -/
theorem read?_formatTimestamp (fixed : machine.IsFixed) (calendar : Calendar) (reached : InReach t)
    (positive : 0 ≤ (fieldsOf (calendar.zone machine) t).year)
    (ordinary : ¬ IsLeapDayOfZero (fieldsOf (calendar.zone machine) t)) :
    read? machine calendar (formatTimestamp (calendar.zone machine) (some t)) =
      (Moment.ofInstant (t - calendar.ahead machine)).map fun _ => some t := by
  have proper := isProper_fieldsOf (calendar.zone machine) t
  refine read?_of_parts_at fixed calendar proper positive ordinary (trimChars_formatTimestamp _ t)
    ?_ ?_ (instant_fieldsOf _ t) reached
  · rw [toList_formatTimestamp, hasZone_stampChars]
  · rw [toList_formatTimestamp, completed_stampChars proper positive,
      parts?_stampChars proper positive]

/-- A date is read as the start of the day that it was written for. -/
theorem read?_formatDate (fixed : machine.IsFixed) (calendar : Calendar)
    (reached : InReach (dayStart (calendar.zone machine) t))
    (positive : 0 ≤ (fieldsOf (calendar.zone machine) t).year)
    (ordinary : ¬ IsLeapDayOfZero (fieldsOf (calendar.zone machine) t)) :
    read? machine calendar (formatDate (calendar.zone machine) (some t)) =
      (Moment.ofInstant (dayStart (calendar.zone machine) t - calendar.ahead machine)).map fun _ =>
        some (dayStart (calendar.zone machine) t) := by
  have proper := isProper_fieldsOf (calendar.zone machine) t
  refine read?_of_parts_at fixed calendar proper.midnight positive ordinary
    (trimChars_formatDate _ t) ?_ ?_ (instant_midnight _ t) reached
  · rw [toList_formatDate, hasZone_dateChars]
  · rw [toList_formatDate, completed_dateChars proper positive,
      parts?_stampChars proper.midnight positive]

theorem readDate_of_read? (read : read? machine calendar text = some (some t))
    (reached : InReach t) : readDate machine calendar text =
      .ok (Moment.ofInstant (dayStart (calendar.zone machine) t)) := by
  rw [readDate, read, Option.map_some, midnight_some _ reached]
  rfl

/-- A time is read as the time of day that it was written for, on the first of January 1970. -/
theorem readTime_formatTime (fixed : machine.IsFixed) (calendar : Calendar) (t : Int) :
    readTime machine calendar (formatTime (calendar.zone machine) (some t)) =
      .ok (some (((fieldsOf (calendar.zone machine) t).onDate 1970 0 1).instant
        (calendar.zone machine))) := by
  have first : IsDate 1970 0 1 := ⟨by decide, by decide⟩
  have proper := (isProper_fieldsOf (calendar.zone machine) t).onDate first
  have trimmed : Text.trim (formatTime (calendar.zone machine) (some t)) =
      formatTime (calendar.zone machine) (some t) := by
    rw [Text.trim, toList_formatTime, trimChars_of_forall fun c => isMargin_of_mem_timeChars,
      ← toList_formatTime, String.ofList_toList]
  have text : ("1970-01-01 " ++ formatTime (calendar.zone machine) (some t)).toList =
      stampChars ((fieldsOf (calendar.zone machine) t).onDate 1970 0 1) := by
    have date : dateChars ((fieldsOf (calendar.zone machine) t).onDate 1970 0 1) =
        "1970-01-01".toList :=
      show dateChars ⟨1970, 0, 1, 0, 0, 0, 0⟩ = _ by decide
    rw [String.toList_append, toList_formatTime, stampChars, date]
    rfl
  have positive : (0 : Int) ≤ 1970 := by decide
  have ordinary : ¬ IsLeapDayOfZero ((fieldsOf (calendar.zone machine) t).onDate 1970 0 1) :=
    fun leapDay => absurd leapDay.1 (show (1970 : Int) ≠ 0 by decide)
  have reached := fun zone (fixed : Zone.IsFixed zone) =>
    inReach_instant fixed proper (show (0 : Int) ≤ 1970 ∧ (1970 : Int) < 2000 by decide)
  have read := read?_of_parts fixed calendar proper positive ordinary
    (by rw [text, trimChars_stampChars]) (hasZone_stampChars _)
    (by rw [completed_stampChars proper positive, parts?_stampChars proper positive])
    (reached _ (fixed.zone calendar))
  rw [readTime, trimmed, read, Moment.ofInstant_of_inReach (reached _ fixed)]
  rfl

/-- **What is written for an instant is read back:** a timestamp as the instant itself, a date as
the midnight of its day and a time as its time of day on the first of January 1970.  The year of the
instant is 1 or later, and the instant is more than two days away from the bounds. -/
theorem read_format (machine : Zone) (fixed : machine.IsFixed) (calendar : Calendar) (t : Int)
    (year : 1 ≤ (fieldsOf (calendar.zone machine) t).year)
    (within : -reach + 2 * dayMillis < t ∧ t < reach - 2 * dayMillis) :
    readTimestamp machine calendar (formatTimestamp (calendar.zone machine) (some t)) =
        .ok (some t) ∧
      readDate machine calendar (formatDate (calendar.zone machine) (some t)) =
        .ok (some ((fieldsOf (calendar.zone machine) t).midnight.instant
          (calendar.zone machine))) ∧
      readTime machine calendar (formatTime (calendar.zone machine) (some t)) =
        .ok (some (((fieldsOf (calendar.zone machine) t).onDate 1970 0 1).instant
          (calendar.zone machine))) := by
  have ahead := fixed.ahead calendar
  have start := dayStart_le (calendar.zone machine) t
  have positive : 0 ≤ (fieldsOf (calendar.zone machine) t).year := by omega
  have ordinary : ¬ IsLeapDayOfZero (fieldsOf (calendar.zone machine) t) := fun leapDay => by
    have := leapDay.1
    omega
  have reached : InReach t := by
    rw [InReach]
    rw [dayMillis] at within
    omega
  have onMachine : InReach (t - calendar.ahead machine) := by
    rw [InReach]
    rw [dayMillis] at within ahead
    omega
  have startReached : InReach (dayStart (calendar.zone machine) t) := by
    rw [InReach]
    rw [dayMillis] at within start
    omega
  have startOnMachine :
      InReach (dayStart (calendar.zone machine) t - calendar.ahead machine) := by
    rw [InReach]
    rw [dayMillis] at within ahead start
    omega
  refine ⟨?_, ?_, readTime_formatTime fixed calendar t⟩
  · rw [readTimestamp, read?_formatTimestamp fixed calendar reached positive ordinary,
      Moment.ofInstant_of_inReach onMachine]
    rfl
  · have read := read?_formatDate fixed calendar startReached positive ordinary
    rw [Moment.ofInstant_of_inReach startOnMachine, Option.map_some] at read
    rw [readDate_of_read? read startReached, dayStart_dayStart,
      Moment.ofInstant_of_inReach startReached, instant_midnight]

theorem read_format_east :
    Zone.IsFixed 5 ∧ 1 ≤ (fieldsOf 5 1000000000007).year ∧
      formatTimestamp 5 (some 1000000000007) = "2001-09-09 06:46:40.007" ∧
      readTimestamp 5 .machine (formatTimestamp 5 (some 1000000000007)) =
        .ok (some 1000000000007) ∧
      readDate 5 .machine (formatDate 5 (some 1000000000007)) = .ok (some 999975600000) ∧
      readTime 5 .machine (formatTime 5 (some 1000000000007)) = .ok (some 6400007) := by
  have fixed : Zone.IsFixed 5 := ⟨by decide, by decide⟩
  have year : 1 ≤ (fieldsOf 5 1000000000007).year := by decide
  exact ⟨fixed, year, by decide, read_format 5 fixed .machine 1000000000007 year (by decide)⟩

end Temporal

end RowLiteral
