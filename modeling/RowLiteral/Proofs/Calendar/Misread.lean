import RowLiteral.Proofs.Calendar.RoundTrip

/-!
# Calendar — dates that are read as others

What is written for a moment should be read back, or refused (`Temporal.IsReadAs`).  It is neither
in two cases, and in no others (`Temporal.isReadAs_format_iff`):

* a date of a year from -99 to -10 is read as a date of the year 0, since the zeros that fill up the
  year are written before its sign (`Temporal.not_isReadAs_two_digits`);
* the 29th of February of the year 0 is read as the day after it, since short years are built in the
  twentieth century, and 1900 has no such day (`Temporal.not_isReadAs_leapDay`).
-/

namespace RowLiteral
open Timestamp

variable {machine zone : Zone} {calendar : Calendar} {t : Int} {f : Fields}

/-! ### The year 0 -/

/-- The fields of the midnight that starts a date. -/
def Fields.ofDate (year month day : Int) : Fields := ⟨year, month, day, 0, 0, 0, 0⟩

theorem Fields.instant_ofDate (year month day : Int) :
    (Fields.ofDate year month day).instant 0 = RowLiteral.dayNumber year month day * dayMillis := by
  simp [Fields.instant, Fields.ofDate, timeMillis]

theorem Fields.isProper_ofDate {year month day : Int} (date : IsDate year month day) :
    (Fields.ofDate year month day).IsProper :=
  ⟨date, by simp [Fields.ofDate], by simp [Fields.ofDate], by simp [Fields.ofDate],
    by simp [Fields.ofDate]⟩

/-- A day of the year 0 is a day of that year, also where its month carries over. -/
theorem Timestamp.exists_momentIn_yearZero {month day : Int} (hm : 0 ≤ month ∧ month < 100)
    (hd : 1 ≤ day ∧ day ≤ 28) :
    ∃ s, momentIn 0 (.ofDate 0 month day) = some s ∧
      yearStart 0 * dayMillis ≤ s ∧ s < yearStart 1 * dayMillis := by
  have fixed : Zone.IsFixed 0 := ⟨by decide, by decide⟩
  have inYear : 0 ≤ month % 12 ∧ month % 12 < 12 := by omega
  -- the day is built in the twentieth century, where the months carry over
  have built := Fields.isProper_ofDate (isDate_of_le (1900 + month / 12) inYear hd)
  have builtReached := inReach_instant fixed built
    (show 0 ≤ 1900 + month / 12 ∧ 1900 + month / 12 < 2000 by omega)
  have carried : (Fields.ofDate 1900 month day).instant 0 =
      (Fields.ofDate (1900 + month / 12) (month % 12) day).instant 0 := by
    rw [Fields.instant_ofDate, Fields.instant_ofDate, dayNumber_carry 1900 month]
  -- and its month and day are then taken over to the year 0
  have date := isDate_of_le 0 inYear hd
  have moved := Fields.isProper_ofDate date
  have movedReached := inReach_instant fixed moved (show (0 : Int) ≤ 0 ∧ (0 : Int) < 2000 by decide)
  have first : Moment.ofFields 0 (.ofDate 1900 month day) =
      some ((Fields.ofDate (1900 + month / 12) (month % 12) day).instant 0) := by
    rw [Moment.ofFields, carried, Moment.ofInstant_of_inReach builtReached]
  have second := Moment.change_some 0
    ((Fields.ofDate (1900 + month / 12) (month % 12) day).instant 0)
    fun g => g.onDate 0 g.month g.day
  rw [← first, fieldsOf_instant built] at second
  refine ⟨(Fields.ofDate 0 (month % 12) day).instant 0, ?_, ?_⟩
  · rw [momentIn_short 0 (show (0 : Int) ≤ 0 ∧ (0 : Int) ≤ 99 by decide)]
    exact second.trans (Moment.ofInstant_of_inReach movedReached)
  · have bounds : yearStart 0 ≤ dayNumber 0 (month % 12) day ∧
        dayNumber 0 (month % 12) day < yearStart 1 := dayNumber_bounds date
    rw [Fields.instant_ofDate, dayMillis]
    omega

/-- The days of a year start within that year. -/
theorem dayStart_bounds (zone : Zone) (t : Int) :
    yearStart (fieldsOf zone t).year * dayMillis - zone.offset ≤ dayStart zone t ∧
      dayStart zone t < yearStart ((fieldsOf zone t).year + 1) * dayMillis - zone.offset := by
  have bounds := dayNumber_bounds (isProper_fieldsOf zone t).date
  have number := dayNumber_fieldsOf zone t
  rw [Fields.dayNumber] at number
  rw [dayStart, ← number, dayMillis]
  omega

namespace Temporal

/-! ### What is read for a date -/

/-- A text of a type is read as an instant, or refused as no text of the type. -/
def IsReadAs (type : TemporalType) (text : String) (t : Int)
    (read : Except TemporalFailure Moment) : Prop :=
  read = .ok (some t) ∨ read = .error (.unreadable type text)

theorem isReadAs_ok_iff {type : TemporalType} {text : String} {s : Int} :
    IsReadAs type text t (.ok (some s)) ↔ s = t := by
  constructor
  · rintro (same | refused)
    · exact Option.some.inj (Except.ok.inj same)
    · exact absurd refused nofun
  · rintro rfl
    exact .inl rfl

/-! ### Years with two digits before the year 0 -/

/-- A date of such a year spells a moment of the year 0, or of the day after it. -/
theorem exists_moment_two_digits (machine : Zone) (proper : f.IsProper)
    (h : -99 ≤ f.year ∧ f.year ≤ -10) : ∃ s, moment machine (completed (dateChars f)) = some s ∧
      yearStart 0 * dayMillis ≤ s ∧ s < (yearStart 1 + 2) * dayMillis := by
  have month := proper.date.month
  have day := proper.date.day
  have day_le := proper.date.day_le
  obtain ⟨s, built, least, greatest⟩ :=
    @Timestamp.exists_momentIn_yearZero (-f.year - 1) (f.month + 1) (by omega) (by omega)
  -- the day of the month is the hours by which the zone is behind UTC
  have bounds : yearStart 0 * dayMillis ≤ s - -(f.day * 3600) * 1000 ∧
      s - -(f.day * 3600) * 1000 < (yearStart 1 + 2) * dayMillis := by
    rw [dayMillis] at *
    omega
  have reached : InReach (s - -(f.day * 3600) * 1000) := by
    rw [yearStart, yearStart, dayMillis] at bounds
    rw [InReach, reach]
    omega
  refine ⟨_, ?_, bounds⟩
  rw [moment, parts?_two_digits_date proper h, Option.bind_some, Parts.moment,
    ← Moment.ofInstant_of_inReach reached]
  exact congrArg (Option.bind · _) built

/-- **A date of a year with two digits before the year 0 is read as one of the year 0.** -/
theorem not_isReadAs_two_digits (fixed : machine.IsFixed) (calendar : Calendar)
    (h : -99 ≤ (fieldsOf (calendar.zone machine) t).year ∧
      (fieldsOf (calendar.zone machine) t).year ≤ -10) :
    ¬ IsReadAs .date (formatDate (calendar.zone machine) (some t))
      (dayStart (calendar.zone machine) t)
      (readDate machine calendar (formatDate (calendar.zone machine) (some t))) := by
  obtain ⟨s, spelled, least, greatest⟩ :=
    exists_moment_two_digits machine (isProper_fieldsOf (calendar.zone machine) t) h
  rw [← toList_formatDate] at spelled
  have ahead := fixed.ahead calendar
  have zone := fixed.zone calendar
  have before := (dayStart_bounds (calendar.zone machine) t).2
  have start := dayStart_le (calendar.zone machine) (s + calendar.ahead machine)
  rw [Zone.IsFixed] at zone
  rw [yearStart] at least greatest before
  rw [dayMillis] at *
  have reached : InReach (s + calendar.ahead machine) := by
    rw [InReach, reach]
    omega
  have startReached :
      InReach (dayStart (calendar.zone machine) (s + calendar.ahead machine)) := by
    rw [InReach, reach]
    omega
  have read := read?_of_some (trimChars_formatDate (calendar.zone machine) t)
    (by rw [toList_formatDate, hasZone_dateChars]) spelled reached
  rw [readDate_of_read? read reached, Moment.ofInstant_of_inReach startReached, isReadAs_ok_iff]
  omega

/-! ### The leap day of the year 0 -/

theorem inReach_leapDay (fixed : zone.IsFixed) (proper : f.IsProper) (leapDay : IsLeapDayOfZero f) :
    InReach (f.instant zone + dayMillis) := by
  have bounds := dayNumber_bounds proper.date
  have time := proper.timeMillis_range
  rw [leapDay.1, yearStart, yearStart] at bounds
  rw [Zone.IsFixed, dayMillis] at fixed
  rw [dayMillis] at time
  rw [Fields.instant, leapDay.1, InReach, reach, dayMillis]
  omega

/-- A text that spells the leap day of the year 0 is read as the day after it. -/
theorem read?_of_leapDay {text : String} (fixed : machine.IsFixed) (calendar : Calendar)
    (proper : f.IsProper) (leapDay : IsLeapDayOfZero f)
    (trimmed : Text.trimChars text.toList = text.toList)
    (zoneless : hasZone text.toList = false) (stamp : completed text.toList = stampChars f) :
    read? machine calendar text = some (some (f.instant (calendar.zone machine) + dayMillis)) := by
  have spelled : moment machine (completed text.toList) = some (f.instant machine + dayMillis) := by
    rw [stamp, moment, parts?_stampChars proper (le_of_eq leapDay.1.symm)]
    exact momentIn_leapDay fixed proper leapDay
  have shifted : f.instant machine + dayMillis + calendar.ahead machine =
      f.instant (calendar.zone machine) + dayMillis := by
    rw [← instant_zone, add_right_comm]
  rw [← shifted]
  refine read?_of_some trimmed zoneless spelled ?_
  rw [shifted]
  exact inReach_leapDay (fixed.zone calendar) proper leapDay

theorem not_isReadAs_leapDay (fixed : machine.IsFixed) (calendar : Calendar)
    (leapDay : IsLeapDayOfZero (fieldsOf (calendar.zone machine) t)) :
    ¬ IsReadAs .timestamp (formatTimestamp (calendar.zone machine) (some t)) t
        (readTimestamp machine calendar (formatTimestamp (calendar.zone machine) (some t))) ∧
      ¬ IsReadAs .date (formatDate (calendar.zone machine) (some t))
        (dayStart (calendar.zone machine) t)
        (readDate machine calendar (formatDate (calendar.zone machine) (some t))) := by
  have proper := isProper_fieldsOf (calendar.zone machine) t
  have zone := fixed.zone calendar
  have positive := le_of_eq leapDay.1.symm
  have stampRead := read?_of_leapDay fixed calendar proper leapDay
    (trimChars_formatTimestamp (calendar.zone machine) t)
    (by rw [toList_formatTimestamp, hasZone_stampChars])
    (by rw [toList_formatTimestamp, completed_stampChars proper positive])
  have dateRead := read?_of_leapDay fixed calendar proper.midnight leapDay
    (trimChars_formatDate (calendar.zone machine) t)
    (by rw [toList_formatDate, hasZone_dateChars])
    (by rw [toList_formatDate, completed_dateChars proper positive])
  have reached := inReach_leapDay zone proper.midnight leapDay
  rw [instant_fieldsOf] at stampRead
  rw [instant_midnight] at dateRead reached
  have start := dayStart_le (calendar.zone machine) (dayStart (calendar.zone machine) t + dayMillis)
  have bounds := dayStart_bounds (calendar.zone machine) t
  rw [leapDay.1, yearStart, yearStart] at bounds
  rw [Zone.IsFixed, dayMillis] at zone
  rw [dayMillis] at bounds start stampRead dateRead reached
  have startReached :
      InReach (dayStart (calendar.zone machine)
        (dayStart (calendar.zone machine) t + 86400000)) := by
    rw [InReach, reach]
    omega
  constructor
  · rw [readTimestamp, stampRead, orUnreadable, isReadAs_ok_iff]
    omega
  · rw [readDate_of_read? dateRead reached, Moment.ofInstant_of_inReach startReached,
      isReadAs_ok_iff]
    omega

/-! ### All years -/

theorem isReadAs_formatTimestamp (fixed : machine.IsFixed) (calendar : Calendar)
    (reached : InReach t) (ordinary : ¬ IsLeapDayOfZero (fieldsOf (calendar.zone machine) t)) :
    IsReadAs .timestamp (formatTimestamp (calendar.zone machine) (some t)) t
      (readTimestamp machine calendar (formatTimestamp (calendar.zone machine) (some t))) := by
  have proper := isProper_fieldsOf (calendar.zone machine) t
  rw [readTimestamp]
  by_cases negative : (fieldsOf (calendar.zone machine) t).year < 0
  · have spelled : moment machine
        (completed (formatTimestamp (calendar.zone machine) (some t)).toList) = none := by
      rw [toList_formatTimestamp, moment, parts?_stampChars_of_neg proper negative]
      rfl
    rw [read?_of_none (trimChars_formatTimestamp _ _) spelled]
    exact .inr rfl
  · rw [read?_formatTimestamp fixed calendar reached (not_lt.1 negative) ordinary]
    cases Moment.ofInstant (t - calendar.ahead machine) with
    | none => exact .inr rfl
    | some s => exact .inl rfl

theorem isReadAs_formatDate (fixed : machine.IsFixed) (calendar : Calendar)
    (reached : InReach t) (ordinary : ¬ IsLeapDayOfZero (fieldsOf (calendar.zone machine) t))
    (digits : ¬ (-99 ≤ (fieldsOf (calendar.zone machine) t).year ∧
      (fieldsOf (calendar.zone machine) t).year ≤ -10)) :
    IsReadAs .date (formatDate (calendar.zone machine) (some t))
      (dayStart (calendar.zone machine) t)
      (readDate machine calendar (formatDate (calendar.zone machine) (some t))) := by
  by_cases negative : (fieldsOf (calendar.zone machine) t).year < 0
  · have spelled : moment machine
        (completed (formatDate (calendar.zone machine) (some t)).toList) = none := by
      rw [toList_formatDate, moment, parts?_dateChars_of_neg negative (by omega)]
      rfl
    rw [readDate, read?_of_none (trimChars_formatDate _ _) spelled]
    exact .inr rfl
  · have positive := not_lt.1 negative
    have startReached : InReach (dayStart (calendar.zone machine) t) := by
      have start := dayStart_le (calendar.zone machine) t
      have bounds := dayStart_bounds (calendar.zone machine) t
      have zone := fixed.zone calendar
      rw [Zone.IsFixed, dayMillis] at zone
      rw [yearStart, dayMillis] at bounds
      rw [InReach, reach] at *
      omega
    have read := read?_formatDate fixed calendar startReached positive ordinary
    by_cases within : InReach (dayStart (calendar.zone machine) t - calendar.ahead machine)
    · rw [Moment.ofInstant_of_inReach within, Option.map_some] at read
      rw [readDate_of_read? read startReached, dayStart_dayStart,
        Moment.ofInstant_of_inReach startReached]
      exact .inl rfl
    · rw [Moment.ofInstant_of_not_inReach within, Option.map_none] at read
      rw [readDate, read]
      exact .inr rfl

/-- **What is written for a moment is read back or refused, but in two cases:** a date of a year
with two digits before the year 0, and the leap day of the year 0. -/
theorem isReadAs_format_iff (machine : Zone) (fixed : machine.IsFixed) (calendar : Calendar)
    (t : Int) (reached : InReach t) :
    (IsReadAs .date (formatDate (calendar.zone machine) (some t))
        (dayStart (calendar.zone machine) t)
        (readDate machine calendar (formatDate (calendar.zone machine) (some t))) ↔
      ¬ IsLeapDayOfZero (fieldsOf (calendar.zone machine) t) ∧
        ¬ (-99 ≤ (fieldsOf (calendar.zone machine) t).year ∧
          (fieldsOf (calendar.zone machine) t).year ≤ -10)) ∧
    (IsReadAs .timestamp (formatTimestamp (calendar.zone machine) (some t)) t
        (readTimestamp machine calendar (formatTimestamp (calendar.zone machine) (some t))) ↔
      ¬ IsLeapDayOfZero (fieldsOf (calendar.zone machine) t)) := by
  refine ⟨⟨fun read => ⟨fun leapDay => ?_, fun digits => ?_⟩, fun h => ?_⟩,
    fun read leapDay => ?_, fun ordinary => ?_⟩
  · exact (not_isReadAs_leapDay fixed calendar leapDay).2 read
  · exact not_isReadAs_two_digits fixed calendar digits read
  · exact isReadAs_formatDate fixed calendar reached h.1 h.2
  · exact (not_isReadAs_leapDay fixed calendar leapDay).1 read
  · exact isReadAs_formatTimestamp fixed calendar reached ordinary

theorem isReadAs_format_iff_tenth :
    Zone.IsFixed 5 ∧ InReach (-62477481600000) ∧
      (fieldsOf 0 (-62477481600000)).year = -10 ∧
      ¬ IsReadAs .date (formatDate 0 (some (-62477481600000))) (-62477481600000)
        (readDate 5 .utc (formatDate 0 (some (-62477481600000)))) ∧
      IsReadAs .timestamp (formatTimestamp 0 (some (-62477481600000))) (-62477481600000)
        (readTimestamp 5 .utc (formatTimestamp 0 (some (-62477481600000)))) := by
  have fixed : Zone.IsFixed 5 := ⟨by decide, by decide⟩
  have reached : InReach (-62477481600000) := ⟨by decide, by decide⟩
  have year : (fieldsOf 0 (-62477481600000)).year = -10 := by decide
  obtain ⟨date, timestamp⟩ := isReadAs_format_iff 5 fixed .utc (-62477481600000) reached
  refine ⟨fixed, reached, year, fun read => ?_, timestamp.2 fun leapDay => ?_⟩
  · exact (date.1 read).2 (by decide)
  · exact absurd leapDay.1 (by decide)

/-- The third of March of the year -10 is written as 0-10-03-03, and that is read as the third of
October of the year 0. -/
theorem not_isReadAs_format :
    ¬ ∀ (machine : Zone) (calendar : Calendar) (t : Int), machine.IsFixed → InReach t →
      IsReadAs .date (formatDate (calendar.zone machine) (some t))
          (dayStart (calendar.zone machine) t)
          (readDate machine calendar (formatDate (calendar.zone machine) (some t))) ∧
        IsReadAs .timestamp (formatTimestamp (calendar.zone machine) (some t)) t
          (readTimestamp machine calendar (formatTimestamp (calendar.zone machine) (some t))) := by
  intro h
  have read := (h 0 .utc (-62477481600000) ⟨by decide, by decide⟩ ⟨by decide, by decide⟩).1
  have other : readDate 0 .utc (formatDate 0 (some (-62477481600000))) =
      .ok (some (-62143372800000)) := by decide +kernel
  exact absurd (isReadAs_ok_iff.1 (other ▸ read)) (by decide)

end Temporal

end RowLiteral
