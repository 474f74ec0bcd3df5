import RowLiteral.Calendar.Temporal
import RowLiteral.Proofs.Calendar.Civil

/-!
# Calendar — instants and fields

In a zone the instants and the *proper* fields, those within their ranges, correspond one to one
(`instant_fieldsOf`, `fieldsOf_instant`).  The start of a day in a zone (`dayStart`) has the fields
of that day with the time zero.

A moment that is built on the day of an instant within reach is not lost on the way: the midnight
before a moment is the start of its day (`Temporal.midnight_some`), and a moment is taken over to
UTC as the instant that shows the same fields there (`Temporal.toUtc_some`).

A zone is *fixed* when it is less than a day away from UTC.  In such a zone, the moment with proper
fields from the year 0 on is their instant (`Timestamp.momentIn_eq`), but for one day: the 29th of
February of the year 0 is built in 1900, which has no such day, and becomes the first of March
(`Timestamp.momentIn_leapDay`).
-/

namespace RowLiteral

@[simp] theorem Zone.offset_zero : (0 : Zone).offset = 0 := rfl

/-! ### Proper fields -/

/-- Fields within their ranges. -/
structure Fields.IsProper (f : Fields) : Prop where
  date : IsDate f.year f.month f.day
  hours : 0 ≤ f.hours ∧ f.hours < 24
  minutes : 0 ≤ f.minutes ∧ f.minutes < 60
  seconds : 0 ≤ f.seconds ∧ f.seconds < 60
  millis : 0 ≤ f.millis ∧ f.millis < 1000

/-- The fields of the midnight of the same day. -/
def Fields.midnight (f : Fields) : Fields := ⟨f.year, f.month, f.day, 0, 0, 0, 0⟩

/-- The same time of day on another day. -/
def Fields.onDate (f : Fields) (year month day : Int) : Fields :=
  ⟨year, month, day, f.hours, f.minutes, f.seconds, f.millis⟩

/-- The number of the day of fields. -/
def Fields.dayNumber (f : Fields) : Int := RowLiteral.dayNumber f.year f.month f.day

variable {zone : Zone} {t : Int} {f : Fields}

theorem Fields.IsProper.midnight (h : f.IsProper) : f.midnight.IsProper :=
  ⟨h.date, by simp [Fields.midnight], by simp [Fields.midnight], by simp [Fields.midnight],
    by simp [Fields.midnight]⟩

theorem Fields.IsProper.onDate (h : f.IsProper) {year month day : Int}
    (date : IsDate year month day) :
    (f.onDate year month day).IsProper := ⟨date, h.hours, h.minutes, h.seconds, h.millis⟩

theorem Fields.IsProper.timeMillis_range (h : f.IsProper) :
    0 ≤ timeMillis f ∧ timeMillis f < dayMillis := by
  obtain ⟨-, hours, minutes, seconds, millis⟩ := h
  rw [timeMillis, hourMillis, dayMillis]
  omega

theorem isProper_fieldsOf (zone : Zone) (t : Int) : (fieldsOf zone t).IsProper := by
  refine ⟨isDate_civilOfDay _, ?_, ?_, ?_, ?_⟩ <;> simp only [fieldsOf, dayMillis, hourMillis] <;>
    omega

/-- The time of day of the fields of an instant. -/
theorem timeMillis_fieldsOf (zone : Zone) (t : Int) :
    timeMillis (fieldsOf zone t) = (t + zone.offset) % dayMillis := by
  simp only [timeMillis, fieldsOf, hourMillis, dayMillis]
  omega

/-- The day of the fields of an instant. -/
theorem dayNumber_fieldsOf (zone : Zone) (t : Int) :
    (fieldsOf zone t).dayNumber = (t + zone.offset) / dayMillis := dayNumber_civilOfDay _

/-- **The instant with the fields of an instant.** -/
theorem instant_fieldsOf (zone : Zone) (t : Int) : (fieldsOf zone t).instant zone = t := by
  have days := dayNumber_fieldsOf zone t
  rw [Fields.dayNumber] at days
  rw [Fields.instant, days, timeMillis_fieldsOf, Int.ediv_mul_add_emod, add_sub_cancel_right]

/-- **The fields of the instant with proper fields.** -/
theorem fieldsOf_instant (h : f.IsProper) (zone : Zone) : fieldsOf zone (f.instant zone) = f := by
  have time := h.timeMillis_range
  have local' : f.instant zone + zone.offset = f.dayNumber * dayMillis + timeMillis f := by
    rw [Fields.instant, Fields.dayNumber, sub_add_cancel]
  have day : (f.instant zone + zone.offset) / dayMillis = f.dayNumber := by
    rw [local']
    rw [dayMillis] at time ⊢
    omega
  have rest : (f.instant zone + zone.offset) % dayMillis = timeMillis f := by
    rw [local']
    rw [dayMillis] at time ⊢
    omega
  have date := civilOfDay_dayNumber h.date
  rw [← Fields.dayNumber] at date
  obtain ⟨-, hours, minutes, seconds, millis⟩ := h
  simp only [fieldsOf, day, rest, date, timeMillis, hourMillis]
  obtain ⟨year, month, d, hr, mn, sc, ms⟩ := f
  simp only [Fields.mk.injEq, true_and] at hours minutes seconds millis ⊢
  omega

/-- The fields in a zone are those in UTC of the instant that is later by the offset. -/
theorem fieldsOf_eq_utc (zone : Zone) (t : Int) :
    fieldsOf zone t = fieldsOf 0 (t + zone.offset) := by
  simp only [fieldsOf, Zone.offset_zero, add_zero]

/-! ### The start of a day -/

/-- The instant at which the day of an instant starts in a zone. -/
def dayStart (zone : Zone) (t : Int) : Int :=
  (t + zone.offset) / dayMillis * dayMillis - zone.offset

theorem instant_midnight (zone : Zone) (t : Int) :
    (fieldsOf zone t).midnight.instant zone = dayStart zone t := by
  have days := dayNumber_fieldsOf zone t
  rw [Fields.dayNumber] at days
  rw [Fields.instant, Fields.midnight, days, dayStart]
  simp [timeMillis]

/-- The fields of the start of a day are those of the day with the time zero. -/
theorem fieldsOf_dayStart (zone : Zone) (t : Int) :
    fieldsOf zone (dayStart zone t) = (fieldsOf zone t).midnight := by
  rw [← instant_midnight, fieldsOf_instant (isProper_fieldsOf zone t).midnight]

theorem dayStart_le (zone : Zone) (t : Int) :
    dayStart zone t ≤ t ∧ t < dayStart zone t + dayMillis := by
  rw [dayStart, dayMillis]
  omega

/-! ### Moments within reach -/

/-- An instant within a hundred million days of the start of 1970. -/
def InReach (t : Int) : Prop := -reach ≤ t ∧ t ≤ reach

/-- A zone less than a day away from UTC. -/
def Zone.IsFixed (zone : Zone) : Prop := -dayMillis < zone.offset ∧ zone.offset < dayMillis

/-- The bounds are the starts of days, so the days within reach are so from their start on. -/
theorem inReach_dayStart_utc (h : InReach t) : InReach (dayStart 0 t) := by
  have start := dayStart_le 0 t
  rw [InReach, reach] at h ⊢
  rw [dayStart, Zone.offset_zero, dayMillis] at start ⊢
  omega

theorem Moment.ofInstant_of_inReach (h : InReach t) : Moment.ofInstant t = some t :=
  if_pos (by simpa [InReach] using h)

theorem Moment.ofInstant_of_not_inReach (h : ¬ InReach t) : Moment.ofInstant t = none :=
  if_neg (by simpa [InReach] using h)

theorem Moment.ofInstant_eq_none_iff : Moment.ofInstant t = none ↔ ¬ InReach t := by
  constructor
  · intro lost reached
    exact absurd (lost.symm.trans (Moment.ofInstant_of_inReach reached)) nofun
  · exact Moment.ofInstant_of_not_inReach

theorem Moment.ofInstant_eq_some_iff {s : Int} :
    Moment.ofInstant t = some s ↔ InReach t ∧ t = s := by
  by_cases reached : InReach t
  · rw [Moment.ofInstant_of_inReach reached, Option.some.injEq, and_iff_right reached]
  · rw [Moment.ofInstant_of_not_inReach reached]
    exact iff_of_false nofun fun h => reached h.1

theorem Moment.inReach_of_ofInstant {s : Int} (h : Moment.ofInstant t = some s) : InReach s := by
  obtain ⟨reached, rfl⟩ := Moment.ofInstant_eq_some_iff.1 h
  exact reached

theorem Moment.inReach_of_change {m : Moment} {change : Fields → Fields}
    (h : Moment.change zone m change = some t) : InReach t := by
  obtain ⟨s, -, h⟩ := Option.bind_eq_some_iff.1 h
  exact Moment.inReach_of_ofInstant h

theorem Moment.change_some (zone : Zone) (t : Int) (change : Fields → Fields) :
    Moment.change zone (some t) change = Moment.ofFields zone (change (fieldsOf zone t)) := by
  rw [Moment.change, Option.bind_some]

theorem Moment.build_eq_change (zone : Zone) (f : Fields) : Moment.build zone f =
    Moment.change zone (Moment.change zone (some 0) fun g => g.onDate f.year f.month f.day)
      fun g => ⟨g.year, g.month, g.day, f.hours, f.minutes, f.seconds, f.millis⟩ := rfl

/-- A moment is built from proper fields of the day of an instant within reach. -/
theorem Moment.build_eq (reached : InReach t) (proper : f.IsProper)
    (day : f.dayNumber = (t + zone.offset) / dayMillis) :
    Moment.build zone f = Moment.ofInstant (f.instant zone) := by
  -- the day is reached first, at the time of day that the start of 1970 has in the zone
  have onDay : ((fieldsOf zone 0).onDate f.year f.month f.day).IsProper :=
    (isProper_fieldsOf zone 0).onDate proper.date
  have time : timeMillis ((fieldsOf zone 0).onDate f.year f.month f.day) =
      (0 + zone.offset) % dayMillis := timeMillis_fieldsOf zone 0
  have dayReached : InReach (((fieldsOf zone 0).onDate f.year f.month f.day).instant zone) := by
    rw [Fields.dayNumber] at day
    rw [Fields.instant, time, Fields.onDate, day]
    rw [InReach, reach] at reached ⊢
    rw [dayMillis]
    omega
  rw [Moment.build_eq_change, Moment.change_some, Moment.ofFields,
    Moment.ofInstant_of_inReach dayReached, Moment.change_some, fieldsOf_instant onDay]
  rfl

/-- The moment that is built from the fields of an instant in UTC is that of the instant. -/
theorem Moment.build_fieldsOf_utc (t : Int) :
    Moment.build 0 (fieldsOf 0 t) = Moment.ofInstant t := by
  by_cases reached : InReach (dayStart 0 t)
  · have day : (fieldsOf 0 t).dayNumber = (dayStart 0 t + (0 : Zone).offset) / dayMillis := by
      rw [dayNumber_fieldsOf, dayStart, sub_add_cancel, dayMillis]
      omega
    rw [Moment.build_eq reached (isProper_fieldsOf 0 t) day, instant_fieldsOf]
  · have onDay : ((fieldsOf 0 0).onDate (fieldsOf 0 t).year (fieldsOf 0 t).month
        (fieldsOf 0 t).day).instant 0 = dayStart 0 t := instant_midnight 0 t
    rw [Moment.ofInstant_of_not_inReach (mt inReach_dayStart_utc reached), Moment.build_eq_change,
      Moment.change_some, Moment.ofFields, onDay, Moment.ofInstant_of_not_inReach reached,
      Moment.change, Option.bind_none]

namespace Temporal

/-- The midnight before a moment is the start of its day. -/
theorem midnight_some (zone : Zone) (reached : InReach t) :
    midnight zone (some t) = Moment.ofInstant (dayStart zone t) := by
  have built := Moment.build_eq reached (isProper_fieldsOf zone t).midnight
    (dayNumber_fieldsOf zone t)
  rw [instant_midnight] at built
  exact built

/-- A moment is taken over to UTC as the instant that has the same fields there. -/
theorem toUtc_some (zone : Zone) (t : Int) :
    toUtc zone (some t) = Moment.ofInstant (t + zone.offset) := by
  have built : toUtc zone (some t) = Moment.build 0 (fieldsOf 0 (t + zone.offset)) := by
    rw [toUtc, Option.bind_some, fieldsOf_eq_utc]
  rw [built, Moment.build_fieldsOf_utc]

end Temporal

namespace Timestamp

theorem inReach_of_momentIn (h : momentIn zone f = some t) : InReach t := by
  rw [momentIn] at h
  split at h
  · exact Moment.inReach_of_change h
  · exact Moment.inReach_of_ofInstant h

/-- What a text spells is within reach. -/
theorem inReach_of_moment {machine : Zone} {cs : List Char} (h : moment machine cs = some t) :
    InReach t := by
  obtain ⟨p, -, h⟩ := Option.bind_eq_some_iff.1 h
  rw [Parts.moment] at h
  split at h
  · obtain ⟨s, -, h⟩ := Option.bind_eq_some_iff.1 h
    exact Moment.inReach_of_ofInstant h
  · exact inReach_of_momentIn h

/-! ### Short years -/

/-- The 29th of February of the year 0. -/
def IsLeapDayOfZero (f : Fields) : Prop := f.year = 0 ∧ f.month = 1 ∧ f.day = 29

/-- A date of the first hundred years is one of the same year of the twentieth century, except for
the leap day of the year 0. -/
theorem isDate_buildYear {year month day : Int} (h : IsDate year month day)
    (short : 0 ≤ year ∧ year ≤ 99) (ordinary : ¬ (year = 0 ∧ month = 1 ∧ day = 29)) :
    IsDate (1900 + year) month day := by
  refine ⟨h.month, h.day.1, ?_⟩
  have last := h.day.2
  have leap := @isLeap_iff year
  have leap' := @isLeap_iff (1900 + year)
  rw [monthLength] at last ⊢
  split at last
  · next february =>
      rw [if_pos february]
      split at last
      · next is =>
          have is := leap.1 is
          by_cases zero : year = 0
          · split <;> omega
          · rw [if_pos (leap'.2 (by omega))]
            exact last
      · split <;> omega
  · next other =>
      rw [if_neg other]
      exact last

/-- The instants of the first two thousand years are within reach. -/
theorem inReach_instant (fixed : zone.IsFixed) (proper : f.IsProper)
    (years : 0 ≤ f.year ∧ f.year < 2000) : InReach (f.instant zone) := by
  have time := proper.timeMillis_range
  have day := dayNumber_bounds proper.date
  rw [yearStart, yearStart] at day
  rw [Zone.IsFixed, dayMillis] at fixed
  rw [dayMillis] at time
  rw [Fields.instant, InReach, reach, dayMillis]
  omega

theorem momentIn_short (zone : Zone) (short : 0 ≤ f.year ∧ f.year ≤ 99) :
    momentIn zone f =
      Moment.change zone (Moment.ofFields zone (f.onDate (1900 + f.year) f.month f.day))
        fun g => g.onDate f.year g.month g.day := by
  have isShort : isShortYear f.year = true := by
    simp only [isShortYear, Bool.and_eq_true, decide_eq_true_eq]
    omega
  have build : buildYear f.year = 1900 + f.year := by
    rw [buildYear, if_pos (by simpa using short)]
  rw [momentIn, build]
  exact if_pos isShort

/-- A moment of a short year is built as a date of the twentieth century with the same instant, and
has the month and the day of that date. -/
theorem momentIn_eq_of_built (fixed : zone.IsFixed) (proper : f.IsProper)
    (short : 0 ≤ f.year ∧ f.year ≤ 99) {month day : Int} (built : IsDate (1900 + f.year) month day)
    (same : RowLiteral.dayNumber (1900 + f.year) f.month f.day =
      RowLiteral.dayNumber (1900 + f.year) month day) (date : IsDate f.year month day) :
    momentIn zone f = some ((f.onDate f.year month day).instant zone) := by
  have instants : (f.onDate (1900 + f.year) f.month f.day).instant zone =
      (f.onDate (1900 + f.year) month day).instant zone := by
    simp only [Fields.instant, Fields.onDate, same]
    rfl
  have builtReached := inReach_instant fixed (proper.onDate built)
    (by simp only [Fields.onDate]; omega)
  have reached := inReach_instant fixed (proper.onDate date) (by simp only [Fields.onDate]; omega)
  rw [momentIn_short zone short, Moment.ofFields, instants,
    Moment.ofInstant_of_inReach builtReached, Moment.change_some,
    fieldsOf_instant (proper.onDate built), Moment.ofFields,
    ← Moment.ofInstant_of_inReach reached]
  rfl

theorem isShortYear_of_long {year : Int} (long : ¬ (-99 ≤ year ∧ year ≤ 99)) :
    isShortYear year = false := by
  simp only [isShortYear, Bool.and_eq_false_iff, decide_eq_false_iff_not]
  omega

theorem buildYear_of_long {year : Int} (long : ¬ (-99 ≤ year ∧ year ≤ 99)) :
    buildYear year = year := by
  rw [buildYear, if_neg]
  simp only [Bool.and_eq_true, decide_eq_true_eq]
  omega

/-- **The moment with proper fields is their instant,** from the year 0 on and but for one day. -/
theorem momentIn_eq (fixed : zone.IsFixed) (proper : f.IsProper) (positive : 0 ≤ f.year)
    (ordinary : ¬ IsLeapDayOfZero f) : momentIn zone f = Moment.ofInstant (f.instant zone) := by
  by_cases short : f.year ≤ 99
  · have built := isDate_buildYear proper.date ⟨positive, short⟩ ordinary
    rw [momentIn_eq_of_built fixed proper ⟨positive, short⟩ built rfl proper.date]
    exact (Moment.ofInstant_of_inReach (inReach_instant fixed proper (by omega))).symm
  · have long : ¬ (-99 ≤ f.year ∧ f.year ≤ 99) := fun years => short years.2
    simp only [momentIn, buildYear_of_long long, isShortYear_of_long long, Bool.false_eq_true,
      if_false]
    rfl

/-- The leap day of the year 0 is taken for the day after it. -/
theorem momentIn_leapDay (fixed : zone.IsFixed) (proper : f.IsProper)
    (leapDay : IsLeapDayOfZero f) :
    momentIn zone f = some (f.instant zone + dayMillis) := by
  obtain ⟨year, month, day⟩ := leapDay
  -- 1900 has no 29th of February
  have built : IsDate (1900 + f.year) 2 1 := by
    rw [year]
    exact ⟨by decide, by decide⟩
  have same : RowLiteral.dayNumber (1900 + f.year) f.month f.day =
      RowLiteral.dayNumber (1900 + f.year) 2 1 := by
    rw [year, month, day]
    decide
  have date : IsDate f.year 2 1 := by
    rw [year]
    exact ⟨by decide, by decide⟩
  have next : RowLiteral.dayNumber 0 2 1 = RowLiteral.dayNumber 0 1 29 + 1 := by decide
  rw [momentIn_eq_of_built fixed proper (by omega) built same date]
  simp only [Fields.instant, Fields.onDate, year, month, day, next, timeMillis, Option.some.injEq]
  ring

end Timestamp

end RowLiteral
