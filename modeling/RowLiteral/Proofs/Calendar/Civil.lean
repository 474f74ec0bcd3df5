import Mathlib.Tactic.IntervalCases
import Mathlib.Tactic.Ring
import RowLiteral.Calendar.Basic

/-!
# Calendar — days and dates

The days of the calendar and its dates correspond one to one.  A *date* is a year, a month of it and
a day of that month (`IsDate`).  Every day has a date (`isDate_civilOfDay`), whose number is that
day (`dayNumber_civilOfDay`), and the day with the number of a date has that date
(`civilOfDay_dayNumber`).

Inside an era of 400 years, which starts on the first of March, a day is counted by centuries, by
groups of four years, by years and by days (`EraDay`).  A year has a 366th day where it is the
fourth of its group, and the last group of a century has none but in the last century.
-/

namespace RowLiteral

/-! ### The years of an era -/

/-- The days of an era before one of its years. -/
def daysBefore (year : Int) : Int := 365 * year + year / 4 - year / 100

/-- The year of an era in which a day of it falls. -/
def yearOfEra (day : Int) : Int := (day - day / 1460 + day / 36524 - day / 146096) / 365

/-- A century of an era, a group of four years, a year of the group and a day of the year. -/
structure EraDay (c g y x : Int) : Prop where
  century : 0 ≤ c ∧ c ≤ 3
  group : 0 ≤ g ∧ g ≤ 24
  year : 0 ≤ y ∧ y ≤ 3
  day : 0 ≤ x ∧ (x ≤ 364 ∨ x = 365 ∧ y = 3 ∧ (g ≤ 23 ∨ c = 3))

theorem exists_eraDay {d : Int} (least : 0 ≤ d) (greatest : d < 146097) :
    ∃ c g y x, EraDay c g y x ∧ d = 36524 * c + 1461 * g + 365 * y + x := by
  -- the last century has one day more than the others
  obtain ⟨c, r, hc, hr, rfl⟩ : ∃ c r : Int, (0 ≤ c ∧ c ≤ 3) ∧
      (0 ≤ r ∧ (r < 36524 ∨ r = 36524 ∧ c = 3)) ∧ d = 36524 * c + r := by
    by_cases last : d = 146096
    · exact ⟨3, 36524, by omega, by omega, by omega⟩
    · exact ⟨d / 36524, d % 36524, by omega, by omega, by omega⟩
  obtain ⟨g, s, hg, hs, rfl⟩ : ∃ g s : Int, (0 ≤ g ∧ g ≤ 24) ∧
      (0 ≤ s ∧ s ≤ 1460 ∧ (s = 1460 → g ≤ 23 ∨ c = 3)) ∧ r = 1461 * g + s :=
    ⟨r / 1461, r % 1461, by omega, by omega, by omega⟩
  by_cases leapDay : s = 1460
  · exact ⟨c, g, 3, 365, ⟨hc, hg, by omega, by omega⟩, by omega⟩
  · exact ⟨c, g, s / 365, s % 365, ⟨hc, hg, by omega, by omega⟩, by omega⟩

theorem daysBefore_eq {c g y : Int} (group : 0 ≤ g ∧ g ≤ 24) (year : 0 ≤ y ∧ y ≤ 3) :
    daysBefore (100 * c + 4 * g + y) = 36524 * c + 1461 * g + 365 * y := by
  rw [daysBefore]
  omega

theorem EraDay.yearOfEra_eq {c g y x : Int} (h : EraDay c g y x) :
    yearOfEra (36524 * c + 1461 * g + 365 * y + x) = 100 * c + 4 * g + y := by
  obtain ⟨century, group, year, day⟩ := h
  have groups : (36524 * c + 1461 * g + 365 * y + x) / 1460 =
      25 * c + g + (if 24 * c + g + 365 * y + x < 1460 then 0 else 1) := by
    split <;> omega
  have centuries : (36524 * c + 1461 * g + 365 * y + x) / 36524 -
      (36524 * c + 1461 * g + 365 * y + x) / 146096 = c := by
    have regroup : 36524 * c + 1461 * g + 365 * y + x = 36524 * c + (1461 * g + 365 * y + x) := by
      ring
    rw [regroup]
    by_cases last : 1461 * g + 365 * y + x = 36524
    · obtain rfl : c = 3 := by omega
      rw [last]
      rfl
    · have bounds : 0 ≤ 1461 * g + 365 * y + x ∧ 1461 * g + 365 * y + x < 36524 := by omega
      generalize 1461 * g + 365 * y + x = r at bounds
      omega
  rw [yearOfEra, add_sub_assoc, groups, centuries]
  split <;> omega

/-- The days of a year of an era: 365, and one more if the next February has 29 days. -/
theorem yearOfEra_spec {d : Int} (least : 0 ≤ d) (greatest : d < 146097) :
    (0 ≤ yearOfEra d ∧ yearOfEra d < 400) ∧ 0 ≤ d - daysBefore (yearOfEra d) ∧
      (d - daysBefore (yearOfEra d) ≤ 364 ∨ d - daysBefore (yearOfEra d) = 365 ∧
        (yearOfEra d + 1) % 4 = 0 ∧ ((yearOfEra d + 1) % 100 ≠ 0 ∨ yearOfEra d = 399)) := by
  obtain ⟨c, g, y, x, h, rfl⟩ := exists_eraDay least greatest
  rw [h.yearOfEra_eq, daysBefore_eq h.group h.year]
  obtain ⟨century, group, year, day⟩ := h
  omega

theorem yearOfEra_daysBefore {k x : Int} (era : 0 ≤ k ∧ k < 400) (least : 0 ≤ x)
    (greatest : x ≤ 364 ∨ x = 365 ∧ (k + 1) % 4 = 0 ∧ ((k + 1) % 100 ≠ 0 ∨ k = 399)) :
    yearOfEra (daysBefore k + x) = k := by
  obtain ⟨c, g, y, h, rfl⟩ : ∃ c g y : Int, EraDay c g y x ∧ k = 100 * c + 4 * g + y :=
    ⟨k / 100, k % 100 / 4, k % 4, ⟨by omega, by omega, by omega, by omega⟩, by omega⟩
  rw [daysBefore_eq h.group h.year, h.yearOfEra_eq]

/-! ### Dates -/

/-- The years in which February has 29 days. -/
def isLeap (year : Int) : Bool := year % 4 = 0 && (year % 100 ≠ 0 || year % 400 = 0)

/-- The number of days of a month, which is counted from zero. -/
def monthLength (year month : Int) : Int :=
  if month = 1 then (if isLeap year then 29 else 28)
  else if month = 3 ∨ month = 5 ∨ month = 8 ∨ month = 10 then 30
  else 31

/-- A month of a year, counted from zero, and a day of that month. -/
structure IsDate (y m d : Int) : Prop where
  month : 0 ≤ m ∧ m < 12
  day : 1 ≤ d ∧ d ≤ monthLength y m

theorem IsDate.day_le {y m d : Int} (h : IsDate y m d) : d ≤ 31 := by
  have last := h.day.2
  rw [monthLength] at last
  split at last
  · split at last <;> omega
  · split at last <;> omega

/-- Every month has 28 days. -/
theorem isDate_of_le (y : Int) {m d : Int} (month : 0 ≤ m ∧ m < 12) (day : 1 ≤ d ∧ d ≤ 28) :
    IsDate y m d := by
  refine ⟨month, day.1, ?_⟩
  rw [monthLength]
  split
  · split <;> omega
  · split <;> omega

theorem isLeap_iff {year : Int} :
    isLeap year = true ↔ year % 4 = 0 ∧ (year % 100 ≠ 0 ∨ year % 400 = 0) := by
  simp [isLeap]

/-! ### Months from March on -/

/-- The days of a year that starts in March before one of its months. -/
def monthStart (m : Int) : Int := (153 * m + 2) / 5

/-- The month, counted from January, that is `m` months after March. -/
def monthOfMarch (m : Int) : Int := if m < 10 then m + 2 else m - 10

/-- Every month but February, the last one, ends where the next one starts. -/
theorem monthLength_monthOfMarch (year : Int) {m : Int} (least : 0 ≤ m) (greatest : m ≤ 10) :
    monthLength year (monthOfMarch m) = monthStart (m + 1) - monthStart m := by
  interval_cases m <;> rfl

theorem monthOfMarch_range {m : Int} (range : 0 ≤ m ∧ m ≤ 11) :
    0 ≤ monthOfMarch m ∧ monthOfMarch m < 12 := by
  rw [monthOfMarch]
  split <;> omega

theorem monthOfMarch_add_ten {m : Int} (range : 0 ≤ m ∧ m ≤ 11) :
    (monthOfMarch m + 10) % 12 = m := by
  rw [monthOfMarch]
  split <;> omega

theorem exists_monthOfMarch {month : Int} (range : 0 ≤ month ∧ month < 12) :
    ∃ m, (0 ≤ m ∧ m ≤ 11) ∧ month = monthOfMarch m := by
  refine ⟨(month + 10) % 12, by omega, ?_⟩
  rw [monthOfMarch]
  split <;> omega

/-- The calendar year of a month of a year that starts in March. -/
def yearOfMarch (year m : Int) : Int := year + if monthOfMarch m < 2 then 1 else 0

theorem exists_yearOfMarch (year m : Int) : ∃ y, year = yearOfMarch y m :=
  ⟨year - if monthOfMarch m < 2 then 1 else 0, (sub_add_cancel _ _).symm⟩

/-- The dates by years that start in March: a day of a month is one that comes before the start of
the next month, and in February one that the year still has. -/
theorem isDate_iff {year m day : Int} (range : 0 ≤ m ∧ m ≤ 11) :
    IsDate (yearOfMarch year m) (monthOfMarch m) day ↔ 1 ≤ day ∧
      (m ≤ 10 ∧ monthStart m + day ≤ monthStart (m + 1) ∨ m = 11 ∧ (day ≤ 28 ∨
        day = 29 ∧ (year + 1) % 4 = 0 ∧ ((year + 1) % 100 ≠ 0 ∨ (year + 1) % 400 = 0))) := by
  have month := monthOfMarch_range range
  by_cases last : m = 11
  · subst last
    have length : monthLength (yearOfMarch year 11) (monthOfMarch 11) =
        if isLeap (year + 1) then 29 else 28 := rfl
    have leap := @isLeap_iff (year + 1)
    refine ⟨fun h => ⟨h.day.1, .inr ⟨rfl, ?_⟩⟩, fun h => ⟨month, h.1, ?_⟩⟩
    · have := h.day.2
      rw [length] at this
      split at this
      · next h => have := leap.1 h; omega
      · omega
    · rw [length]
      split
      · omega
      · next h => have := mt leap.2 h; omega
  · have length := monthLength_monthOfMarch (yearOfMarch year m) range.1 (by omega)
    refine ⟨fun h => ⟨h.day.1, .inl ⟨by omega, ?_⟩⟩, fun h => ⟨month, h.1, ?_⟩⟩
    · have := h.day.2
      omega
    · omega

/-! ### Numbers of dates -/

/-- The number of a day of a year that starts in March. -/
theorem dayNumber_eq (year day : Int) {m : Int} (range : 0 ≤ m ∧ m ≤ 11) :
    dayNumber (yearOfMarch year m) (monthOfMarch m) day =
      year / 400 * 146097 + daysBefore (year % 400) + monthStart m + day - 1 - epochDays := by
  obtain ⟨least, greatest⟩ := monthOfMarch_range range
  have within : monthOfMarch m % 12 = monthOfMarch m := Int.emod_eq_of_lt least greatest
  have whole : monthOfMarch m / 12 = 0 := Int.ediv_eq_zero_of_lt least greatest
  simp only [dayNumber, within, whole, monthOfMarch_add_ten range, yearOfMarch, add_zero,
    add_sub_cancel_right, daysBefore, monthStart]
  ring

/-- The date of a day of an era. -/
theorem civilOfDay_eq (era : Int) {d x m : Int} (least : 0 ≤ d) (greatest : d < 146097)
    (day : d = daysBefore (yearOfEra d) + x) (month : (5 * x + 2) / 153 = m) :
    civilOfDay (era * 146097 + d - epochDays) =
      (yearOfMarch (yearOfEra d + era * 400) m, monthOfMarch m, x - monthStart m + 1) := by
  have quotient : (era * 146097 + d) / 146097 = era := by omega
  have remainder : (era * 146097 + d) % 146097 = d := by omega
  have rest : d - (365 * yearOfEra d + yearOfEra d / 4 - yearOfEra d / 100) = x := by
    rw [← daysBefore]
    omega
  rw [yearOfEra] at rest
  simp only [civilOfDay, sub_add_cancel, quotient, remainder, rest, month, yearOfMarch,
    monthOfMarch, monthStart, yearOfEra]
  rfl

/-- A day of an era, and the parts of its date. -/
theorem exists_eraParts (n : Int) : ∃ era d x m, n = era * 146097 + d - epochDays ∧
    (0 ≤ d ∧ d < 146097) ∧ d = daysBefore (yearOfEra d) + x ∧ (0 ≤ m ∧ m ≤ 11) ∧
    (5 * x + 2) / 153 = m ∧ (0 ≤ yearOfEra d ∧ yearOfEra d < 400) ∧ 0 ≤ x ∧
    (x ≤ 364 ∨ x = 365 ∧ (yearOfEra d + 1) % 4 = 0 ∧
      ((yearOfEra d + 1) % 100 ≠ 0 ∨ yearOfEra d = 399)) := by
  have range : 0 ≤ (n + epochDays) % 146097 ∧ (n + epochDays) % 146097 < 146097 := by omega
  obtain ⟨year, least, greatest⟩ := yearOfEra_spec range.1 range.2
  exact ⟨(n + epochDays) / 146097, (n + epochDays) % 146097, _, _, by omega, range,
    (add_sub_cancel _ _).symm, by omega, rfl, year, least, greatest⟩

/-- The number of the date of a day is the number of the day. -/
theorem dayNumber_civilOfDay (n : Int) :
    dayNumber (civilOfDay n).1 (civilOfDay n).2.1 (civilOfDay n).2.2 = n := by
  obtain ⟨era, d, x, m, rfl, range, day, months, month, year, -, -⟩ := exists_eraParts n
  rw [civilOfDay_eq era range.1 range.2 day month, dayNumber_eq _ _ months]
  have quotient : (yearOfEra d + era * 400) / 400 = era := by omega
  have remainder : (yearOfEra d + era * 400) % 400 = yearOfEra d := by omega
  dsimp only
  rw [quotient, remainder]
  omega

/-- Every day has a date. -/
theorem isDate_civilOfDay (n : Int) :
    IsDate (civilOfDay n).1 (civilOfDay n).2.1 (civilOfDay n).2.2 := by
  obtain ⟨era, d, x, m, rfl, range, day, months, month, year, least, greatest⟩ := exists_eraParts n
  rw [civilOfDay_eq era range.1 range.2 day month]
  refine (isDate_iff months).2 ?_
  simp only [monthStart]
  omega

/-- The day with the number of a date has that date. -/
theorem civilOfDay_dayNumber {year month day : Int} (h : IsDate year month day) :
    civilOfDay (dayNumber year month day) = (year, month, day) := by
  obtain ⟨m, range, rfl⟩ := exists_monthOfMarch h.month
  obtain ⟨y, rfl⟩ := exists_yearOfMarch year m
  have inMonth := (isDate_iff range).1 h
  simp only [monthStart] at inMonth
  have era : 0 ≤ y % 400 ∧ y % 400 < 400 := by omega
  have month : (5 * (monthStart m + day - 1) + 2) / 153 = m := by
    rw [monthStart]
    omega
  have least : 0 ≤ monthStart m + day - 1 := by
    rw [monthStart]
    omega
  have greatest : monthStart m + day - 1 ≤ 364 ∨ monthStart m + day - 1 = 365 ∧
      (y % 400 + 1) % 4 = 0 ∧ ((y % 400 + 1) % 100 ≠ 0 ∨ y % 400 = 399) := by
    rw [monthStart]
    omega
  have inYear := yearOfEra_daysBefore era least greatest
  have number : dayNumber (yearOfMarch y m) (monthOfMarch m) day =
      y / 400 * 146097 + (daysBefore (y % 400) + (monthStart m + day - 1)) - epochDays := by
    rw [dayNumber_eq _ _ range]
    ring
  have bounds : 0 ≤ daysBefore (y % 400) + (monthStart m + day - 1) ∧
      daysBefore (y % 400) + (monthStart m + day - 1) < 146097 := by
    rw [daysBefore]
    omega
  have years : y % 400 + y / 400 * 400 = y := by omega
  rw [number, civilOfDay_eq (y / 400) bounds.1 bounds.2 (by rw [inYear]) month, inYear, years,
    sub_add_eq_add_sub, sub_add_cancel, add_sub_cancel_left]

/-! ### The days of a year -/

/-- The number of the first day of a year. -/
def yearStart (year : Int) : Int :=
  365 * year + (year - 1) / 4 - (year - 1) / 100 + (year - 1) / 400 - 719527

/-- The dates of a year lie from its first day up to the first day of the next. -/
theorem dayNumber_bounds {year month day : Int} (h : IsDate year month day) :
    yearStart year ≤ dayNumber year month day ∧
      dayNumber year month day < yearStart (year + 1) := by
  obtain ⟨m, range, rfl⟩ := exists_monthOfMarch h.month
  obtain ⟨y, rfl⟩ := exists_yearOfMarch year m
  have inMonth := (isDate_iff range).1 h
  rw [monthStart, monthStart] at inMonth
  have years : y / 400 * 146097 + daysBefore (y % 400) = 365 * y + y / 4 - y / 100 + y / 400 := by
    rw [daysBefore]
    omega
  rw [dayNumber_eq _ _ range, years, monthStart, epochDays, yearStart, yearStart, yearOfMarch,
    monthOfMarch]
  by_cases early : m < 10
  · simp only [early, if_true]
    omega
  · simp only [early, if_false]
    omega

theorem dayNumber_add (year month day k : Int) :
    dayNumber year month (day + k) = dayNumber year month day + k := by
  simp only [dayNumber]
  ring

/-- Months beyond the twelfth carry over to the next years. -/
theorem dayNumber_carry (year month day : Int) :
    dayNumber year month day = dayNumber (year + month / 12) (month % 12) day := by
  have within : month % 12 % 12 = month % 12 := Int.emod_emod_of_dvd _ (dvd_refl _)
  have whole : month % 12 / 12 = 0 :=
    Int.ediv_eq_zero_of_lt (Int.emod_nonneg _ (by decide)) (Int.emod_lt_of_pos _ (by decide))
  rw [dayNumber, dayNumber, within, whole, add_zero]

end RowLiteral
