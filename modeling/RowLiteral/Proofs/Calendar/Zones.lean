import RowLiteral.Proofs.Calendar.Reading

/-!
# Calendar — what a zone shows of an instant

What is written for an instant depends on the zone: for each temporal type there are two zones, half
a day ahead of and behind UTC or an hour apart, in which every instant is written differently
(`Temporal.exists_format_ne`).  What is written for no moment is the same everywhere
(`Temporal.format_none`).
-/

namespace RowLiteral
open Number Text

variable {f g : Fields}

/-! ### Fields that a text shows -/

/-- A date shows the day of the month. -/
theorem day_eq_of_dateChars_eq (same : dateChars f = dateChars g) (hf : f.IsProper)
    (hg : g.IsProper) : f.day = g.day := by
  have length : ('-' :: padded 2 f.day.toNat).length = ('-' :: padded 2 g.day.toNat).length := by
    rw [List.length_cons, List.length_cons, hf.isPair_day.length, hg.isPair_day.length]
  have split (f : Fields) : dateChars f = (((Temporal.pad 4 (some f.year)).toList ++
      '-' :: padded 2 (f.month + 1).toNat) ++ '-' :: padded 2 f.day.toNat) := by
    simp [dateChars, monthDayChars]
  rw [split f, split g] at same
  have days := (List.cons.inj (List.append_inj_right' same length)).2
  have numbers := congrArg ofDigits days
  rw [ofDigits_padded, ofDigits_padded] at numbers
  have := hf.date.day
  have := hg.date.day
  omega

/-- A time shows the hours. -/
theorem hours_eq_of_timeChars_eq (same : timeChars f = timeChars g) (hf : f.IsProper)
    (hg : g.IsProper) : f.hours = g.hours := by
  obtain ⟨-, hours, -, -, -⟩ := hf
  obtain ⟨-, hours', -, -, -⟩ := hg
  have pair : IsPair (padded 2 f.hours.toNat) := isPair_padded (by omega)
  have pair' : IsPair (padded 2 g.hours.toNat) := isPair_padded (by omega)
  have first := List.append_inj_left same (by rw [pair.length, pair'.length])
  have numbers := congrArg ofDigits first
  rw [ofDigits_padded, ofDigits_padded] at numbers
  omega

/-- A timestamp shows its date. -/
theorem dateChars_eq_of_stampChars_eq (same : stampChars f = stampChars g) :
    dateChars f = dateChars g := by
  have date (f : Fields) : (stampChars f).takeWhile (fun c => !isMargin c) = dateChars f := by
    rw [stampChars, List.takeWhile_append_of_pos fun c hc => by
      rw [isMargin_of_mem_dateChars hc, Bool.not_false]]
    rw [List.takeWhile_cons_of_neg (by decide), List.append_nil]
  rw [← date f, ← date g, same]

/-! ### Zones that show different fields -/

/-- A day and the next one are different days of the month. -/
theorem day_civilOfDay_succ (n : Int) : (civilOfDay (n + 1)).2.2 ≠ (civilOfDay n).2.2 := by
  have date := isDate_civilOfDay n
  have number := dayNumber_civilOfDay n
  have nextDate := isDate_civilOfDay (n + 1)
  have nextNumber := dayNumber_civilOfDay (n + 1)
  intro same
  by_cases first : (civilOfDay (n + 1)).2.2 = 1
  · -- the day is the first of its month, so the next one is the second
    have second := isDate_of_le (civilOfDay n).1 date.month
      (show (1 : Int) ≤ 2 ∧ (2 : Int) ≤ 28 by decide)
    have after := dayNumber_add (civilOfDay n).1 (civilOfDay n).2.1 (civilOfDay n).2.2 1
    have next := civilOfDay_dayNumber second
    rw [number, ← same, first] at after
    rw [show (2 : Int) = 1 + 1 from rfl, after] at next
    rw [next] at first
    exact absurd first (show ¬ (1 + 1 : Int) = 1 by decide)
  · -- the day before the next one is in the same month
    have before : IsDate (civilOfDay (n + 1)).1 (civilOfDay (n + 1)).2.1
        ((civilOfDay (n + 1)).2.2 + -1) := by
      obtain ⟨month, least, greatest⟩ := nextDate
      exact ⟨month, by omega, by omega⟩
    have here := civilOfDay_dayNumber before
    rw [dayNumber_add, nextNumber, Int.add_neg_cancel_right] at here
    have day := congrArg (fun date => date.2.2) here
    dsimp only at day
    omega

namespace Temporal

/-- What is written for no moment is the same in every zone. -/
theorem format_none (type : TemporalType) (east west : Zone) :
    format east type none = format west type none := by
  cases type <;> rfl

/-- What is written for an instant is not empty. -/
theorem format_ne_nil (zone : Zone) (type : TemporalType) (t : Int) :
    (format zone type (some t)).toList ≠ [] := by
  cases type with
  | date => simp [format, toList_formatDate, dateChars, monthDayChars]
  | time => simp [format, toList_formatTime, timeChars]
  | timestamp => simp [format, toList_formatTimestamp, stampChars]

/-- Two zones a day apart show different days of the month. -/
theorem dateChars_ne {east west : Zone} (apart : east.offset = west.offset + dayMillis) (t : Int) :
    dateChars (fieldsOf east t) ≠ dateChars (fieldsOf west t) := by
  intro same
  have days := day_eq_of_dateChars_eq same (isProper_fieldsOf east t) (isProper_fieldsOf west t)
  have next : (t + east.offset) / dayMillis = (t + west.offset) / dayMillis + 1 := by
    rw [apart, dayMillis]
    omega
  refine day_civilOfDay_succ ((t + west.offset) / dayMillis) ?_
  rw [← next]
  exact days

/-- **Every instant is written differently in some two zones.** -/
theorem exists_format_ne (type : TemporalType) (t : Int) : ∃ east west : Zone,
    east.IsFixed ∧ west.IsFixed ∧ format east type (some t) ≠ format west type (some t) := by
  have halfDay : Zone.IsFixed ⟨43200000⟩ ∧ Zone.IsFixed ⟨-43200000⟩ :=
    ⟨⟨by decide, by decide⟩, ⟨by decide, by decide⟩⟩
  have dates := @dateChars_ne ⟨43200000⟩ ⟨-43200000⟩ (by decide) t
  cases type with
  | date =>
      refine ⟨_, _, halfDay.1, halfDay.2, fun same => dates ?_⟩
      rw [← toList_formatDate, ← toList_formatDate]
      exact congrArg String.toList same
  | timestamp =>
      refine ⟨_, _, halfDay.1, halfDay.2, fun same => dates ?_⟩
      refine dateChars_eq_of_stampChars_eq ?_
      rw [← toList_formatTimestamp, ← toList_formatTimestamp]
      exact congrArg String.toList same
  | time =>
      refine ⟨⟨3600000⟩, ⟨0⟩, ⟨by decide, by decide⟩, ⟨by decide, by decide⟩, fun same => ?_⟩
      have times : timeChars (fieldsOf ⟨3600000⟩ t) = timeChars (fieldsOf ⟨0⟩ t) := by
        rw [← toList_formatTime, ← toList_formatTime]
        exact congrArg String.toList same
      have hours := hours_eq_of_timeChars_eq times (isProper_fieldsOf _ t) (isProper_fieldsOf _ t)
      simp only [fieldsOf, dayMillis, hourMillis] at hours
      omega

end Temporal

end RowLiteral
