import RowLiteral.Proofs.Calendar.Colonless

/-!
# Calendar — moments that are lost

A text is answered with an instant within reach, or it is refused with an error that tells its type
and the text itself (`Temporal.IsAnswer`).  The reader checks the moment that is spelled, and not
what it makes of it after that: a moment near the bounds may leave them when it is taken over to
UTC, and the day of a moment may start out of reach.  Then no moment at all is returned
(`Temporal.IsLost`).  Times are never lost: they are of the first of January 1970, or of 1970 before
Christ, and no zone is more than five days away from UTC (`Timestamp.readZone_range`).

* `Temporal.isAnswer_iff`: a text is answered if and only if it is not lost, and only what is
  spelled within a day of the bounds is lost.
-/

namespace RowLiteral
open Number Text Timestamp

variable {machine : Zone} {calendar : Calendar} {type : TemporalType} {text : String}
  {cs rest : List Char} {t offset : Int}

/-! ### Zones that are read -/

namespace Timestamp

theorem readOffset_range (cs : List Char) :
    -3661 ≤ (readOffset cs).1 ∧ (readOffset cs).1 ≤ 362439 := by
  have hours := isTwoDigits_readPair cs
  rw [readOffset.eq_def]
  generalize readPair cs = pair at hours ⊢
  obtain ⟨h, cs₁⟩ := pair
  rw [IsTwoDigits] at hours
  dsimp only at hours ⊢
  split
  · next cs₂ =>
    have minutes := isTwoDigits_readPair cs₂
    generalize readPair cs₂ = pair at minutes ⊢
    obtain ⟨m, cs₃⟩ := pair
    rw [IsTwoDigits] at minutes
    dsimp only at minutes ⊢
    split
    · next cs₄ =>
      have seconds := isTwoDigits_readPair cs₄
      rw [IsTwoDigits] at seconds
      omega
    · omega
  · omega

/-- A zone that is read is less than five days away from UTC. -/
theorem readZone_range (h : (readZone cs).1 = some offset) :
    -(5 * dayMillis) < offset ∧ offset < 5 * dayMillis := by
  have seconds := readOffset_range cs.tail
  rw [dayMillis]
  rw [readZone.eq_def] at h
  split at h
  · obtain rfl := Option.some.inj h
    decide
  · split at h
    · obtain rfl := Option.some.inj h
      rw [List.tail_cons] at seconds
      omega
    · obtain rfl := Option.some.inj h
      rw [List.tail_cons] at seconds
      omega
    · obtain rfl := Option.some.inj h
      decide
    · cases h

/-- What is read after a date: its day in the year or before Christ, and a zone that is near. -/
theorem exists_of_parts?_date {date : Date} {p : Parts} (first : readDate? cs = some (date, rest))
    (h : parts? cs = some p) :
    (∃ beforeChrist, p.fields.year = eraYear beforeChrist date.year) ∧
      p.fields.month = date.month ∧ p.fields.day = date.day ∧
      ∀ offset ∈ p.zone, -(5 * dayMillis) < offset ∧ offset < 5 * dayMillis := by
  obtain ⟨⟨date', cs₁⟩, read, h⟩ := Option.bind_eq_some_iff.1 h
  obtain ⟨rfl, rfl⟩ := Prod.mk.inj (Option.some.inj (first.symm.trans read))
  obtain ⟨⟨time, cs₂⟩, -, h⟩ := Option.bind_eq_some_iff.1 h
  dsimp only at h
  split at h
  · obtain rfl := Option.some.inj h
    exact ⟨⟨_, rfl⟩, rfl, rfl, fun _ => readZone_range⟩
  · cases h

end Timestamp

namespace Temporal

/-! ### Answers -/

/-- An answer to a text: an instant within reach, or the error that tells the type and the text. -/
def IsAnswer (type : TemporalType) (text : String) (a : Except TemporalFailure Moment) : Prop :=
  (∃ t, a = .ok (some t) ∧ InReach t) ∨ a = .error (.unreadable type text)

/-- Characters that spell a moment on the machine which is lost after that. -/
inductive IsLost (machine : Zone) : Calendar → TemporalType → List Char → Prop where
  /-- The fields that the machine shows at that moment are out of reach in UTC. -/
  | shifted {type : TemporalType} {cs : List Char} {t : Int} (other : type ≠ .time)
      (spelled : moment machine (completed cs) = some t) (zoneless : hasZone cs = false)
      (out : ¬ InReach (t + machine.offset)) : IsLost machine .utc type cs
  /-- Its day starts out of reach on the machine. -/
  | midnight {cs : List Char} {t : Int} (spelled : moment machine (completed cs) = some t)
      (out : ¬ InReach (dayStart machine t)) : IsLost machine .machine .date cs

theorem orUnreadable_eq_ok_iff {m : Option Moment} {t : Moment} :
    orUnreadable type text m = .ok t ↔ m = some t := by
  cases m <;> simp [orUnreadable]

/-! ### What is lost -/

/-- What is read is within reach. -/
theorem inReach_of_read? (read : read? machine calendar text = some (some t)) : InReach t := by
  rw [read?_eq] at read
  obtain ⟨s, spelled, read⟩ := Option.map_eq_some_iff.1 read
  split at read
  · exact Option.some.inj read ▸ inReach_of_moment spelled
  · exact Moment.inReach_of_ofInstant read

/-- A text is refused in one way only, and a moment that is returned for it is within reach. -/
theorem exists_read (machine : Zone) (calendar : Calendar) (type : TemporalType) (text : String) :
    ∃ m, (reader machine).read type calendar text = orUnreadable type text m ∧
      ∀ t, m = some (some t) → InReach t := by
  by_cases date : type = .date
  · subst date
    refine ⟨_, read_date machine calendar text, fun t kept => ?_⟩
    obtain ⟨m, read, start⟩ := Option.map_eq_some_iff.1 kept
    cases m with
    | none => exact absurd start nofun
    | some s =>
        rw [midnight_some _ (inReach_of_read? read)] at start
        exact Moment.inReach_of_ofInstant start
  · exact ⟨_, read_of_ne_date machine calendar date text, fun t => inReach_of_read?⟩

/-- A text that is not answered is read as no moment. -/
theorem isAnswer_read_iff : IsAnswer type text ((reader machine).read type calendar text) ↔
    (reader machine).read type calendar text ≠ .ok none := by
  obtain ⟨m, read, within⟩ := exists_read machine calendar type text
  rw [read]
  constructor
  · rintro (⟨t, answer, -⟩ | refused) lost
    · exact absurd (answer.symm.trans lost) nofun
    · exact absurd (refused.symm.trans lost) nofun
  · intro kept
    cases m with
    | none => exact .inr rfl
    | some m =>
        cases m with
        | none => exact absurd rfl kept
        | some t => exact .inl ⟨t, rfl, within t rfl⟩

/-- What is lost on the way to the calendar. -/
theorem read?_eq_some_none_iff :
    read? machine calendar text = some none ↔
      ∃ t, moment machine (completed (trimChars text.toList)) = some t ∧
        hasZone (trimChars text.toList) = false ∧ ¬ InReach (t + calendar.ahead machine) := by
  rw [read?_eq, Option.map_eq_some_iff]
  refine exists_congr fun t => and_congr_right fun _ => ?_
  cases hasZone (trimChars text.toList) with
  | true => simp
  | false =>
      rw [if_neg Bool.false_ne_true, and_iff_right rfl]
      exact Moment.ofInstant_eq_none_iff

/-- In the calendar of the machine every moment is kept as it is spelled. -/
theorem read?_machine (machine : Zone) (text : String) :
    read? machine .machine text =
      (moment machine (completed (trimChars text.toList))).map some := by
  rw [read?_eq]
  refine Option.map_congr fun t spelled => ?_
  rw [Calendar.ahead_machine, Int.add_zero,
    Moment.ofInstant_of_inReach (inReach_of_moment spelled), ite_self]

/-! ### Times -/

/-- The fields of the first of January 1970, or of 1970 before Christ, are days away from the bounds
at any time of two digits. -/
theorem utcInstant_range {f : Fields} (read : f.IsRead) (year : f.year = 1970 ∨ f.year = -1969)
    (month : f.month = 0) (day : f.day = 1) :
    -(1500000 * dayMillis) < f.utcInstant ∧ f.utcInstant < 5 * dayMillis := by
  obtain ⟨-, -, hours, minutes, seconds, millis⟩ := read
  rw [IsTwoDigits] at hours minutes seconds
  have days : dayNumber f.year f.month f.day = 0 ∨ dayNumber f.year f.month f.day = -1438690 := by
    rw [month, day]
    rcases year with christ | before
    · exact .inl (christ ▸ by decide)
    · exact .inr (before ▸ by decide)
  rw [Fields.utcInstant_of_long (by omega), Fields.instant, timeMillis, Zone.offset_zero,
    hourMillis, dayMillis]
  omega

/-- A time that is spelled on the machine is not lost in UTC. -/
theorem inReach_of_time (fixed : machine.IsFixed)
    (spelled : moment machine (completed (subjectChars .time text)) = some t) :
    InReach (t + machine.offset) := by
  obtain ⟨rest, first⟩ := exists_completed_time text
  rw [first] at spelled
  obtain ⟨⟨f, zone⟩, parts, -⟩ := Option.bind_eq_some_iff.1 spelled
  obtain ⟨⟨beforeChrist, year⟩, month, day, near⟩ :=
    exists_of_parts?_date (readDate?_firstDay rest) parts
  have years : f.year = 1970 ∨ f.year = -1969 := by
    cases beforeChrist
    · exact .inl year
    · exact .inr year
  have instant : -(1500000 * dayMillis) < f.utcInstant ∧ f.utcInstant < 5 * dayMillis :=
    utcInstant_range (exists_of_parts? parts).1 years month day
  rw [Zone.IsFixed] at fixed
  rw [dayMillis] at instant fixed
  rw [InReach, reach]
  cases zone with
  | none =>
      rw [moment_of_zoneless fixed parts] at spelled
      obtain ⟨-, rfl⟩ := Moment.ofInstant_eq_some_iff.1 spelled
      omega
  | some offset =>
      have near := near offset rfl
      rw [moment_of_zoned machine parts] at spelled
      obtain ⟨s, utc, spelled⟩ := Option.bind_eq_some_iff.1 spelled
      obtain ⟨-, rfl⟩ := Moment.ofInstant_eq_some_iff.1 utc
      obtain ⟨-, rfl⟩ := Moment.ofInstant_eq_some_iff.1 spelled
      rw [dayMillis] at near
      omega

/-! ### Lost texts -/

theorem read_date_eq_ok_none_iff : (reader machine).read .date calendar text = .ok none ↔
    IsLost machine calendar .date (subjectChars .date text) := by
  rw [read_date, orUnreadable_eq_ok_iff, Option.map_eq_some_iff]
  cases calendar with
  | machine =>
      rw [read?_machine]
      constructor
      · rintro ⟨m, read, lost⟩
        obtain ⟨t, spelled, rfl⟩ := Option.map_eq_some_iff.1 read
        have start := midnight_some machine (inReach_of_moment spelled)
        exact .midnight spelled (Moment.ofInstant_eq_none_iff.1 (start.symm.trans lost))
      · rintro (_ | ⟨spelled, out⟩)
        refine ⟨_, congrArg (Option.map some) spelled, ?_⟩
        exact (midnight_some machine (inReach_of_moment spelled)).trans
          (Moment.ofInstant_of_not_inReach out)
  | utc =>
      constructor
      · rintro ⟨m, read, lost⟩
        cases m with
        | none =>
            obtain ⟨t, spelled, zoneless, out⟩ := read?_eq_some_none_iff.1 read
            rw [Calendar.ahead_utc] at out
            exact .shifted (by decide) spelled zoneless out
        | some t =>
            -- in UTC the bounds are the starts of days, so no day within them starts outside
            have reached := inReach_of_read? read
            have start := midnight_some 0 reached
            have out := Moment.ofInstant_eq_none_iff.1 (start.symm.trans lost)
            exact absurd (inReach_dayStart_utc reached) out
      · rintro ⟨-, spelled, zoneless, out⟩
        refine ⟨none, read?_eq_some_none_iff.2 ⟨_, spelled, zoneless, ?_⟩, rfl⟩
        rwa [Calendar.ahead_utc]

theorem read_eq_ok_none_iff (fixed : machine.IsFixed) (other : type ≠ .date) :
    (reader machine).read type calendar text = .ok none ↔
      IsLost machine calendar type (subjectChars type text) := by
  rw [read_of_ne_date machine calendar other, orUnreadable_eq_ok_iff]
  cases calendar with
  | machine =>
      rw [read?_machine]
      constructor
      · intro lost
        obtain ⟨t, -, none⟩ := Option.map_eq_some_iff.1 lost
        exact absurd none nofun
      · rintro (_ | _)
        exact absurd rfl other
  | utc =>
      rw [read?_eq_some_none_iff, Calendar.ahead_utc]
      constructor
      · rintro ⟨t, spelled, zoneless, out⟩
        refine .shifted ?_ spelled zoneless out
        rintro rfl
        exact out (inReach_of_time fixed spelled)
      · rintro ⟨-, spelled, zoneless, out⟩
        exact ⟨_, spelled, zoneless, out⟩

/-- What is lost is spelled within a day of the bounds. -/
theorem IsLost.exists_near (fixed : machine.IsFixed) (lost : IsLost machine calendar type cs) :
    ∃ t, moment machine (completed cs) = some t ∧
      (t < -reach + dayMillis ∨ reach - dayMillis < t) := by
  rw [Zone.IsFixed] at fixed
  cases lost with
  | @shifted _ _ t _ spelled _ out =>
      refine ⟨t, spelled, ?_⟩
      rw [InReach] at out
      omega
  | @midnight _ t spelled out =>
      have reached := inReach_of_moment spelled
      have start := dayStart_le machine t
      refine ⟨t, spelled, ?_⟩
      rw [InReach] at out reached
      omega

/-- **A text is answered, unless what it spells is lost.**  On every machine, in every calendar and
as each of the three types a text is read as an instant within reach, or refused with the error that
tells the type and the text, if and only if it is not lost.  If it is lost, no moment is returned;
that happens to dates and timestamps that are spelled within a day of the bounds, and never to
times. -/
theorem isAnswer_iff (machine : Zone) (fixed : machine.IsFixed) (calendar : Calendar)
    (type : TemporalType) (text : String) :
    (IsAnswer type text ((reader machine).read type calendar text) ↔
        ¬ IsLost machine calendar type (subjectChars type text)) ∧
      ((reader machine).read type calendar text = .ok none ↔
        IsLost machine calendar type (subjectChars type text)) ∧
      (IsLost machine calendar type (subjectChars type text) → type ≠ .time ∧
        ∃ t, moment machine (completed (subjectChars type text)) = some t ∧
          (t < -reach + dayMillis ∨ reach - dayMillis < t)) := by
  have lost : (reader machine).read type calendar text = .ok none ↔
      IsLost machine calendar type (subjectChars type text) := by
    by_cases date : type = .date
    · subst date
      exact read_date_eq_ok_none_iff
    · exact read_eq_ok_none_iff fixed date
  refine ⟨isAnswer_read_iff.trans (not_congr lost), lost, fun h => ⟨?_, h.exists_near fixed⟩⟩
  rcases h with ⟨other⟩ | _
  · exact other
  · decide

/-- Five hours ahead of UTC the last moment is shown at five o'clock, and three o'clock of that day
is out of reach in UTC. -/
theorem isAnswer_iff_last :
    Zone.IsFixed 5 ∧
      IsAnswer .timestamp "275760-09-13 03:00:00"
        ((reader 5).read .timestamp .machine "275760-09-13 03:00:00") ∧
      (reader 5).read .timestamp .utc "275760-09-13 03:00:00" = .ok none := by
  have fixed : Zone.IsFixed 5 := ⟨by decide, by decide⟩
  have spelled : moment 5 (completed (subjectChars .timestamp "275760-09-13 03:00:00")) =
      some 8639999992800000 := by decide +kernel
  refine ⟨fixed, ?_, ?_⟩
  · refine (isAnswer_iff 5 fixed .machine .timestamp "275760-09-13 03:00:00").1.2 ?_
    rintro ⟨⟩
  · refine (isAnswer_iff 5 fixed .utc .timestamp "275760-09-13 03:00:00").2.1.2 ?_
    refine .shifted (by decide) spelled (by decide +kernel) fun reached => ?_
    exact absurd reached.2 (by decide)

/-- So there three o'clock is read as no moment. -/
theorem not_isAnswer :
    ¬ ∀ (hours : Int), (Zone.ofHours hours).IsFixed → ∀ (calendar : Calendar)
      (type : TemporalType) (text : String),
      IsAnswer type text ((reader hours).read type calendar text) := by
  intro h
  have lost : (reader 5).read .timestamp .utc "275760-09-13 03:00:00" = .ok none := by
    decide +kernel
  rcases h 5 ⟨by decide, by decide⟩ .utc .timestamp "275760-09-13 03:00:00" with
    ⟨t, answer, -⟩ | refused
  · exact absurd (lost.symm.trans answer) nofun
  · exact absurd (lost.symm.trans refused) nofun

end Temporal

end RowLiteral
