import RowLiteral.Proofs.Calendar.Reading

/-!
# Calendar — the instant that a text spells

What is read of any text, not only of one that was written for a moment.  The fields may lie outside
their ranges, but each has two digits at most (`Fields.IsRead`).  They stand for one instant in UTC
(`Fields.utcInstant`), and the moment with these fields on a machine is that instant, earlier by
what the clocks of the machine are ahead (`Timestamp.momentIn_eq_utcInstant`).

Where no zone is read of a text, none is seen at its end (`Temporal.hasZone_of_zoneless`).  The
converse is wrong: the reader finds zones after a date, and unfinished ones.
-/

namespace RowLiteral
open Number Text

/-! ### What is left of a text -/

/-- What is left of a text after some characters of a kind. -/
def LeftAfter (kind : Char → Prop) (cs rest : List Char) : Prop :=
  ∃ first, cs = first ++ rest ∧ ∀ c ∈ first, kind c

namespace LeftAfter

variable {kind : Char → Prop} {c : Char} {cs ds es : List Char}

theorem refl (kind : Char → Prop) (cs : List Char) : LeftAfter kind cs cs := ⟨[], rfl, nofun⟩

theorem trans (h : LeftAfter kind cs ds) (h' : LeftAfter kind ds es) : LeftAfter kind cs es := by
  obtain ⟨first, rfl, all⟩ := h
  obtain ⟨second, rfl, all'⟩ := h'
  exact ⟨first ++ second, (List.append_assoc ..).symm, List.forall_mem_append.2 ⟨all, all'⟩⟩

theorem cons (hc : kind c) (h : LeftAfter kind cs ds) : LeftAfter kind (c :: cs) ds :=
  trans ⟨[c], rfl, List.forall_mem_singleton.2 hc⟩ h

end LeftAfter

/-! ### Fields that are read -/

theorem ne_colon_of_isDigit {c : Char} (h : c.isDigit = true) : c ≠ ':' := by
  rintro rfl
  exact absurd h (by decide)

/-- A number of two digits, or minus one where they are not there. -/
def IsTwoDigits (n : Int) : Prop := -1 ≤ n ∧ n ≤ 99

/-- Fields of at most two digits each; the year may be any. -/
structure Fields.IsRead (f : Fields) : Prop where
  month : IsTwoDigits (f.month + 1)
  day : IsTwoDigits f.day
  hours : IsTwoDigits f.hours
  minutes : IsTwoDigits f.minutes
  seconds : IsTwoDigits f.seconds
  millis : 0 ≤ f.millis ∧ f.millis ≤ 999

namespace Timestamp

variable {kind : Char → Prop} {c : Char} {cs rest : List Char}

theorem isTwoDigits_readPair (cs : List Char) : IsTwoDigits (readPair cs).1 := by
  rw [readPair.eq_def, IsTwoDigits]
  split
  · split
    · next digits =>
      obtain ⟨ha, hb⟩ := Bool.and_eq_true_iff.1 digits
      have := digitValue_le ha
      have := digitValue_le hb
      dsimp only
      omega
    · simp
  · simp

theorem leftAfter_readPair (digits : ∀ c, c.isDigit = true → kind c) (cs : List Char) :
    LeftAfter kind cs (readPair cs).2 := by
  rw [readPair.eq_def]
  split
  · split
    · next both =>
      obtain ⟨ha, hb⟩ := Bool.and_eq_true_iff.1 both
      exact .cons (digits _ ha) (.cons (digits _ hb) (.refl kind _))
    · exact .refl kind _
  · exact .refl kind _

theorem leftAfter_expect? (hc : kind c) (h : expect? c cs = some rest) :
    LeftAfter kind cs rest := by
  rw [Temporal.eq_cons_of_expect? h]
  exact .cons hc (.refl kind rest)

theorem leftAfter_dropWhile (digits : ∀ c, c.isDigit = true → kind c) (cs : List Char) :
    LeftAfter kind cs (cs.dropWhile Char.isDigit) :=
  ⟨cs.takeWhile Char.isDigit, (List.takeWhile_append_dropWhile ..).symm,
    fun c hc => digits c (List.mem_takeWhile_imp hc)⟩

theorem millisOf_le {ds : List Char} (h : ∀ c ∈ ds, c.isDigit = true) : millisOf ds ≤ 999 := by
  have length : ((ds ++ ['0', '0', '0']).take 3).length = 3 := by simp
  have less : ofDigits ((ds ++ ['0', '0', '0']).take 3) <
      10 ^ ((ds ++ ['0', '0', '0']).take 3).length :=
    ofDigits_lt fun c hc => isDigit_of_mem_append_zeros h c (List.mem_of_mem_take hc)
  rw [length] at less
  rw [millisOf]
  omega

theorem exists_of_readMillis? (digits : ∀ c, c.isDigit = true → kind c) (point : kind '.')
    {millis : Int} (h : readMillis? cs = some (millis, rest)) :
    LeftAfter kind cs rest ∧ 0 ≤ millis ∧ millis ≤ 999 := by
  rw [readMillis?.eq_def] at h
  split at h
  · next cs =>
    dsimp only at h
    split at h
    · cases h
    · obtain ⟨rfl, rfl⟩ := Prod.mk.inj (Option.some.inj h)
      refine ⟨.cons point (leftAfter_dropWhile digits cs), ?_,
        millisOf_le fun c hc => List.mem_takeWhile_imp hc⟩
      rw [millisOf]
      omega
  · obtain ⟨rfl, rfl⟩ := Prod.mk.inj (Option.some.inj h)
    exact ⟨.refl kind _, by decide⟩

/-- A date is read from digits and hyphens. -/
theorem exists_of_readDate? (kind : Char → Prop) (digits : ∀ c, c.isDigit = true → kind c)
    (hyphen : kind '-') {date : Date} (h : readDate? cs = some (date, rest)) :
    LeftAfter kind cs rest ∧ IsTwoDigits (date.month + 1) ∧ IsTwoDigits date.day := by
  obtain ⟨cs₁, first, h⟩ := Option.bind_eq_some_iff.1 h
  have month := isTwoDigits_readPair cs₁
  have afterMonth := leftAfter_readPair digits cs₁
  generalize readPair cs₁ = pair at h month afterMonth
  obtain ⟨cs₂, second, h⟩ := Option.bind_eq_some_iff.1 h
  have day := isTwoDigits_readPair cs₂
  have afterDay := leftAfter_readPair digits cs₂
  generalize readPair cs₂ = pair' at h day afterDay
  dsimp only at h
  split at h
  · cases h
  · obtain ⟨rfl, rfl⟩ := Prod.mk.inj (Option.some.inj h)
    exact ⟨(leftAfter_dropWhile digits cs).trans ((leftAfter_expect? hyphen first).trans
      (afterMonth.trans ((leftAfter_expect? hyphen second).trans afterDay))),
      by rwa [sub_add_cancel], day⟩

/-- A time is read from what can stand in one: it has no mark of a zone. -/
theorem exists_of_readTime? {time : Time} (h : readTime? cs = some (time, rest)) :
    LeftAfter (¬ IsZoneMark ·) cs rest ∧ IsTwoDigits time.hours ∧ IsTwoDigits time.minutes ∧
      IsTwoDigits time.seconds ∧ 0 ≤ time.millis ∧ time.millis ≤ 999 := by
  have digits : ∀ c, c.isDigit = true → ¬ IsZoneMark c :=
    fun _ => Temporal.not_isZoneMark_of_isDigit
  have other : ¬ IsZoneMark ' ' ∧ ¬ IsZoneMark ':' ∧ ¬ IsZoneMark '.' := by
    refine ⟨?_, ?_, ?_⟩ <;> rintro (h | h | h) <;> exact absurd h (by decide)
  rw [readTime?.eq_def] at h
  split at h
  · obtain ⟨rfl, rfl⟩ := Prod.mk.inj (Option.some.inj h)
    exact ⟨.refl _ _, by simp [IsTwoDigits]⟩
  · next there =>
    have blank : LeftAfter (¬ IsZoneMark ·) cs cs.tail := by
      cases cs with
      | nil => exact .refl _ _
      | cons c cs =>
          obtain ⟨-, rfl⟩ : 8 ≤ cs.length ∧ c = ' ' := by simpa using there
          exact .cons other.1 (.refl _ cs)
    have hours := isTwoDigits_readPair cs.tail
    have afterHours := leftAfter_readPair digits cs.tail
    generalize readPair cs.tail = pair at h hours afterHours
    obtain ⟨cs₁, colon, h⟩ := Option.bind_eq_some_iff.1 h
    have minutes := isTwoDigits_readPair cs₁
    have afterMinutes := leftAfter_readPair digits cs₁
    generalize readPair cs₁ = pair' at h minutes afterMinutes
    obtain ⟨cs₂, colon', h⟩ := Option.bind_eq_some_iff.1 h
    have seconds := isTwoDigits_readPair cs₂
    have afterSeconds := leftAfter_readPair digits cs₂
    generalize readPair cs₂ = pair'' at h seconds afterSeconds
    obtain ⟨⟨millis, cs₃⟩, fraction, h⟩ := Option.bind_eq_some_iff.1 h
    obtain ⟨afterMillis, bounds⟩ := exists_of_readMillis? digits other.2.2 fraction
    obtain ⟨rfl, rfl⟩ := Prod.mk.inj (Option.some.inj h)
    exact ⟨blank.trans (afterHours.trans ((leftAfter_expect? other.2.1 colon).trans
      (afterMinutes.trans ((leftAfter_expect? other.2.1 colon').trans
        (afterSeconds.trans afterMillis))))), hours, minutes, seconds, bounds⟩

/-- Where no zone is read, nothing is. -/
theorem eq_of_readZone (h : readZone cs = (none, rest)) : rest = cs := by
  rw [readZone.eq_def] at h
  split at h
  · exact absurd (congrArg Prod.fst h) nofun
  · split at h
    · exact absurd (congrArg Prod.fst h) nofun
    · exact absurd (congrArg Prod.fst h) nofun
    · exact absurd (congrArg Prod.fst h) nofun
    · exact (congrArg Prod.snd h).symm

/-- **What is read of a text.**  The fields have two digits at most, and where no zone is read, no
mark of a zone follows a colon. -/
theorem exists_of_parts? {p : Parts} (h : parts? cs = some p) : p.fields.IsRead ∧
    (p.zone = none → ∃ date time, cs = date ++ time ∧ ':' ∉ date ∧ ∀ c ∈ time, ¬ IsZoneMark c) := by
  obtain ⟨⟨date, cs₁⟩, read, h⟩ := Option.bind_eq_some_iff.1 h
  obtain ⟨⟨time, cs₂⟩, read', h⟩ := Option.bind_eq_some_iff.1 h
  dsimp only at h
  split at h
  · next ended =>
    obtain rfl := Option.some.inj h
    obtain ⟨⟨first, rfl, plain⟩, month, day⟩ := exists_of_readDate? (· ≠ ':')
      (fun _ => ne_colon_of_isDigit) (by decide) read
    obtain ⟨⟨second, rfl, unmarked⟩, hours, minutes, seconds, millis⟩ := exists_of_readTime? read'
    refine ⟨⟨month, day, hours, minutes, seconds, millis⟩, fun zoneless => ?_⟩
    have rest := eq_of_readZone (Prod.ext zoneless rfl : readZone cs₂ = (none, (readZone cs₂).2))
    rw [rest] at ended
    refine ⟨first, second ++ cs₂, rfl, fun colon => plain _ colon rfl,
      List.forall_mem_append.2 ⟨unmarked, ?_⟩⟩
    have era : cs₂ = [] ∨ cs₂ = [' ', 'B', 'C'] := by simpa using ended
    rcases era with rfl | rfl
    · exact nofun
    · simp [IsZoneMark]
  · cases h

end Timestamp

namespace Temporal
open Timestamp

variable {kind : Char → Prop} {cs ds rest : List Char}

theorem leftAfter_spanDigits? (digits : ∀ c, c.isDigit = true → kind c)
    (h : spanDigits? cs = some (ds, rest)) : LeftAfter kind cs rest := by
  rw [spanDigits?] at h
  split at h
  · cases h
  · rw [← (Prod.mk.inj (Option.some.inj h)).2]
    exact leftAfter_dropWhile digits cs

theorem leftAfter_hyphenPair? (digits : ∀ c, c.isDigit = true → kind c) (hyphen : kind '-')
    (h : hyphenPair? cs = some (ds, rest)) : LeftAfter kind cs rest := by
  rw [hyphenPair?.eq_def] at h
  split at h
  · split at h
    · next both =>
      obtain ⟨ha, hb⟩ := Bool.and_eq_true_iff.1 both
      rw [← (Prod.mk.inj (Option.some.inj h)).2]
      exact .cons hyphen (.cons (digits _ ha) (.cons (digits _ hb) (.refl kind _)))
    · cases h
  · cases h

theorem not_isZoneMark_of_isEraEnd (h : isEraEnd cs = true) : ∀ c ∈ cs, ¬ IsZoneMark c := by
  have ends : cs.dropWhile isMargin = ['B', 'C'] := by
    rw [isEraEnd, Bool.and_eq_true_iff, beq_iff_eq] at h
    exact h.2
  have whole : cs.takeWhile isMargin ++ ['B', 'C'] = cs := ends ▸ List.takeWhile_append_dropWhile
  rw [← whole]
  refine List.forall_mem_append.2 ⟨fun c hc => ?_, by simp [IsZoneMark]⟩
  have margin := List.mem_takeWhile_imp hc
  rintro (rfl | rfl | rfl) <;> exact absurd margin (by decide)

/-- A date alone has no zone that is seen, whatever is read of it. -/
theorem hasZone_of_dateOnly? {date era : List Char} (h : dateOnly? cs = some (date, era)) :
    hasZone cs = false := by
  have digits : ∀ c, c.isDigit = true → c ≠ ':' := fun _ => ne_colon_of_isDigit
  obtain ⟨⟨year, cs₁⟩, first, h⟩ := Option.bind_eq_some_iff.1 h
  obtain ⟨⟨month, cs₂⟩, second, h⟩ := Option.bind_eq_some_iff.1 h
  obtain ⟨⟨day, cs₃⟩, third, h⟩ := Option.bind_eq_some_iff.1 h
  dsimp only at h
  split at h
  · next ended =>
    obtain ⟨date, rfl, plain⟩ := (leftAfter_spanDigits? digits first).trans
      ((leftAfter_hyphenPair? digits (by decide) second).trans
        (leftAfter_hyphenPair? digits (by decide) third))
    refine hasZone_append (fun colon => plain _ colon rfl) ?_
    rcases Bool.or_eq_true_iff.1 ended with none | era
    · rw [of_decide_eq_true none]
      exact nofun
    · exact not_isZoneMark_of_isEraEnd era
  · cases h

/-- **Where no zone is read, none is seen.** -/
theorem hasZone_of_zoneless {cs : List Char} {p : Parts} (h : parts? (completed cs) = some p)
    (zoneless : p.zone = none) : hasZone cs = false := by
  rw [completed] at h
  split at h
  · next date era alone => exact hasZone_of_dateOnly? alone
  · obtain ⟨date, time, rfl, plain, unmarked⟩ := (exists_of_parts? h).2 zoneless
    exact hasZone_append plain unmarked

end Temporal

/-! ### The instant of fields -/

/-- The instant that fields stand for in UTC.  Where the year is short, the day is the one that the
month and the day give in the building year, moved to the year itself. -/
def Fields.utcInstant (f : Fields) : Int :=
  let built := { f with year := Timestamp.buildYear f.year }.instant 0
  if Timestamp.isShortYear f.year then { fieldsOf 0 built with year := f.year }.instant 0 else built

theorem Fields.utcInstant_of_long {f : Fields} (long : ¬ (-99 ≤ f.year ∧ f.year ≤ 99)) :
    f.utcInstant = f.instant 0 := by
  simp only [Fields.utcInstant, Timestamp.isShortYear_of_long long,
    Timestamp.buildYear_of_long long, Bool.false_eq_true, if_false]

theorem Fields.instant_eq_utc (zone : Zone) (f : Fields) :
    f.instant zone = f.instant 0 - zone.offset := by
  rw [Fields.instant, Fields.instant, Zone.offset_zero, Int.sub_zero]

/-- Fields that are read, of a year up to 1999, are those of an instant within reach. -/
theorem Fields.IsRead.inReach_instant {f : Fields} (read : f.IsRead)
    (year : -99 ≤ f.year ∧ f.year ≤ 1999) {zone : Zone} (fixed : zone.IsFixed) :
    InReach (f.instant zone) := by
  obtain ⟨month, day, hours, minutes, seconds, millis⟩ := read
  rw [IsTwoDigits] at month day hours minutes seconds
  -- the months carry over to other years, and the days are counted from the first
  have inYear : 0 ≤ f.month % 12 ∧ f.month % 12 < 12 := by omega
  have first := dayNumber_bounds (isDate_of_le (f.year + f.month / 12) inYear
    (show (1 : Int) ≤ 1 ∧ (1 : Int) ≤ 28 by decide))
  have days : RowLiteral.dayNumber f.year f.month f.day =
      RowLiteral.dayNumber (f.year + f.month / 12) (f.month % 12) 1 + (f.day - 1) := by
    rw [← dayNumber_add, dayNumber_carry, add_sub_cancel]
  rw [yearStart, yearStart] at first
  rw [Zone.IsFixed, dayMillis] at fixed
  rw [Fields.instant, days, timeMillis, hourMillis, InReach, reach, dayMillis]
  omega

namespace Timestamp

/-- **The moment with fields that are read** is their instant in UTC, earlier by what the clocks of
the machine are ahead. -/
theorem momentIn_eq_utcInstant {f : Fields} (read : f.IsRead) {zone : Zone}
    (fixed : zone.IsFixed) :
    momentIn zone f = Moment.ofInstant (f.utcInstant - zone.offset) := by
  have built : Moment.ofFields zone { f with year := buildYear f.year } =
      Moment.ofInstant ({ f with year := buildYear f.year }.instant 0 - zone.offset) := by
    rw [Moment.ofFields, Fields.instant_eq_utc]
  rw [momentIn, Fields.utcInstant, built]
  dsimp only
  split
  · next short =>
    -- a day of a short year is reached in the building year first
    have year : -99 ≤ buildYear f.year ∧ buildYear f.year ≤ 1999 := by
      simp only [isShortYear, Bool.and_eq_true, decide_eq_true_eq] at short
      simp only [buildYear, Bool.and_eq_true, decide_eq_true_eq]
      split <;> omega
    have bounds : Fields.IsRead { f with year := buildYear f.year } :=
      ⟨read.month, read.day, read.hours, read.minutes, read.seconds, read.millis⟩
    have reached := bounds.inReach_instant year fixed
    rw [Fields.instant_eq_utc] at reached
    rw [Moment.ofInstant_of_inReach reached, Moment.change_some, Moment.ofFields,
      Fields.instant_eq_utc, fieldsOf_eq_utc, sub_add_cancel]
  · rfl

variable {machine : Zone} {cs : List Char} {f : Fields}

/-- A text without a zone spells the instant of its fields on the machine. -/
theorem moment_of_zoneless (fixed : machine.IsFixed) (h : parts? cs = some ⟨f, none⟩) :
    moment machine cs = Moment.ofInstant (f.utcInstant - machine.offset) := by
  rw [moment, h]
  exact momentIn_eq_utcInstant (exists_of_parts? h).1 fixed

/-- A text with a zone of its own spells the same moment on all machines. -/
theorem moment_of_zoned (machine : Zone) {offset : Int} (h : parts? cs = some ⟨f, some offset⟩) :
    moment machine cs =
      (Moment.ofInstant f.utcInstant).bind fun t => Moment.ofInstant (t - offset) := by
  have utc := momentIn_eq_utcInstant (exists_of_parts? h).1
    (show Zone.IsFixed 0 from ⟨by decide, by decide⟩)
  rw [Zone.offset_zero, Int.sub_zero] at utc
  rw [moment, h, ← utc]
  rfl

end Timestamp

end RowLiteral
