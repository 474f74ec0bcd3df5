import RowLiteral.Proofs.Calendar.RoundTrip
import RowLiteral.Proofs.Calendar.Spelled
import RowLiteral.Proofs.Number.Grammar

/-!
# Calendar — timestamps as they are written

A timestamp is written as a date, a time of day with a fraction or none, and a zone or none
(`WrittenStamp`).  The zone is `Z` or an offset of hours, minutes and seconds (`WrittenZone`).  It
is looked for twice: the reader takes it after the time, and the end of the text is searched for it.
Both find it where it is written, and only there (`Timestamp.parts?_chars`,
`Temporal.hasZone_chars`).

* `Temporal.readTimestamp_written`: a timestamp is read as the instant of its fields in UTC, earlier
  by its offset, or by that of the calendar where it has none.  It is refused where the fields alone
  are out of reach, which takes an offset of more than two days.
-/

namespace RowLiteral
open Number Text

/-! ### Zones as they are written -/

/-- A zone as it is written after a time: `Z`, or a sign and pairs of digits for the hours, the
minutes and the seconds, of which the last ones may be left out. -/
inductive WrittenZone where
  | utc
  | hours (behind : Bool) (h : Fin 100)
  | minutes (behind : Bool) (h m : Fin 100)
  | seconds (behind : Bool) (h m s : Fin 100)

namespace WrittenZone

/-- The sign of an offset, which tells whether the clocks are behind UTC. -/
def signChar (behind : Bool) : Char := if behind then '-' else '+'

/-- The text of a zone. -/
def chars : WrittenZone → List Char
  | .utc => ['Z']
  | .hours behind h => signChar behind :: padded 2 h
  | .minutes behind h m => signChar behind :: (padded 2 h ++ ':' :: padded 2 m)
  | .seconds behind h m s =>
    signChar behind :: (padded 2 h ++ ':' :: (padded 2 m ++ ':' :: padded 2 s))

/-- The milliseconds by which the clocks of a zone are ahead of UTC. -/
def offset : WrittenZone → Int
  | .utc => 0
  | .hours behind h => signed behind (h * 3600000)
  | .minutes behind h m => signed behind (h * 3600000 + m * 60000)
  | .seconds behind h m s => signed behind (h * 3600000 + m * 60000 + s * 1000)

/-- A zone starts with its mark. -/
theorem exists_chars (z : WrittenZone) : ∃ c cs, z.chars = c :: cs ∧ IsZoneMark c := by
  have sign (behind : Bool) : IsZoneMark (signChar behind) := by
    cases behind
    · exact .inr (.inl rfl)
    · exact .inr (.inr rfl)
  cases z with
  | utc => exact ⟨_, _, rfl, .inl rfl⟩
  | hours behind => exact ⟨_, _, rfl, sign behind⟩
  | minutes behind => exact ⟨_, _, rfl, sign behind⟩
  | seconds behind => exact ⟨_, _, rfl, sign behind⟩

theorem isMargin_of_mem_chars (z : WrittenZone) : ∀ c ∈ z.chars, isMargin c = false := by
  have sign (behind : Bool) : isMargin (signChar behind) = false := by cases behind <;> rfl
  have pair (n : Nat) : ∀ c ∈ padded 2 n, isMargin c = false := fun c hc =>
    isMargin_of_isDigit (isDigit_of_mem_padded hc)
  have colon : isMargin ':' = false := rfl
  cases z with
  | utc => exact List.forall_mem_singleton.2 rfl
  | hours behind h => exact List.forall_mem_cons.2 ⟨sign behind, pair h⟩
  | minutes behind h m =>
      exact List.forall_mem_cons.2 ⟨sign behind, List.forall_mem_append.2 ⟨pair h,
        List.forall_mem_cons.2 ⟨colon, pair m⟩⟩⟩
  | seconds behind h m s =>
      exact List.forall_mem_cons.2 ⟨sign behind, List.forall_mem_append.2 ⟨pair h,
        List.forall_mem_cons.2 ⟨colon, List.forall_mem_append.2 ⟨pair m,
          List.forall_mem_cons.2 ⟨colon, pair s⟩⟩⟩⟩⟩

end WrittenZone

/-- The text of a zone; none is written as nothing. -/
def zoneChars (zone : Option WrittenZone) : List Char := (zone.map WrittenZone.chars).getD []

theorem isMargin_of_mem_zoneChars (zone : Option WrittenZone) :
    ∀ c ∈ zoneChars zone, isMargin c = false := by
  cases zone with
  | none => exact nofun
  | some z => exact z.isMargin_of_mem_chars

/-- A zone goes on neither with the digits nor with the fraction of a time. -/
theorem head?_zoneChars (zone : Option WrittenZone) :
    ∀ c ∈ (zoneChars zone).head?, c.isDigit = false ∧ c ≠ '.' := by
  cases zone with
  | none => exact nofun
  | some z =>
      obtain ⟨c, cs, text, mark⟩ := z.exists_chars
      have first : (zoneChars (some z)).head? = some c := by
        show z.chars.head? = some c
        rw [text, List.head?_cons]
      rw [first]
      rintro _ ⟨⟩
      rcases mark with rfl | rfl | rfl <;> decide

/-! ### Timestamps as they are written -/

/-- A timestamp as it is written: a date of the year 1 or later, a time of day, the digits of a
fraction or none, and a zone or none. -/
structure WrittenStamp where
  year : DigitRun
  month : Nat
  day : Nat
  hours : Nat
  minutes : Nat
  seconds : Nat
  fraction : Option DigitRun
  zone : Option WrittenZone
  fourDigits : 4 ≤ year.chars.length
  positive : 1 ≤ ofDigits year.chars
  date : IsDate (ofDigits year.chars) (month - 1) day
  time : hours < 24 ∧ minutes < 60 ∧ seconds < 60
  filled : ∀ run ∈ fraction, run.chars ≠ []

/-- The text of a fraction; none is written as nothing. -/
def fractionChars : Option DigitRun → List Char
  | none => []
  | some run => '.' :: run.chars

/-- The milliseconds of a fraction, cut off. -/
def fractionMillis : Option DigitRun → Nat
  | none => 0
  | some run => ofDigits run.chars * 1000 / 10 ^ run.chars.length

theorem fractionMillis_lt (fraction : Option DigitRun) : fractionMillis fraction < 1000 := by
  cases fraction with
  | none => exact Nat.succ_pos _
  | some run =>
      refine Nat.div_lt_of_lt_mul ?_
      exact Nat.mul_lt_mul_of_pos_right (ofDigits_lt run.digits) (by decide)

namespace WrittenStamp

/-- The text of the date. -/
def dateChars (w : WrittenStamp) : List Char :=
  w.year.chars ++ '-' :: (padded 2 w.month ++ '-' :: padded 2 w.day)

/-- The text of the time of day and the zone. -/
def clockChars (w : WrittenStamp) : List Char :=
  padded 2 w.hours ++ ':' :: (padded 2 w.minutes ++ ':' :: (padded 2 w.seconds ++
    (fractionChars w.fraction ++ zoneChars w.zone)))

/-- The text of a timestamp. -/
def chars (w : WrittenStamp) : List Char := w.dateChars ++ ' ' :: w.clockChars

/-- The text of a timestamp. -/
def text (w : WrittenStamp) : String := String.ofList w.chars

/-- The fields that are written. -/
def fields (w : WrittenStamp) : Fields :=
  ⟨ofDigits w.year.chars, w.month - 1, w.day, w.hours, w.minutes, w.seconds,
    fractionMillis w.fraction⟩

/-- The milliseconds by which the clocks are ahead of UTC that show the fields: those of the zone,
or of the calendar where there is none. -/
def offset (w : WrittenStamp) (machine : Zone) (calendar : Calendar) : Int :=
  (w.zone.map WrittenZone.offset).getD (calendar.zone machine).offset

/-- The instant that is written: that of the fields in UTC, earlier by the offset. -/
def instant (w : WrittenStamp) (machine : Zone) (calendar : Calendar) : Int :=
  w.fields.instant 0 - w.offset machine calendar

variable (w : WrittenStamp)

theorem isPair_month : IsPair (padded 2 w.month) := by
  have := w.date.month
  exact isPair_padded (by omega)

theorem isPair_day : IsPair (padded 2 w.day) := by
  have := w.date.day_le
  exact isPair_padded (by omega)

theorem isPair_time : IsPair (padded 2 w.hours) ∧ IsPair (padded 2 w.minutes) ∧
    IsPair (padded 2 w.seconds) := by
  obtain ⟨hours, minutes, seconds⟩ := w.time
  exact ⟨isPair_padded (by omega), isPair_padded (by omega), isPair_padded (by omega)⟩

theorem year_ne_nil : w.year.chars ≠ [] :=
  List.ne_nil_of_length_pos (Nat.lt_of_lt_of_le (by decide) w.fourDigits)

theorem chars_eq : w.chars = w.year.chars ++ '-' :: (padded 2 w.month ++ '-' ::
    (padded 2 w.day ++ ' ' :: w.clockChars)) := by
  simp [chars, dateChars]

theorem isProper_fields : w.fields.IsProper where
  date := w.date
  hours := by
    have := w.time.1
    simp only [fields]
    omega
  minutes := by
    have := w.time.2.1
    simp only [fields]
    omega
  seconds := by
    have := w.time.2.2
    simp only [fields]
    omega
  millis := by
    have := fractionMillis_lt w.fraction
    simp only [fields]
    omega

theorem positive_fields : 0 ≤ w.fields.year := Int.natCast_nonneg _

theorem ordinary_fields : ¬ Timestamp.IsLeapDayOfZero w.fields := by
  intro leapDay
  have zero : ((ofDigits w.year.chars : Nat) : Int) = 0 := leapDay.1
  have := w.positive
  omega

/-! ### Margins -/

theorem isMargin_of_mem_clockChars : ∀ c ∈ w.clockChars, isMargin c = false := by
  have pair (n : Nat) : ∀ c ∈ padded 2 n, isMargin c = false := fun c hc =>
    isMargin_of_isDigit (isDigit_of_mem_padded hc)
  have colon : isMargin ':' = false := rfl
  have fraction : ∀ c ∈ fractionChars w.fraction, isMargin c = false := by
    cases w.fraction with
    | none => exact nofun
    | some run =>
        exact List.forall_mem_cons.2 ⟨rfl, fun c hc => isMargin_of_isDigit (run.digits c hc)⟩
  exact List.forall_mem_append.2 ⟨pair _, List.forall_mem_cons.2 ⟨colon,
    List.forall_mem_append.2 ⟨pair _, List.forall_mem_cons.2 ⟨colon,
      List.forall_mem_append.2 ⟨pair _, List.forall_mem_append.2 ⟨fraction,
        isMargin_of_mem_zoneChars w.zone⟩⟩⟩⟩⟩⟩

theorem trimChars_chars : trimChars w.chars = w.chars := by
  refine trimChars_eq_self (fun c hc => ?_) fun c hc => ?_
  · rw [chars_eq, List.head?_append_of_ne_nil _ w.year_ne_nil] at hc
    exact isMargin_of_isDigit (w.year.digits c (List.mem_of_head? hc))
  · have clock : w.clockChars ≠ [] := by simp [clockChars]
    rw [chars, List.getLast?_append_cons, List.getLast?_cons_of_ne_nil clock] at hc
    exact w.isMargin_of_mem_clockChars c (List.mem_of_getLast? hc)

end WrittenStamp

/-! ### Reading what is written -/

namespace Timestamp

theorem readZone_chars (z : WrittenZone) : readZone z.chars = (some z.offset, []) := by
  have pair (n : Fin 100) : IsPair (padded 2 n) := isPair_padded n.isLt
  -- a last group is followed by nothing, so by no colon
  have last (n : Fin 100) : readPair (padded 2 n) = (((n : Nat) : Int), []) := by
    have read := readPair_append (pair n) []
    rwa [List.append_nil, ofDigits_padded] at read
  have group (n : Fin 100) (rest : List Char) :
      readPair (padded 2 n ++ rest) = (((n : Nat) : Int), rest) := by
    rw [readPair_append (pair n), ofDigits_padded]
  have signedZone {behind : Bool} {cs : List Char} {n : Nat} {k : Int}
      (read : readOffset cs = (k, [])) (same : k * 1000 = n) :
      readZone (WrittenZone.signChar behind :: cs) = (some (signed behind n), []) := by
    cases behind with
    | false =>
        rw [show WrittenZone.signChar false = '+' from rfl, readZone_plus, read, same]
        rfl
    | true =>
        rw [show WrittenZone.signChar true = '-' from rfl, readZone_minus, read, neg_mul, same]
        rfl
  cases z with
  | utc => rfl
  | hours behind h =>
      have read : readOffset (padded 2 h) = (((h : Nat) : Int) * 3600, []) := by
        simp only [readOffset, last]
      exact signedZone read (by push_cast; ring)
  | minutes behind h m =>
      have read : readOffset (padded 2 h ++ ':' :: padded 2 m) =
          (((h : Nat) : Int) * 3600 + ((m : Nat) : Int) * 60, []) := by
        simp only [readOffset, group, last]
      exact signedZone read (by push_cast; ring)
  | seconds behind h m s =>
      have read : readOffset (padded 2 h ++ ':' :: (padded 2 m ++ ':' :: padded 2 s)) =
          (((h : Nat) : Int) * 3600 + ((m : Nat) : Int) * 60 + ((s : Nat) : Int), []) := by
        simp only [readOffset, group, last]
      exact signedZone read (by push_cast; ring)

theorem readZone_zoneChars (zone : Option WrittenZone) :
    readZone (zoneChars zone) = (zone.map WrittenZone.offset, []) := by
  cases zone with
  | none => rfl
  | some z => exact readZone_chars z

theorem readMillis?_fractionChars {fraction : Option DigitRun} {rest : List Char}
    (filled : ∀ run ∈ fraction, run.chars ≠ [])
    (hr : ∀ c ∈ rest.head?, c.isDigit = false ∧ c ≠ '.') :
    readMillis? (fractionChars fraction ++ rest) =
      some (((fractionMillis fraction : Nat) : Int), rest) := by
  cases fraction with
  | none =>
      rw [fractionChars, List.nil_append, readMillis?.eq_def]
      split
      · exact absurd rfl (hr '.' rfl).2
      · rfl
  | some run =>
      have ends : ∀ c ∈ rest.head?, c.isDigit = false := fun c hc => (hr c hc).1
      rw [fractionChars, List.cons_append, readMillis?]
      simp only [takeWhile_isDigit run.digits ends, dropWhile_isDigit run.digits ends,
        if_neg (filled run rfl), millisOf_eq_div run.digits]
      rfl

/-- **What is written is read:** the fields, and the zone. -/
theorem parts?_chars (w : WrittenStamp) :
    parts? w.chars = some ⟨w.fields, w.zone.map WrittenZone.offset⟩ := by
  obtain ⟨hours, minutes, seconds⟩ := w.isPair_time
  have date := readDate?_append w.year_ne_nil w.year.digits w.isPair_month w.isPair_day
    (' ' :: w.clockChars)
  have time := readTime?_append hours minutes seconds
    (readMillis?_fractionChars w.filled (head?_zoneChars w.zone))
  rw [← WrittenStamp.clockChars] at time
  rw [parts?, w.chars_eq, date]
  simp only [Option.bind_eq_bind, Option.bind_some, time, readZone_zoneChars, ofDigits_padded]
  rfl

end Timestamp

namespace Temporal
open Timestamp

theorem completed_chars (w : WrittenStamp) : completed w.chars = w.chars := by
  obtain ⟨a, b, hours, digit, -⟩ := w.isPair_time.1.exists
  have date := dateOnly?_append w.year_ne_nil w.year.digits w.isPair_month w.isPair_day
    (' ' :: w.clockChars)
  have ordinary : isEraEnd (' ' :: w.clockChars) = false := by
    refine isEraEnd_space (fun c hc => w.isMargin_of_mem_clockChars c (List.mem_of_head? hc)) ?_
    rw [WrittenStamp.clockChars, hours]
    rintro ⟨⟩
  rw [← w.chars_eq, if_neg (by simp [ordinary])] at date
  rw [completed, date]

theorem afterPair?_append {ds : List Char} (h : IsPair ds) (rest : List Char) :
    afterPair? (ds ++ rest) = some rest := by
  obtain ⟨a, b, rfl, ha, hb⟩ := h.exists
  simp [afterPair?, ha, hb]

theorem afterGroups_succ {ds : List Char} (h : IsPair ds) (n : Nat) (rest : List Char) :
    afterGroups (n + 1) (':' :: (ds ++ rest)) = afterGroups n rest := by
  rw [afterGroups, afterGroup?, afterPair?_append h]

/-- Nothing is left after a zone. -/
theorem afterZone?_chars (z : WrittenZone) : afterZone? z.chars = some [] := by
  have pair (n : Fin 100) : IsPair (padded 2 n) := isPair_padded n.isLt
  have groups {h : Fin 100} {rest : List Char} (behind : Bool) (left : afterGroups 2 rest = []) :
      afterZone? (WrittenZone.signChar behind :: (padded 2 h ++ rest)) = some [] := by
    cases behind with
    | false =>
        rw [show WrittenZone.signChar false = '+' from rfl, afterZone?, afterPair?_append (pair h),
          Option.map_some, left]
    | true =>
        rw [show WrittenZone.signChar true = '-' from rfl, afterZone?, afterPair?_append (pair h),
          Option.map_some, left]
  cases z with
  | utc => rfl
  | hours behind h =>
      have left := groups (h := h) behind (show afterGroups 2 [] = [] from rfl)
      rwa [List.append_nil] at left
  | minutes behind h m =>
      refine groups behind ?_
      rw [← List.append_nil (padded 2 m), afterGroups_succ (pair m)]
      rfl
  | seconds behind h m s =>
      refine groups behind ?_
      rw [afterGroups_succ (pair m), ← List.append_nil (padded 2 s), afterGroups_succ (pair s)]
      rfl

theorem afterSeconds?_append {seconds rest : List Char} {fraction : Option DigitRun}
    (pair : IsPair seconds) (filled : ∀ run ∈ fraction, run.chars ≠ [])
    (hr : ∀ c ∈ rest.head?, c.isDigit = false ∧ c ≠ '.') :
    afterSeconds? (':' :: (seconds ++ (fractionChars fraction ++ rest))) = some rest := by
  rw [afterSeconds?, afterPair?_append pair, Option.bind_eq_bind, Option.bind_some]
  cases fraction with
  | none =>
      rw [fractionChars, List.nil_append]
      split
      · exact absurd rfl (hr '.' rfl).2
      · rfl
  | some run =>
      have ends : ∀ c ∈ rest.head?, c.isDigit = false := fun c hc => (hr c hc).1
      rw [fractionChars, List.cons_append]
      simp only [spanDigits?_append (filled run rfl) run.digits ends, Option.bind_eq_bind,
        Option.bind_some, Option.pure_def]

theorem isZonedTime_clockChars {w : WrittenStamp} {z : WrittenZone} (zoned : w.zone = some z) :
    isZonedTime w.clockChars = true := by
  obtain ⟨hours, minutes, seconds⟩ := w.isPair_time
  have after := afterSeconds?_append seconds w.filled (head?_zoneChars w.zone)
  have zone : afterZone? (zoneChars w.zone) = some [] := by
    rw [zoned]
    exact afterZone?_chars z
  rw [isZonedTime, WrittenStamp.clockChars]
  simp only [afterPair?_append hours, expect?_cons, afterPair?_append minutes, after, zone,
    Option.bind_eq_bind, Option.bind_some]
  rfl

theorem hasZone_append_left (first : List Char) {cs : List Char} (h : hasZone cs = true) :
    hasZone (first ++ cs) = true := by
  induction first with
  | nil => exact h
  | cons c first ih => rw [List.cons_append, hasZone, ih, Bool.or_true]

theorem hasZone_of_isZonedTime {cs : List Char} (h : isZonedTime cs = true) :
    hasZone cs = true := by
  cases cs with
  | nil => exact absurd h (by decide)
  | cons c cs => rw [hasZone, h, Bool.true_or]

/-- **The zone that is written is seen at the end of the text,** and no other is. -/
theorem hasZone_chars (w : WrittenStamp) : hasZone w.chars = w.zone.isSome := by
  cases zoned : w.zone with
  | none =>
      have spelled : parts? (completed w.chars) = some ⟨w.fields, none⟩ := by
        rw [completed_chars, parts?_chars, zoned, Option.map_none]
      exact hasZone_of_zoneless spelled rfl
  | some z =>
      have seen := hasZone_of_isZonedTime (isZonedTime_clockChars zoned)
      rw [WrittenStamp.chars, ← List.singleton_append, ← List.append_assoc]
      exact hasZone_append_left _ seen

/-! ### The instant that is read -/

variable {machine : Zone} {calendar : Calendar} {w : WrittenStamp}

/-- A text with a zone that is seen is read as the instant that it spells, in every calendar. -/
theorem read?_of_zoned {text : String} {cs : List Char} {f : Fields} {offset : Int}
    (machine : Zone) (calendar : Calendar) (proper : f.IsProper) (positive : 0 ≤ f.year)
    (ordinary : ¬ IsLeapDayOfZero f) (trimmed : trimChars text.toList = cs)
    (seen : hasZone cs = true) (parts : parts? (completed cs) = some ⟨f, some offset⟩) :
    read? machine calendar text =
      ((Moment.ofInstant (f.instant 0)).bind fun t => Moment.ofInstant (t - offset)).map some := by
  have fixed : Zone.IsFixed 0 := ⟨by decide, by decide⟩
  have spelled : moment machine (completed cs) =
      (Moment.ofInstant (f.instant 0)).bind fun t => Moment.ofInstant (t - offset) := by
    rw [moment, parts, ← momentIn_eq fixed proper positive ordinary]
    rfl
  rw [read?_eq, trimmed, spelled, seen]
  rfl

theorem toList_text (w : WrittenStamp) : trimChars w.text.toList = w.chars := by
  rw [WrittenStamp.text, String.toList_ofList, w.trimChars_chars]

/-- Without a zone the fields are those of the calendar. -/
theorem read?_text_of_zoneless (fixed : machine.IsFixed) (calendar : Calendar)
    (zoneless : w.zone = none)
    (within : -reach + 2 * dayMillis < w.instant machine calendar ∧
      w.instant machine calendar < reach - 2 * dayMillis) :
    read? machine calendar w.text =
      (Moment.ofInstant (w.fields.instant 0)).map fun _ => some (w.instant machine calendar) := by
  have instant : w.instant machine calendar = w.fields.instant (calendar.zone machine) := by
    rw [WrittenStamp.instant, WrittenStamp.offset, zoneless, Option.map_none, Option.getD_none,
      ← Fields.instant_eq_utc]
  have onMachine := instant_zone machine calendar w.fields
  have inUtc := Fields.instant_eq_utc machine w.fields
  have ahead := fixed.ahead calendar
  have bounds := fixed
  rw [Zone.IsFixed, dayMillis] at bounds
  rw [dayMillis] at ahead
  rw [instant, dayMillis] at within
  -- the zones are less than a day apart, and the instant is two days within reach
  have reached : InReach (w.fields.instant (calendar.zone machine)) := by
    rw [InReach]
    omega
  have machineReached : InReach (w.fields.instant machine) := by
    rw [InReach]
    omega
  have utcReached : InReach (w.fields.instant 0) := by
    rw [InReach]
    omega
  rw [instant, read?_of_parts fixed calendar w.isProper_fields w.positive_fields w.ordinary_fields
    (toList_text w) (by rw [hasZone_chars, zoneless]; rfl)
    (by rw [completed_chars, parts?_chars, zoneless]; rfl) reached,
    Moment.ofInstant_of_inReach machineReached, Moment.ofInstant_of_inReach utcReached]
  rfl

/-- With a zone they are those of UTC, and the zone is taken off. -/
theorem read?_text_of_zoned (machine : Zone) (calendar : Calendar) {z : WrittenZone}
    (zoned : w.zone = some z) (reached : InReach (w.instant machine calendar)) :
    read? machine calendar w.text =
      (Moment.ofInstant (w.fields.instant 0)).map fun _ => some (w.instant machine calendar) := by
  have instant : w.instant machine calendar = w.fields.instant 0 - z.offset := by
    rw [WrittenStamp.instant, WrittenStamp.offset, zoned, Option.map_some, Option.getD_some]
  rw [instant] at reached ⊢
  rw [read?_of_zoned machine calendar w.isProper_fields w.positive_fields w.ordinary_fields
    (toList_text w) (by rw [hasZone_chars, zoned]; rfl)
    (by rw [completed_chars, parts?_chars, zoned]; rfl)]
  by_cases utcReached : InReach (w.fields.instant 0)
  · rw [Moment.ofInstant_of_inReach utcReached, Option.bind_some,
      Moment.ofInstant_of_inReach reached]
    rfl
  · rw [Moment.ofInstant_of_not_inReach utcReached]
    rfl

/-- What is read of a timestamp whose instant is more than two days within reach. -/
theorem read?_text (fixed : machine.IsFixed) (calendar : Calendar) (w : WrittenStamp)
    (within : -reach + 2 * dayMillis < w.instant machine calendar ∧
      w.instant machine calendar < reach - 2 * dayMillis) :
    read? machine calendar w.text =
      (Moment.ofInstant (w.fields.instant 0)).map fun _ => some (w.instant machine calendar) := by
  cases zone : w.zone with
  | none => exact read?_text_of_zoneless fixed calendar zone within
  | some z =>
      refine read?_text_of_zoned machine calendar zone ?_
      rw [dayMillis] at within
      rw [InReach]
      omega

/-- Fields out of reach whose instant is more than two days within it have a zone more than two
days away from UTC. -/
theorem exists_zone_of_not_inReach (fixed : machine.IsFixed)
    (within : -reach + 2 * dayMillis < w.instant machine calendar ∧
      w.instant machine calendar < reach - 2 * dayMillis)
    (out : ¬ InReach (w.fields.instant 0)) : ∃ z ∈ w.zone, 2 * dayMillis < |z.offset| := by
  rw [WrittenStamp.instant, WrittenStamp.offset] at within
  rw [InReach] at out
  cases zoned : w.zone with
  | none =>
      have zone := fixed.zone calendar
      rw [Zone.IsFixed] at zone
      rw [zoned, Option.map_none, Option.getD_none] at within
      rw [dayMillis] at within zone
      omega
  | some z =>
      rw [zoned, Option.map_some, Option.getD_some] at within
      refine ⟨z, rfl, ?_⟩
      rw [lt_abs]
      omega

/-- **A timestamp is read as the instant that is written,** in every calendar and on every machine:
that of the fields in UTC, with the fraction cut off to milliseconds, earlier by the offset of the
zone, or by that of the calendar where there is none.  It is refused where the fields alone are out
of reach; the instant is then two days within reach only by an offset of more than two days. -/
theorem readTimestamp_written (machine : Zone) (fixed : machine.IsFixed) (calendar : Calendar)
    (w : WrittenStamp) (within : -reach + 2 * dayMillis < w.instant machine calendar ∧
      w.instant machine calendar < reach - 2 * dayMillis) :
    (InReach (w.fields.instant 0) ∧
        readTimestamp machine calendar w.text = .ok (some (w.instant machine calendar))) ∨
      (¬ InReach (w.fields.instant 0) ∧ (∃ z ∈ w.zone, 2 * dayMillis < |z.offset|) ∧
        readTimestamp machine calendar w.text = .error (.unreadable .timestamp w.text)) := by
  rw [readTimestamp, read?_text fixed calendar w within]
  by_cases reached : InReach (w.fields.instant 0)
  · rw [Moment.ofInstant_of_inReach reached]
    exact .inl ⟨reached, rfl⟩
  · rw [Moment.ofInstant_of_not_inReach reached]
    exact .inr ⟨reached, exists_zone_of_not_inReach fixed within reached, rfl⟩

/-- The instant five and a half hours ahead of UTC, its fraction cut off. -/
theorem readTimestamp_written_ahead :
    Zone.IsFixed 5 ∧
      readTimestamp 5 .utc "2024-02-29 03:20:30.9876+05:30" = .ok (some 1709157030987) := by
  let w : WrittenStamp :=
    { year := ⟨"2024".toList, by simp⟩, month := 2, day := 29
      hours := 3, minutes := 20, seconds := 30
      fraction := some ⟨"9876".toList, by simp⟩, zone := some (.minutes false 5 30)
      fourDigits := by decide, positive := by decide
      date := ⟨by decide, by decide⟩, time := by decide
      filled := by rintro _ ⟨⟩; decide }
  have fixed : Zone.IsFixed 5 := ⟨by decide, by decide⟩
  have text : w.text = "2024-02-29 03:20:30.9876+05:30" := by decide
  have instant : w.instant 5 .utc = 1709157030987 := by decide
  have within : -reach + 2 * dayMillis < w.instant 5 .utc ∧
      w.instant 5 .utc < reach - 2 * dayMillis := by rw [instant]; decide
  have reached : InReach (w.fields.instant 0) := ⟨by decide, by decide⟩
  rw [← text, ← instant]
  rcases readTimestamp_written 5 fixed .utc w within with ⟨-, read⟩ | ⟨out, -⟩
  · exact ⟨fixed, read⟩
  · exact absurd reached out

/-- An hour past the last moment is not read, although 99 hours ahead of UTC it is days before
that. -/
theorem not_readTimestamp_written :
    ¬ ∀ (machine : Zone) (calendar : Calendar) (w : WrittenStamp), machine.IsFixed →
      -reach + 2 * dayMillis < w.instant machine calendar ∧
        w.instant machine calendar < reach - 2 * dayMillis →
      readTimestamp machine calendar w.text = .ok (some (w.instant machine calendar)) := by
  intro h
  let w : WrittenStamp :=
    { year := ⟨"275760".toList, by simp⟩, month := 9, day := 13
      hours := 1, minutes := 0, seconds := 0, fraction := none, zone := some (.hours false 99)
      fourDigits := by decide, positive := by decide
      date := ⟨by decide, by decide⟩, time := by decide
      filled := nofun }
  have refused : readTimestamp 0 .utc w.text = .error (.unreadable .timestamp w.text) := by
    decide +kernel
  have read := h 0 .utc w ⟨by decide, by decide⟩ (by decide)
  exact absurd (refused.symm.trans read) nofun

end Temporal

end RowLiteral
