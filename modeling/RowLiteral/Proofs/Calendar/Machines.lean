import RowLiteral.Proofs.Calendar.RoundTrip
import RowLiteral.Proofs.Calendar.Spelled

/-!
# Calendar — texts that are read alike on all machines

In the UTC calendar the answer to a text should not tell in which zone the machine is: two machines
give the same instant, or both refuse the text (`Temporal.AnswersAlike`).  A text is *settled*
between two machines when one of these is the case (`Temporal.IsSettled`):

* it is no timestamp, or its own zone takes it out of reach;
* it has a zone of its own that is seen at its end, or that makes no difference;
* it has no zone, and its fields are within reach in UTC and on both machines, or on neither.

`Temporal.answersAlike_iff`: the texts that are answered alike are those that are settled.
-/

namespace RowLiteral
open Timestamp

variable {machine machine' : Zone} {type : TemporalType} {cs : List Char} {t : Int}

namespace Temporal

/-! ### Answers -/

/-- Two machines answer a text alike: with one instant, or both that it is not read. -/
def AnswersAlike (type : TemporalType) (text : String) (a a' : Except TemporalFailure Moment) :
    Prop :=
  (∃ t, a = .ok (some t) ∧ a' = .ok (some t)) ∨
    (a = .error (.unreadable type text) ∧ a' = .error (.unreadable type text))

/-- One instant, or none in both; `none` stands for a text that is not read. -/
def IsSame (m m' : Option Moment) : Prop :=
  (∃ t, m = some (some t) ∧ m' = some (some t)) ∨ (m = none ∧ m' = none)

theorem isSame_some_iff {m m' : Moment} :
    IsSame (some m) (some m') ↔ ∃ t, m = some t ∧ m' = some t := by
  simp [IsSame]

theorem isSame_none_iff {m : Option Moment} : IsSame none m ↔ m = none := by simp [IsSame]

theorem isSame_comm {m m' : Option Moment} : IsSame m m' ↔ IsSame m' m := by
  simp only [IsSame, and_comm]

theorem answersAlike_orUnreadable_iff {text : String} {m m' : Option Moment} :
    AnswersAlike type text (orUnreadable type text m) (orUnreadable type text m') ↔
      IsSame m m' := by
  cases m <;> cases m' <;> simp [AnswersAlike, IsSame, orUnreadable]

/-! ### Reading -/

/-- The text that is read for a text of a type: a time is one of the first of January 1970. -/
def subject : TemporalType → String → String
  | .time, text => "1970-01-01 " ++ Text.trim text
  | .date, text | .timestamp, text => text

/-- The characters of that text, without margins. -/
def subjectChars (type : TemporalType) (text : String) : List Char :=
  Text.trimChars (subject type text).toList

theorem read_date (machine : Zone) (calendar : Calendar) (text : String) :
    (reader machine).read .date calendar text =
      orUnreadable .date text ((read? machine calendar (subject .date text)).map
        (midnight (calendar.zone machine))) := by
  simp only [TemporalReaderOf.read, reader, readDate, subject]

/-- But for dates, what is read is kept. -/
theorem read_of_ne_date (machine : Zone) (calendar : Calendar) (other : type ≠ .date)
    (text : String) : (reader machine).read type calendar text =
      orUnreadable type text (read? machine calendar (subject type text)) := by
  cases type with
  | date => exact absurd rfl other
  | time => simp only [TemporalReaderOf.read, reader, readTime, subject]
  | timestamp => simp only [TemporalReaderOf.read, reader, readTimestamp, subject]

/-- What a type makes of a moment: a date is the midnight of its day. -/
def keptMoment : TemporalType → Moment → Moment
  | .date, m => midnight 0 m
  | .time, m | .timestamp, m => m

/-- What a type makes of an instant. -/
def kept : TemporalType → Int → Int
  | .date, t => dayStart 0 t
  | .time, t | .timestamp, t => t

theorem keptMoment_some (type : TemporalType) (reached : InReach t) :
    keptMoment type (some t) = some (kept type t) := by
  cases type with
  | date =>
      rw [keptMoment, midnight_some 0 reached,
        Moment.ofInstant_of_inReach (inReach_dayStart_utc reached), kept]
  | time => rfl
  | timestamp => rfl

theorem keptMoment_ofInstant_iff {s : Int} :
    keptMoment type (Moment.ofInstant t) = some s ↔ InReach t ∧ kept type t = s := by
  by_cases reached : InReach t
  · rw [Moment.ofInstant_of_inReach reached, keptMoment_some type reached, Option.some.injEq,
      and_iff_right reached]
  · rw [Moment.ofInstant_of_not_inReach reached]
    exact iff_of_false (by cases type <;> exact nofun) fun h => reached h.1

/-- What a machine makes of characters in the UTC calendar; `none` where they are not read. -/
def answer? (machine : Zone) (type : TemporalType) (cs : List Char) : Option Moment :=
  (moment machine (completed cs)).map fun t =>
    keptMoment type (if hasZone cs then some t else Moment.ofInstant (t + machine.offset))

theorem read_utc (machine : Zone) (type : TemporalType) (text : String) :
    (reader machine).read type .utc text =
      orUnreadable type text (answer? machine type (subjectChars type text)) := by
  have read := read?_eq machine .utc (subject type text)
  rw [← subjectChars, Calendar.ahead_utc] at read
  cases type with
  | date =>
      rw [read_date, Calendar.zone, read, Option.map_map]
      rfl
  | time => simp only [read_of_ne_date _ _ (by decide : TemporalType.time ≠ .date), read, answer?,
      keptMoment]
  | timestamp => simp only [read_of_ne_date _ _ (by decide : TemporalType.timestamp ≠ .date), read,
      answer?, keptMoment]

/-! ### Texts that are settled -/

/-- Two machines make the same of a moment whose zone is not seen. -/
structure TakenAlike (machine machine' : Zone) (type : TemporalType) (t : Int) : Prop where
  reached : InReach (t + machine.offset)
  reached' : InReach (t + machine'.offset)
  same : kept type (t + machine.offset) = kept type (t + machine'.offset)

/-- Fields without a zone are within reach of two machines and UTC, or of neither machine. -/
def ReachedAlike (machine machine' : Zone) (t : Int) : Prop :=
  (InReach (t - machine.offset) ∧ InReach (t - machine'.offset) ∧ InReach t) ∨
    (¬ InReach (t - machine.offset) ∧ ¬ InReach (t - machine'.offset))

/-- A text whose reading in UTC does not tell two machines apart. -/
structure IsSettled (machine machine' : Zone) (type : TemporalType) (cs : List Char) : Prop where
  /-- A zone of its own is seen, or makes no difference. -/
  zoned : ∀ f offset, parts? (completed cs) = some ⟨f, some offset⟩ → InReach f.utcInstant →
    InReach (f.utcInstant - offset) →
      hasZone cs = true ∨ TakenAlike machine machine' type (f.utcInstant - offset)
  /-- Fields without a zone are reached alike. -/
  zoneless : ∀ f, parts? (completed cs) = some ⟨f, none⟩ →
    ReachedAlike machine machine' f.utcInstant

theorem isSettled_iff_of_zoneless {f : Fields} (spelled : parts? (completed cs) = some ⟨f, none⟩) :
    IsSettled machine machine' type cs ↔ ReachedAlike machine machine' f.utcInstant := by
  refine ⟨fun h => h.zoneless f spelled, fun h => ⟨fun _ _ other => ?_, fun _ same => ?_⟩⟩
  · exact absurd (spelled.symm.trans other) (by simp)
  · obtain ⟨rfl, -⟩ := Parts.mk.inj (Option.some.inj (spelled.symm.trans same))
    exact h

theorem isSettled_iff_of_zoned {f : Fields} {offset : Int}
    (spelled : parts? (completed cs) = some ⟨f, some offset⟩) :
    IsSettled machine machine' type cs ↔
      (InReach f.utcInstant → InReach (f.utcInstant - offset) →
        hasZone cs = true ∨ TakenAlike machine machine' type (f.utcInstant - offset)) := by
  refine ⟨fun h => h.zoned f offset spelled, fun h => ⟨fun _ _ same => ?_, fun _ other => ?_⟩⟩
  · obtain ⟨rfl, zones⟩ := Parts.mk.inj (Option.some.inj (spelled.symm.trans same))
    obtain rfl := Option.some.inj zones
    exact h
  · exact absurd (spelled.symm.trans other) (by simp)

/-- Where a zone is seen, no machine can be told. -/
theorem isSettled_of_hasZone (seen : hasZone cs = true) : IsSettled machine machine' type cs where
  zoned _ _ _ _ _ := .inl seen
  zoneless _ spelled := by
    rw [hasZone_of_zoneless spelled rfl] at seen
    exact absurd seen Bool.false_ne_true

/-- Nor can it without a zone, a day or more from the bounds. -/
theorem isSettled_of_zoneless (fixed : machine.IsFixed) (fixed' : machine'.IsFixed) {f : Fields}
    (spelled : parts? (completed cs) = some ⟨f, none⟩)
    (within : -reach + dayMillis ≤ f.utcInstant ∧ f.utcInstant ≤ reach - dayMillis) :
    IsSettled machine machine' type cs := by
  refine (isSettled_iff_of_zoneless spelled).2 (.inl ?_)
  rw [Zone.IsFixed, dayMillis] at fixed fixed'
  rw [dayMillis] at within
  simp only [InReach]
  omega

/-! ### What machines make of a text -/

theorem answer?_of_zoneless (fixed : machine.IsFixed) (type : TemporalType) {f : Fields}
    (spelled : parts? (completed cs) = some ⟨f, none⟩) : answer? machine type cs =
      (Moment.ofInstant (f.utcInstant - machine.offset)).map fun _ =>
        keptMoment type (Moment.ofInstant f.utcInstant) := by
  rw [answer?, moment_of_zoneless fixed spelled, hasZone_of_zoneless spelled rfl]
  by_cases reached : InReach (f.utcInstant - machine.offset)
  · rw [Moment.ofInstant_of_inReach reached, Option.map_some, Option.map_some,
      if_neg Bool.false_ne_true, sub_add_cancel]
  · rw [Moment.ofInstant_of_not_inReach reached, Option.map_none, Option.map_none]

theorem answer?_of_zoned (machine : Zone) (type : TemporalType) {f : Fields} {offset : Int}
    (spelled : parts? (completed cs) = some ⟨f, some offset⟩) (reached : InReach f.utcInstant)
    (reached' : InReach (f.utcInstant - offset)) : answer? machine type cs =
      some (keptMoment type (if hasZone cs then some (f.utcInstant - offset)
        else Moment.ofInstant (f.utcInstant - offset + machine.offset))) := by
  rw [answer?, moment_of_zoned machine spelled, Moment.ofInstant_of_inReach reached,
    Option.bind_some, Moment.ofInstant_of_inReach reached', Option.map_some]

theorem answer?_of_not_inReach (machine : Zone) (type : TemporalType) {f : Fields} {offset : Int}
    (spelled : parts? (completed cs) = some ⟨f, some offset⟩)
    (lost : ¬ (InReach f.utcInstant ∧ InReach (f.utcInstant - offset))) :
    answer? machine type cs = none := by
  rw [answer?, moment_of_zoned machine spelled]
  by_cases reached : InReach f.utcInstant
  · rw [Moment.ofInstant_of_inReach reached, Option.bind_some,
      Moment.ofInstant_of_not_inReach fun reached' => lost ⟨reached, reached'⟩, Option.map_none]
  · rw [Moment.ofInstant_of_not_inReach reached, Option.bind_none, Option.map_none]

theorem isSame_of_zoneless (fixed : machine.IsFixed) (fixed' : machine'.IsFixed) {f : Fields}
    (spelled : parts? (completed cs) = some ⟨f, none⟩) :
    IsSame (answer? machine type cs) (answer? machine' type cs) ↔
      IsSettled machine machine' type cs := by
  rw [isSettled_iff_of_zoneless spelled, ReachedAlike, answer?_of_zoneless fixed type spelled,
    answer?_of_zoneless fixed' type spelled]
  by_cases reached : InReach (f.utcInstant - machine.offset) <;>
    by_cases reached' : InReach (f.utcInstant - machine'.offset)
  · rw [Moment.ofInstant_of_inReach reached, Moment.ofInstant_of_inReach reached',
      Option.map_some, Option.map_some, isSame_some_iff]
    simp only [keptMoment_ofInstant_iff, and_self, reached, reached', true_and, not_true_eq_false,
      or_false, exists_and_left, exists_eq', and_true]
  · rw [Moment.ofInstant_of_not_inReach reached', isSame_comm, Option.map_none, isSame_none_iff]
    simp [Moment.ofInstant_of_inReach reached, reached, reached']
  · rw [Moment.ofInstant_of_not_inReach reached, Option.map_none, isSame_none_iff]
    simp [Moment.ofInstant_of_inReach reached', reached, reached']
  · rw [Moment.ofInstant_of_not_inReach reached, Moment.ofInstant_of_not_inReach reached',
      Option.map_none]
    exact iff_of_true (.inr ⟨rfl, rfl⟩) (.inr ⟨reached, reached'⟩)

theorem isSame_of_zoned {f : Fields} {offset : Int}
    (spelled : parts? (completed cs) = some ⟨f, some offset⟩) :
    IsSame (answer? machine type cs) (answer? machine' type cs) ↔
      IsSettled machine machine' type cs := by
  rw [isSettled_iff_of_zoned spelled]
  by_cases reached : InReach f.utcInstant ∧ InReach (f.utcInstant - offset)
  · rw [answer?_of_zoned machine type spelled reached.1 reached.2,
      answer?_of_zoned machine' type spelled reached.1 reached.2, isSame_some_iff]
    cases seen : hasZone cs with
    | true =>
        have kept := keptMoment_some type reached.2
        exact iff_of_true ⟨_, kept, kept⟩ fun _ _ => .inl rfl
    | false =>
        simp only [Bool.false_eq_true, if_false, keptMoment_ofInstant_iff, false_or, reached.1,
          reached.2, forall_const]
        constructor
        · rintro ⟨s, ⟨here, rfl⟩, there, same⟩
          exact ⟨here, there, same.symm⟩
        · exact fun h => ⟨_, ⟨h.reached, rfl⟩, h.reached', h.same.symm⟩
  · rw [answer?_of_not_inReach machine type spelled reached,
      answer?_of_not_inReach machine' type spelled reached]
    exact iff_of_true (.inr ⟨rfl, rfl⟩) fun h h' => absurd ⟨h, h'⟩ reached

/-- **In the UTC calendar two machines answer a text alike if and only if it is settled between
them.** -/
theorem answersAlike_iff (machine machine' : Zone) (fixed : machine.IsFixed)
    (fixed' : machine'.IsFixed) (type : TemporalType) (text : String) :
    AnswersAlike type text ((reader machine).read type .utc text)
        ((reader machine').read type .utc text) ↔
      IsSettled machine machine' type (subjectChars type text) := by
  rw [read_utc, read_utc, answersAlike_orUnreadable_iff]
  cases spelled : parts? (completed (subjectChars type text)) with
  | none =>
      have unread (machine : Zone) : answer? machine type (subjectChars type text) = none := by
        rw [answer?, moment, spelled, Option.bind_none, Option.map_none]
      rw [unread, unread]
      exact iff_of_true (.inr ⟨rfl, rfl⟩) ⟨by simp [spelled], by simp [spelled]⟩
  | some p =>
      obtain ⟨f, zone⟩ := p
      cases zone with
      | none => exact isSame_of_zoneless fixed fixed' spelled
      | some offset => exact isSame_of_zoned spelled

/-- The first day of 2020 is settled, and so is an hour of it with a zone.  With a zone after the
day alone, which is not seen, it is the instant of another day. -/
theorem answersAlike_iff_offset :
    Zone.IsFixed 0 ∧ Zone.IsFixed 5 ∧
      AnswersAlike .date "2020-01-01" ((reader 0).read .date .utc "2020-01-01")
        ((reader 5).read .date .utc "2020-01-01") ∧
      AnswersAlike .timestamp "2020-01-01 10:00:00+05"
        ((reader 0).read .timestamp .utc "2020-01-01 10:00:00+05")
        ((reader 5).read .timestamp .utc "2020-01-01 10:00:00+05") ∧
      ¬ AnswersAlike .timestamp "2020-01-01+05"
        ((reader 0).read .timestamp .utc "2020-01-01+05")
        ((reader 5).read .timestamp .utc "2020-01-01+05") := by
  have fixed : Zone.IsFixed 0 := ⟨by decide, by decide⟩
  have fixed' : Zone.IsFixed 5 := ⟨by decide, by decide⟩
  have alike := answersAlike_iff 0 5 fixed fixed'
  have day : parts? (completed (subjectChars .date "2020-01-01")) =
      some ⟨⟨2020, 0, 1, 0, 0, 0, 0⟩, none⟩ := by decide +kernel
  have zoned : parts? (completed (subjectChars .timestamp "2020-01-01+05")) =
      some ⟨⟨2020, 0, 1, 0, 0, 0, 0⟩, some 18000000⟩ := by decide +kernel
  refine ⟨fixed, fixed', (alike .date "2020-01-01").2 ?_,
    (alike .timestamp "2020-01-01 10:00:00+05").2 ?_, fun same => ?_⟩
  · exact isSettled_of_zoneless fixed fixed' day ⟨by decide, by decide⟩
  · exact isSettled_of_hasZone (by decide +kernel)
  · have settled := (alike .timestamp "2020-01-01+05").1 same
    rcases settled.zoned _ _ zoned ⟨by decide, by decide⟩ ⟨by decide, by decide⟩ with seen | taken
    · exact absurd seen (by decide +kernel)
    · exact absurd taken.same (by decide)

/-- So the first day of 2020 five hours ahead of UTC is one instant in UTC and another on a machine
five hours ahead. -/
theorem not_answersAlike :
    ¬ ∀ (hours hours' : Int), (Zone.ofHours hours).IsFixed → (Zone.ofHours hours').IsFixed →
      ∀ (type : TemporalType) (text : String),
        AnswersAlike type text ((reader hours).read type .utc text)
          ((reader hours').read type .utc text) := by
  intro h
  have here : (reader 0).read .timestamp .utc "2020-01-01+05" = .ok (some 1577818800000) := by
    decide +kernel
  have there : (reader 5).read .timestamp .utc "2020-01-01+05" = .ok (some 1577836800000) := by
    decide +kernel
  rcases h 0 5 ⟨by decide, by decide⟩ ⟨by decide, by decide⟩ .timestamp "2020-01-01+05" with
    ⟨t, first, second⟩ | ⟨refused, -⟩
  · obtain rfl := Option.some.inj (Except.ok.inj (here.symm.trans first))
    exact absurd (there.symm.trans second) (by decide)
  · exact absurd (here.symm.trans refused) nofun

end Temporal

end RowLiteral
