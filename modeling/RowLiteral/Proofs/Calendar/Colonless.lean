import RowLiteral.Proofs.Calendar.Machines

/-!
# Calendar — texts without a colon as times

A time is read on the first of January 1970: its text is put after that date.  Without a colon it
spells no time of day, and the reader refuses it (`Temporal.parts?_of_not_mem`).  There are two
exceptions, in which a date alone is left, which is completed by its midnight: nothing but margins
is a text of 1970, and the era alone takes the date to the year 1970 before Christ.

* `Temporal.readTime_of_not_mem`: what is read of any text without a colon.
-/

namespace RowLiteral
open Number Text Timestamp

variable {cs : List Char} {machine : Zone} {text : String}

/-- The midnight that starts a year. -/
def Fields.newYear (year : Int) : Fields := ⟨year, 0, 1, 0, 0, 0, 0⟩

namespace Temporal

/-! ### The text that is read for a time -/

/-- A blank text is read as a date alone. -/
theorem subjectChars_time_of_nil (blank : trimChars text.toList = []) :
    subjectChars .time text = "1970-01-01".toList := by
  have alone : subject .time text = "1970-01-01 " ++ String.ofList [] := by
    rw [subject, trim, blank]
  rw [subjectChars, alone]
  decide

/-- Any other text is read after that date. -/
theorem subjectChars_time (filled : trimChars text.toList ≠ []) :
    subjectChars .time text = "1970-01-01".toList ++ ' ' :: trimChars text.toList := by
  have whole : (subject .time text).toList =
      "1970-01-01".toList ++ ' ' :: trimChars text.toList := by
    rw [subject, trim, String.toList_append, String.toList_ofList]
    simp
  rw [subjectChars, whole]
  refine trimChars_eq_self (fun c hc => ?_) fun c hc => ?_
  · obtain rfl : '1' = c := Option.some.inj hc
    rfl
  · rw [List.getLast?_append_cons, List.getLast?_cons_of_ne_nil filled] at hc
    exact isMargin_getLast?_trimChars _ c hc

theorem readTime_eq (machine : Zone) (calendar : Calendar) (text : String) :
    readTime machine calendar text =
      orUnreadable .time text (read? machine calendar (subject .time text)) := by
  rw [readTime, subject]

theorem firstDay_append (rest : List Char) : "1970-01-01".toList ++ rest =
    "1970".toList ++ '-' :: ("01".toList ++ '-' :: ("01".toList ++ rest)) := by simp

/-- The date of a time is read first. -/
theorem readDate?_firstDay (rest : List Char) :
    readDate? ("1970-01-01".toList ++ rest) = some (⟨1970, 0, 1⟩, rest) := by
  have year : ∀ c ∈ "1970".toList, c.isDigit = true := by simp
  have pair : IsPair "01".toList := ⟨rfl, by simp⟩
  have date := readDate?_append (by decide) year pair pair rest
  rwa [← firstDay_append] at date

/-- It is alone where nothing or the era follows. -/
theorem dateOnly?_firstDay (rest : List Char) :
    dateOnly? ("1970-01-01".toList ++ rest) =
      if rest = [] || isEraEnd rest then some ("1970-01-01".toList, rest) else none := by
  have year : ∀ c ∈ "1970".toList, c.isDigit = true := by simp
  have pair : IsPair "01".toList := ⟨rfl, by simp⟩
  have alone := dateOnly?_append (by decide) year pair pair rest
  rwa [← firstDay_append] at alone

/-- Whatever follows it, that date stands first. -/
theorem exists_completed_time (text : String) :
    ∃ rest, completed (subjectChars .time text) = "1970-01-01".toList ++ rest := by
  obtain ⟨rest, whole⟩ : ∃ rest, subjectChars .time text = "1970-01-01".toList ++ rest := by
    by_cases blank : trimChars text.toList = []
    · exact ⟨[], by rw [subjectChars_time_of_nil blank, List.append_nil]⟩
    · exact ⟨_, subjectChars_time blank⟩
  rw [whole, completed, dateOnly?_firstDay]
  split
  · next date era alone =>
    split at alone
    · obtain ⟨rfl, rfl⟩ := Prod.mk.inj (Option.some.inj alone)
      exact ⟨_, List.append_assoc ..⟩
    · cases alone
  · exact ⟨rest, rfl⟩

/-! ### Without a colon -/

/-- Without a colon no time of day is read: what comes after the date is left, or refused. -/
theorem readTime?_of_not_mem (plain : ':' ∉ cs) :
    readTime? (' ' :: cs) = none ∨ readTime? (' ' :: cs) = some (⟨0, 0, 0, 0⟩, ' ' :: cs) := by
  rw [readTime?]
  split
  · exact .inr rfl
  · have left : LeftAfter (fun _ => True) cs (readPair cs).2 :=
      leftAfter_readPair (fun _ _ => trivial) cs
    obtain ⟨first, split, -⟩ := left
    have refused : expect? ':' (readPair cs).2 = none := by
      refine Option.eq_none_iff_forall_ne_some.2 fun rest there => plain ?_
      rw [split, eq_cons_of_expect? there]
      exact List.mem_append_right _ List.mem_cons_self
    simp only [List.tail_cons, refused, Option.bind_eq_bind, Option.bind_none, true_or]

/-- **What has no colon is no time of day:** after a date, it is not read at all. -/
theorem parts?_of_not_mem (plain : ':' ∉ cs) (first : ∀ c ∈ cs.head?, isMargin c = false)
    (other : cs ≠ ['B', 'C']) :
    parts? (completed ("1970-01-01".toList ++ ' ' :: cs)) = none := by
  have notAlone := dateOnly?_firstDay (' ' :: cs)
  rw [if_neg (by simp [isEraEnd_space first other])] at notAlone
  rw [completed, notAlone, parts?, readDate?_firstDay]
  rcases readTime?_of_not_mem plain with refused | left
  · simp only [refused, Option.bind_eq_bind, Option.bind_some, Option.bind_none]
  · have zoneless : readZone (' ' :: cs) = (none, ' ' :: cs) := if_neg (by simp)
    simp only [left, zoneless, Option.bind_eq_bind, Option.bind_some]
    simp [other]

/-! ### The midnights -/

/-- The year in which a text without a colon is taken for a midnight: with nothing but margins it is
that of the date, and with the era alone it is before Christ. -/
def midnightYear? (text : String) : Option Int :=
  if trim text = "" then some 1970 else if trim text = "BC" then some (-1969) else none

/-- The midnight of a year a day or more from the bounds is read in all calendars. -/
theorem readTime_of_newYear (fixed : machine.IsFixed) (calendar : Calendar) {year : Int}
    (long : ¬ (-99 ≤ year ∧ year ≤ 99))
    (spelled : parts? (completed (subjectChars .time text)) = some ⟨.newYear year, none⟩)
    (within : -reach + dayMillis ≤ (Fields.newYear year).instant 0 ∧
      (Fields.newYear year).instant 0 ≤ reach - dayMillis) :
    readTime machine calendar text =
      .ok (some ((Fields.newYear year).instant (calendar.zone machine))) := by
  have utc : (Fields.newYear year).utcInstant - machine.offset =
      (Fields.newYear year).instant machine := by
    rw [Fields.utcInstant_of_long long, Fields.instant_eq_utc machine]
  have reached (zone : Zone) (fixed : zone.IsFixed) :
      InReach ((Fields.newYear year).instant zone) := by
    rw [Zone.IsFixed, dayMillis] at fixed
    rw [dayMillis] at within
    rw [Fields.instant_eq_utc, InReach]
    omega
  have moment : moment machine (completed (subjectChars .time text)) =
      some ((Fields.newYear year).instant machine) := by
    rw [moment_of_zoneless fixed spelled, utc, Moment.ofInstant_of_inReach (reached _ fixed)]
  have onCalendar := reached _ (fixed.zone calendar)
  rw [← instant_zone] at onCalendar
  have trimmed : trimChars (subject .time text).toList = subjectChars .time text := rfl
  have read := read?_of_some trimmed (hasZone_of_zoneless spelled rfl) moment onCalendar
  rw [readTime_eq, read, instant_zone]
  rfl

/-- **What is read of a text without a colon:** a midnight, if it is blank or the era alone, and
otherwise nothing. -/
theorem readTime_of_not_mem (fixed : machine.IsFixed) (calendar : Calendar)
    (plain : ':' ∉ text.toList) : readTime machine calendar text =
      (midnightYear? text).elim (.error (.unreadable .time text)) fun year =>
        .ok (some ((Fields.newYear year).instant (calendar.zone machine))) := by
  rw [midnightYear?]
  split
  · next blank =>
    have alone := subjectChars_time_of_nil (String.ofList_injective blank)
    refine readTime_of_newYear fixed calendar (by decide) ?_ (by decide)
    rw [alone]
    decide
  · next filled =>
    have nonempty : trimChars text.toList ≠ [] := fun none => filled (congrArg String.ofList none)
    have alone := subjectChars_time nonempty
    split
    · next era =>
      rw [String.ofList_injective era] at alone
      refine readTime_of_newYear fixed calendar (by decide) ?_ (by decide)
      rw [alone]
      decide
    · next other =>
      have unread := parts?_of_not_mem (fun colon => plain (trimChars_subset _ colon))
        (isMargin_head?_trimChars _) fun era => other (congrArg String.ofList era)
      have lost : moment machine (completed (subjectChars .time text)) = none := by
        rw [alone, moment, unread, Option.bind_none]
      rw [readTime_eq, read?_of_none rfl lost]
      rfl

end Temporal

end RowLiteral
