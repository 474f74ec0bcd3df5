import RowLiteral.Proofs.Calendar.Colonless
import RowLiteral.Proofs.Row.Local
import RowLiteral.Proofs.Row.Machines

/-!
# Row — texts without a colon in columns of times

A value in a column of times is read by its text, unless it is a time already, and a value without a
text by the empty one.  Every time is written with colons (`Value.mem_shownText_of_kind`), so where
the text has none, the value is read.  It is kept, but for two texts: the blank one, which values
without a text share, and the era alone become midnights.

* `Session.times_of_not_mem`: what is read of a text without a colon, and what stands in a column of
  times for a value whose text has none.
-/

namespace RowLiteral
open Text

variable {machine : Zone} {calendar : Calendar} {c : Column} {v : Value}

/-- A column of times, with a zone or without. -/
def Column.IsOfTimes (c : Column) : Prop :=
  c.typeId = ColumnType.time.id ∨ c.typeId = ColumnType.timetz.id

theorem Column.IsOfTimes.temporal? (h : c.IsOfTimes) : c.temporal? = some .time := by
  rcases h with time | timetz
  · exact Column.temporal?_of_typeId time
  · exact Column.temporal?_of_typeId timetz

/-- The text that is read for a value; it is empty for a value without one. -/
def Value.shownText (machine : Zone) (calendar : Calendar) (v : Value) : String :=
  (v.text? machine calendar).getD ""

/-- Every time is written with a colon. -/
theorem Value.mem_shownText_of_kind (time : v.kind = .temporal .time) :
    ':' ∈ (v.shownText machine calendar).toList := by
  cases v with
  | row h attributes => cases time
  | scalar s =>
      cases s with
      | temporal type m =>
          obtain rfl : type = .time := Kind.temporal.inj time
          simp only [shownText, text?, Scalar.text?, Option.getD_some]
          cases m with
          | none =>
              rw [Temporal.format_none .time _ 0]
              decide
          | some t => simp [Temporal.format, Temporal.toList_formatTime, timeChars]
      | _ => cases time

namespace Session

/-- What stands in a column of times for a value that is none: what is read of its text, or the
value itself. -/
theorem value_resolve_time (s : Session) (machine : Zone) (times : c.IsOfTimes)
    (other : v.kind ≠ .temporal .time) :
    ((s.onMachine machine).resolve c (some v)).value =
      match Temporal.readTime machine s.calendar (v.shownText machine s.calendar) with
      | .ok m => some (.scalar (.temporal .time m))
      | .error _ => some v := by
  have read : (s.onMachine machine).reader.read .time (s.onMachine machine).calendar
      ((v.text? (s.onMachine machine).machine (s.onMachine machine).calendar).getD "") =
      Temporal.readTime machine s.calendar (v.shownText machine s.calendar) := by
    simp only [onMachine, TemporalReaderOf.read, Temporal.reader, Value.shownText]
  simp only [resolve, resolve?, times.temporal?, readTemporal?, if_neg other, read, Logged.map]
  cases Temporal.readTime machine s.calendar (v.shownText machine s.calendar) with
  | ok m => rfl
  | error why => rfl

/-- **A text without a colon is no time, but for two.**  On every machine and in every calendar it
is refused, unless it is blank or the era alone, which are read as midnights
(`Temporal.midnightYear?`).  So a value with such a text, or with no text, stays as it is in a
column of times, which it is not a value of; a blank text, or none, and the era alone become
midnights there. -/
theorem times_of_not_mem (machine : Zone) (fixed : machine.IsFixed) :
    (∀ (calendar : Calendar) (text : String), ':' ∉ text.toList →
      Temporal.readTime machine calendar text =
        (Temporal.midnightYear? text).elim (.error (.unreadable .time text)) fun year =>
          .ok (some ((Fields.newYear year).instant (calendar.zone machine)))) ∧
    ∀ (s : Session) (type : RowType) (raw : List Attribute) (i : Nat) (c : Column) (v : Value),
      type.columns[i]? = some c → c.IsOfTimes → raw[i]? = some (some v) →
      ':' ∉ (v.shownText machine s.calendar).toList →
      v.kind ≠ .temporal .time ∧
        ((s.onMachine machine).materialize type raw).value.attributes[i]? =
          some (some ((Temporal.midnightYear? (v.shownText machine s.calendar)).elim v fun year =>
            .scalar (.temporal .time
              (some ((Fields.newYear year).instant (s.calendar.zone machine)))))) := by
  refine ⟨fun calendar text plain => Temporal.readTime_of_not_mem fixed calendar plain, ?_⟩
  intro s type raw i c v column times place plain
  have other : v.kind ≠ .temporal .time := fun time => plain (Value.mem_shownText_of_kind time)
  have read := Temporal.readTime_of_not_mem fixed s.calendar plain
  refine ⟨other, ?_⟩
  rw [getElem?_attributes, column, Option.map_some, place, Option.join_some,
    value_resolve_time s machine times other, read]
  cases Temporal.midnightYear? (v.shownText machine s.calendar) with
  | none => rfl
  | some year => rfl

end Session

/-- The times at which a shift starts and ends. -/
def RowType.shift : RowType :=
  ⟨"shift", [⟨"start", "time", ColumnType.time.id⟩, ⟨"end", "timetz", ColumnType.timetz.id⟩]⟩

/-- A shift from noon to nothing: the first is refused and kept, and the second is the midnight of
1970. -/
theorem Session.times_of_not_mem_shift :
    Zone.IsFixed 5 ∧
      Temporal.readTime 5 .utc "noon" = .error (.unreadable .time "noon") ∧
      ((Session.utc.onMachine 5).materialize .shift
        [some (.text "noon"), some (.text "")]).value.attributes[0]? = some (some (.text "noon")) ∧
      ((Session.utc.onMachine 5).materialize .shift
        [some (.text "noon"), some (.text "")]).value.attributes[1]? =
          some (some (.scalar (.temporal .time (some 0)))) := by
  have fixed : Zone.IsFixed 5 := ⟨by decide, by decide⟩
  obtain ⟨read, stands⟩ := Session.times_of_not_mem 5 fixed
  refine ⟨fixed, read .utc "noon" (by decide), ?_, ?_⟩
  · exact (stands .utc .shift [some (.text "noon"), some (.text "")] 0 _ (.text "noon") rfl
      (.inl rfl) rfl (by decide)).2
  · exact (stands .utc .shift [some (.text "noon"), some (.text "")] 1 _ (.text "") rfl
      (.inr rfl) rfl (by decide)).2

/-- The empty text is read as a midnight. -/
theorem Session.not_times_of_not_mem :
    ¬ ∀ (machine : Zone) (calendar : Calendar) (text : String), machine.IsFixed →
      ':' ∉ text.toList →
      Temporal.readTime machine calendar text = .error (.unreadable .time text) := by
  intro h
  have refused := h 0 .utc "" ⟨by decide, by decide⟩ (by decide)
  have read : Temporal.readTime 0 .utc "" = .ok (some 0) := by decide +kernel
  exact absurd (read.symm.trans refused) nofun

end RowLiteral
