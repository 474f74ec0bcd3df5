import RowLiteral.Conversion

/-!
# Value — conversion reads or refuses

Reading a text as a value of a target has two outcomes.  Either the text spells a value, which is of
a kind that the target accepts, or it is refused as an invalid value under the name of the target
(`convert_cases`).  The readers of numbers and truth values fail in no other way, and neither does
the reader of timestamps.

* `convertText_cases`: the same for the name of a target.
-/

namespace RowLiteral

/-- The reader of timestamps reads a text or finds it unreadable. -/
theorem Temporal.readTimestamp_cases (machine : Zone) (calendar : Calendar) (text : String) :
    (∃ m, readTimestamp machine calendar text = .ok m) ∨
      readTimestamp machine calendar text = .error (.unreadable .timestamp text) := by
  rw [readTimestamp]
  cases read? machine calendar text with
  | none => exact .inr rfl
  | some m => exact .inl ⟨m, rfl⟩

namespace Target

theorem name_of_ofName? {kind : String} {target : Target} (h : ofName? kind = some target) :
    target.name = kind := of_decide_eq_true (List.find?_some h :)

/-- A text spells values of the target only. -/
theorem accepts_of_ofText? {target : Target} {text : String} {v : Scalar}
    (h : target.ofText? text = some v) : target.accepts v.kind = true := by
  cases target with
  | string =>
      obtain rfl := Option.some.inj h
      rfl
  | timestamp => cases h
  | integer | long | double | decimal | boolean =>
      rw [ofText?] at h
      obtain ⟨_, _, rfl⟩ := Option.map_eq_some_iff.1 h
      rfl

end Target

/-- A target that is not temporal reads a text as what it spells. -/
theorem convert_of_ne_timestamp {target : Target} (h : target ≠ .timestamp)
    (reader : TemporalReader) (calendar : Calendar) (text : String) :
    convert reader calendar target text =
      match target.ofText? text with
      | some v => .ok (.scalar v)
      | none => .error (.invalidValue target.name text) := by
  unfold convert
  split
  · exact absurd rfl h
  · rfl

variable (machine : Zone) (calendar : Calendar)

/-- A text is read as a value that the target accepts, or it is invalid. -/
theorem convert_cases (target : Target) (text : String) :
    (∃ v, convert (Temporal.reader machine) calendar target text = .ok v ∧
        target.accepts v.kind = true) ∨
      convert (Temporal.reader machine) calendar target text =
        .error (.invalidValue target.name text) := by
  by_cases h : target = .timestamp
  · subst h
    rw [convert, Temporal.reader]
    rcases Temporal.readTimestamp_cases machine calendar text with ⟨m, read⟩ | unread
    · exact .inl ⟨.scalar (.temporal .timestamp m), by simp only [read], rfl⟩
    · exact .inr (by simp only [unread])
  · rw [convert_of_ne_timestamp h]
    cases spelled : target.ofText? text with
    | some v => exact .inl ⟨.scalar v, rfl, Target.accepts_of_ofText? spelled⟩
    | none => exact .inr rfl

theorem convertText_of_target {kind : String} {target : Target}
    (known : Target.ofName? kind = some target) (reader : TemporalReader) (text : String) :
    convertText reader calendar kind text = convert reader calendar target text := by
  rw [convertText, known]

/-- **A text is read as a value of the kind asked for, or it is an invalid value of that kind.** -/
theorem convertText_cases {kind : String} {target : Target}
    (known : Target.ofName? kind = some target) (text : String) :
    (∃ v, convertText (Temporal.reader machine) calendar kind text = .ok v ∧
        target.accepts v.kind = true) ∨
      convertText (Temporal.reader machine) calendar kind text =
        .error (.invalidValue kind text) := by
  rw [convertText_of_target calendar known, ← Target.name_of_ofName? known]
  exact convert_cases machine calendar target text

end RowLiteral
