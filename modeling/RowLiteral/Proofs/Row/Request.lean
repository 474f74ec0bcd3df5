import RowLiteral.Proofs.Row.Texts
import RowLiteral.Proofs.Traversal
import RowLiteral.Proofs.Value.Conversion
import RowLiteral.Row.Access

/-!
# Row — answers to a request

A request names a kind for the type of a column.  What it asks of an attribute is either *answered*
(`Row.Answers`) or *refused* (`Row.Refuses`), never both and never neither.  It is answered by the
attribute itself where nothing is asked of it, where it is NULL and where its kind is one that the
target accepts, and otherwise by a value of such a kind that was read from its text.  It is refused
because there is no target of that name, or because the text spells no value of the target.

* `Row.attributesAs_outcomes`: a request on a row gives the answers for all columns, or the refusal
  of the first column that refuses, and has no other error.
-/

namespace RowLiteral
namespace Row

/-- How a request is answered for an attribute in a column. -/
inductive Answers (s : Session) (calendar : Calendar) (request : Table String String) (c : Column) :
    Attribute → Attribute → Prop where
  | null : Answers s calendar request c none none
  | unasked {v : Value} (unasked : request.get? c.typeName = none) :
      Answers s calendar request c (some v) (some v)
  /-- A value of a kind that the target accepts is not converted at all. -/
  | kept {v : Value} {kind : String} {target : Target} (asked : request.get? c.typeName = some kind)
      (known : Target.ofName? kind = some target) (accepted : target.accepts v.kind = true)
      (kept : convertValue? s calendar kind v = .ok none) :
      Answers s calendar request c (some v) (some v)
  | converted {v v' : Value} {kind : String} {target : Target}
      (asked : request.get? c.typeName = some kind) (known : Target.ofName? kind = some target)
      (other : target.accepts v.kind = false)
      (read : convertText s.reader calendar kind (conversionText s.machine calendar v) = .ok v')
      (accepted : target.accepts v'.kind = true) : Answers s calendar request c (some v) (some v')

/-- How a request is refused for an attribute in a column. -/
inductive Refuses (s : Session) (calendar : Calendar) (request : Table String String) (c : Column) :
    Attribute → CodecError → Prop where
  | unsupported {v : Value} {kind : String} (asked : request.get? c.typeName = some kind)
      (unknown : Target.ofName? kind = none) :
      Refuses s calendar request c (some v) (.unsupportedConversion kind)
  | invalid {v : Value} {kind : String} {target : Target}
      (asked : request.get? c.typeName = some kind) (known : Target.ofName? kind = some target)
      (other : target.accepts v.kind = false)
      (unread : ∀ v', convertText s.reader calendar kind (conversionText s.machine calendar v) ≠
        .ok v') :
      Refuses s calendar request c (some v)
        (.invalidValue kind (conversionText s.machine calendar v))

/-! ### One attribute -/

variable {s : Session} {calendar : Calendar} {request : Table String String} {c : Column}
  {a : Attribute} {v : Value} {kind : String} {target : Target}

theorem convertAttribute_of_unasked (unasked : request.get? c.typeName = none) :
    convertAttribute s calendar request c (some v) = .ok (some v) := by
  rw [convertAttribute, unasked]

theorem convertAttribute_of_asked (asked : request.get? c.typeName = some kind) :
    convertAttribute s calendar request c (some v) =
      (convertValue? s calendar kind v).map fun v' => some (v'.getD v) := by
  rw [convertAttribute, asked]

theorem convertValue?_of_unknown (unknown : Target.ofName? kind = none) :
    convertValue? s calendar kind v = .error (.unsupportedConversion kind) := by
  rw [convertValue?, unknown]

theorem convertValue?_of_accepted (known : Target.ofName? kind = some target)
    (accepted : target.accepts v.kind = true) : convertValue? s calendar kind v = .ok none := by
  rw [convertValue?, known]
  exact if_pos accepted

theorem convertValue?_of_other (known : Target.ofName? kind = some target)
    (other : target.accepts v.kind = false) : convertValue? s calendar kind v =
      (convertText s.reader calendar kind (conversionText s.machine calendar v)).map some := by
  rw [convertValue?, known, convertText_of_target calendar known]
  exact if_neg (Bool.eq_false_iff.1 other)

theorem Answers.eq_ok {b : Attribute} (h : Answers s calendar request c a b) :
    convertAttribute s calendar request c a = .ok b := by
  cases h with
  | null => rfl
  | unasked unasked => exact convertAttribute_of_unasked unasked
  | kept asked _ _ kept =>
      rw [convertAttribute_of_asked asked, kept]
      rfl
  | converted asked known other read =>
      rw [convertAttribute_of_asked asked, convertValue?_of_other known other, read]
      rfl

theorem Refuses.eq_error (native : s.reader = Temporal.reader s.machine) {e : CodecError}
    (h : Refuses s calendar request c a e) :
    convertAttribute s calendar request c a = .error e := by
  cases h with
  | unsupported asked unknown =>
      rw [convertAttribute_of_asked asked, convertValue?_of_unknown unknown]
      rfl
  | invalid asked known other unread =>
      rw [native] at unread
      rw [convertAttribute_of_asked asked, convertValue?_of_other known other, native]
      rcases convertText_cases s.machine calendar known _ with ⟨v', read, -⟩ | invalid
      · exact absurd read (unread v')
      · rw [invalid]
        rfl

/-- An attribute is answered or refused. -/
theorem answers_or_refuses (native : s.reader = Temporal.reader s.machine) (calendar : Calendar)
    (request : Table String String) (c : Column) (a : Attribute) :
    (∃ b, Answers s calendar request c a b) ∨ ∃ e, Refuses s calendar request c a e := by
  cases a with
  | none => exact .inl ⟨none, .null⟩
  | some v =>
      cases asked : request.get? c.typeName with
      | none => exact .inl ⟨some v, .unasked asked⟩
      | some kind =>
          cases known : Target.ofName? kind with
          | none => exact .inr ⟨_, .unsupported asked known⟩
          | some target =>
              cases matched : target.accepts v.kind with
              | true =>
                  exact .inl ⟨some v, .kept asked known matched
                    (convertValue?_of_accepted known matched)⟩
              | false =>
                  -- the text decides
                  rcases convertText_cases s.machine calendar known
                    (conversionText s.machine calendar v) with ⟨v', read, accepted⟩ | invalid
                  · rw [← native] at read
                    exact .inl ⟨some v', .converted asked known matched read accepted⟩
                  · rw [← native] at invalid
                    exact .inr ⟨_, .invalid asked known matched fun v' read =>
                      nomatch invalid.symm.trans read⟩

theorem convertAttribute_eq_ok_iff (native : s.reader = Temporal.reader s.machine)
    {b : Attribute} : convertAttribute s calendar request c a = .ok b ↔
      Answers s calendar request c a b := by
  refine ⟨fun h => ?_, Answers.eq_ok⟩
  rcases answers_or_refuses native calendar request c a with ⟨b', answered⟩ | ⟨e, refused⟩
  · obtain rfl := Except.ok.inj (answered.eq_ok.symm.trans h)
    exact answered
  · exact nomatch (refused.eq_error native).symm.trans h

theorem convertAttribute_eq_error_iff (native : s.reader = Temporal.reader s.machine)
    {e : CodecError} : convertAttribute s calendar request c a = .error e ↔
      Refuses s calendar request c a e := by
  refine ⟨fun h => ?_, Refuses.eq_error native⟩
  rcases answers_or_refuses native calendar request c a with ⟨b, answered⟩ | ⟨e', refused⟩
  · exact nomatch answered.eq_ok.symm.trans h
  · obtain rfl := Except.error.inj ((refused.eq_error native).symm.trans h)
    exact refused

/-- Where nothing is refused there is an answer. -/
theorem exists_convertAttribute_iff (native : s.reader = Temporal.reader s.machine) :
    (∃ b, convertAttribute s calendar request c a = .ok b) ↔
      ∀ e, ¬ Refuses s calendar request c a e := by
  constructor
  · rintro ⟨b, h⟩ e refused
    exact nomatch (refused.eq_error native).symm.trans h
  · intro h
    obtain ⟨b, answered⟩ := (answers_or_refuses native calendar request c a).resolve_right
      fun ⟨e, refused⟩ => h e refused
    exact ⟨b, answered.eq_ok⟩

/-! ### Rows -/

/-- **What a request gives.**  It gives attributes if and only if these are the answers for the
attributes of the row, one for each column.  It fails if and only if it is refused for some
attribute, and the error is the refusal of the first for which it is. -/
theorem attributesAs_outcomes (s : Session) (r : Row) (request : Table String String)
    (native : s.reader = Temporal.reader s.machine)
    (whole : r.attributes.length = r.type.columns.length) :
    (∀ as, r.attributesAs s request = .ok as ↔
      as.length = r.type.columns.length ∧
        List.Forall₂ (fun x b => Answers s r.header.calendar request x.1 x.2 b)
          (r.type.columns.zip r.attributes) as) ∧
    ((∃ e, r.attributesAs s request = .error e) ↔
      ∃ x ∈ r.type.columns.zip r.attributes, ∃ e,
        Refuses s r.header.calendar request x.1 x.2 e) ∧
    ∀ e, r.attributesAs s request = .error e ↔
      ∃ before x after, r.type.columns.zip r.attributes = before ++ x :: after ∧
        (∀ x' ∈ before, ∀ e', ¬ Refuses s r.header.calendar request x'.1 x'.2 e') ∧
        Refuses s r.header.calendar request x.1 x.2 e := by
  have answers : ∀ as, r.attributesAs s request = .ok as ↔
      List.Forall₂ (fun x b => Answers s r.header.calendar request x.1 x.2 b)
        (r.type.columns.zip r.attributes) as := fun as => by
    simp only [attributesAs, mapM_eq_ok_iff, convertAttribute_eq_ok_iff native]
  refine ⟨fun as => ⟨fun h => ⟨?_, (answers as).1 h⟩, fun h => (answers as).2 h.2⟩, ?_, fun e => ?_⟩
  · rw [← ((answers as).1 h).length_eq, List.length_zip, whole, Nat.min_self]
  · simp only [attributesAs, exists_mapM_eq_error_iff, convertAttribute_eq_error_iff native]
  · simp only [attributesAs, mapM_eq_error_iff, exists_convertAttribute_iff native,
      convertAttribute_eq_error_iff native]

/-- A row type of two texts and a column of another type. -/
def readingType : RowType :=
  ⟨"reading", [⟨"count", "text", ColumnType.text.id⟩, ⟨"note", "text", ColumnType.text.id⟩,
    ⟨"place", "varchar", ColumnType.varchar.id⟩]⟩

/-- A row of that type. -/
def reading : Row := ⟨Session.utc.header readingType, [some (.text "42"), none, some (.text "x")]⟩

theorem attributesAs_outcomes_reading :
    reading.attributesAs .utc [("text", "integer")] =
        .ok [some (.scalar (.ofInt4 42)), none, some (.text "x")] ∧
      reading.attributesAs .utc [("text", "boolean"), ("varchar", "money")] =
        .error (.invalidValue "boolean" "42") := by
  constructor
  · obtain ⟨answered, -, -⟩ := attributesAs_outcomes .utc reading [("text", "integer")] rfl rfl
    have read : convertText (Temporal.reader 0) .utc "integer" "42" =
        .ok (.scalar (.ofInt4 42)) := by rfl
    exact (answered _).2 ⟨rfl, .cons (.converted rfl rfl rfl read rfl)
      (.cons .null (.cons (.unasked rfl) .nil))⟩
  · obtain ⟨-, -, refused⟩ :=
      attributesAs_outcomes .utc reading [("text", "boolean"), ("varchar", "money")] rfl rfl
    have known : Target.ofName? "boolean" = some .boolean := rfl
    have unread : convertText (Temporal.reader 0) .utc "boolean" "42" =
        .error (.invalidValue "boolean" "42") := by rfl
    exact (refused _).2 ⟨[], _, _, rfl, nofun,
      .invalid rfl known rfl fun v' read => nomatch unread.symm.trans read⟩

end Row
end RowLiteral
