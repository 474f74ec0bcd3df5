import RowLiteral.Proofs.Calendar.Zones
import RowLiteral.Proofs.Row.Materialize
import RowLiteral.Proofs.Row.Texts
import RowLiteral.Proofs.Traversal

/-!
# Row — one session on two machines

The calendar of a session decides in which zone its rows show moments, so a session in UTC should
write the same literal on every machine.  Rendering does so: the token of an attribute depends on
the machine only through the calendars of the row and of the rows in it (`outgoing?_machine`).
Coercion does so for all but one pair of a column and a value.  A moment in a column of text is
written in the zone of the machine, whatever the calendar of the session (`IsTextOfMoment`), and
every moment is written differently in some two zones.

* `Session.render_machine_iff`: the literal of a row without temporal columns is the same on all
  machines if and only if none of its raw attributes is such a moment.
-/

namespace RowLiteral
open Text Literal

/-- The session as it is on a machine in a zone. -/
def Session.onMachine (s : Session) (machine : Zone) : Session :=
  ⟨s.encoding, s.calendar, Temporal.reader machine, machine⟩

/-- All rows in an attribute, at any depth, have one calendar. -/
inductive HasCalendar (calendar : Calendar) : Attribute → Prop
  | null : HasCalendar calendar none
  | scalar (s : Scalar) : HasCalendar calendar (some (.scalar s))
  | row (h : RowHeader) (attributes : List Attribute) (same : h.calendar = calendar)
      (parts : ∀ a ∈ attributes, HasCalendar calendar a) :
      HasCalendar calendar (some (.row h attributes))

variable {a : Attribute} {v : Value} {h : RowHeader} {z₁ z₂ : Zone}

/-! ### Rendering -/

theorem Scalar.outgoing?_machine (utc : h.calendar = .utc) (c : Column) (s : Scalar) :
    s.outgoing? z₁ h c = s.outgoing? z₂ h c := by
  have zones : h.calendar.zone z₁ = h.calendar.zone z₂ := by
    rw [utc]
    rfl
  have texts : s.columnText? z₁ h c = s.columnText? z₂ h c := by
    cases s <;> simp only [Scalar.columnText?, zones]
  rw [Scalar.outgoing?, texts, Scalar.outgoing?]

theorem outgoingTokens_congr : ∀ {cs : List Column} {as : List Attribute},
    (∀ a ∈ as, ∀ c, outgoing? z₁ h c a = outgoing? z₂ h c a) →
      outgoingTokens z₁ h cs as = outgoingTokens z₂ h cs as
  | [], _, _ | _ :: _, [], _ => by rw [outgoingTokens, outgoingTokens] <;> simp
  | c :: cs, a :: as, same => by
      rw [outgoingTokens, outgoingTokens, same a List.mem_cons_self,
        outgoingTokens_congr fun b hb => same b (List.mem_cons_of_mem _ hb)]

/-- The token of an attribute of a row in UTC does not depend on the machine. -/
theorem outgoing?_machine (ofUtc : HasCalendar .utc a) (utc : h.calendar = .utc) (c : Column) :
    outgoing? z₁ h c a = outgoing? z₂ h c a := by
  induction ofUtc generalizing h c with
  | null => rw [outgoing?, outgoing?]
  | scalar s => rw [outgoing?, outgoing?, Scalar.outgoing?_machine utc]
  | row h' attributes same parts ih =>
      rw [outgoing?, outgoing?, outgoingTokens_congr fun a ha => ih a ha same]

theorem Row.render_machine {r : Row} (utc : r.header.calendar = .utc)
    (ofUtc : ∀ a ∈ r.attributes, HasCalendar .utc a) : r.render z₁ = r.render z₂ := by
  rw [Row.render, Row.render, Row.tokens, Row.tokens,
    outgoingTokens_congr fun a ha => outgoing?_machine (ofUtc a ha) utc]

/-! ### Coercion -/

/-- A moment for a column of text, which is written in the zone of the machine. -/
def IsTextOfMoment (c : Column) (a : Attribute) : Prop :=
  c.typeId = ColumnType.text.id ∧
    ∃ (type : TemporalType) (t : Int), a = some (.scalar (.temporal type (some t)))

/-- The text of a value that is no moment does not depend on the machine. -/
theorem Value.text?_machine (ofUtc : HasCalendar .utc (some v))
    (other : ∀ type t, v ≠ .scalar (.temporal type (some t))) :
    v.text? z₁ .machine = v.text? z₂ .machine := by
  cases ofUtc with
  | scalar s =>
      cases s with
      | temporal type m =>
          cases m with
          | none => exact congrArg some (Temporal.format_none type z₁ z₂)
          | some t => exact absurd rfl (other type t)
      | _ => rfl
  | row h attributes same parts => exact congrArg some (Row.render_machine same parts)

theorem Value.reshape_machine (ofUtc : HasCalendar .utc (some v)) {type : ColumnType}
    (other : type = .text → ∀ k t, v ≠ .scalar (.temporal k (some t))) :
    v.reshape z₁ type = v.reshape z₂ type := by
  by_cases text : type = .text
  · subst text
    have texts : v.text? z₁ .machine = v.text? z₂ .machine :=
      Value.text?_machine ofUtc (other rfl)
    have same : v.reshapeText z₁ = v.reshapeText z₂ := by
      rw [reshapeText.eq_def, reshapeText.eq_def]
      split
      · rfl
      · rfl
      · rw [texts]
    rw [reshape, reshape, same]
  · rw [reshape.eq_def, reshape.eq_def]
    split
    · exact absurd rfl text
    · rfl
    · rfl

theorem Value.coerce_machine (ofUtc : HasCalendar .utc (some v)) {c : Column}
    (other : ¬ IsTextOfMoment c (some v)) : v.coerce z₁ c.typeId = v.coerce z₂ c.typeId := by
  cases known : ColumnType.ofId? c.typeId with
  | none => rw [Value.coerce_of_unknown known, Value.coerce_of_unknown known]
  | some type =>
      have id := ColumnType.ofId?_eq_some_iff.1 known
      have shapes : v.reshape z₁ type = v.reshape z₂ type := by
        refine Value.reshape_machine ofUtc ?_
        rintro rfl k t rfl
        exact other ⟨id, k, t, rfl⟩
      rw [id, Value.coerce_of_typeId, Value.coerce_of_typeId, shapes]

/-- A new shape is a scalar. -/
theorem Value.exists_scalar_of_reshape {machine : Zone} {type : ColumnType} {w : Value}
    (shape : v.reshape machine type = .ok (some w)) : ∃ x, w = .scalar x := by
  rw [reshape.eq_def] at shape
  split at shape
  · obtain ⟨x, -, rfl⟩ := Option.map_eq_some_iff.1 (Except.ok.inj shape)
    exact ⟨x, rfl⟩
  · obtain ⟨y, -, shape⟩ := map_eq_ok_iff.1 shape
    obtain ⟨x, -, rfl⟩ := Option.map_eq_some_iff.1 shape
    exact ⟨x, rfl⟩
  · exact absurd shape nofun

theorem Value.hasCalendar_coerce {calendar : Calendar} (machine : Zone)
    (ofCalendar : HasCalendar calendar (some v)) (t : TypeId) :
    HasCalendar calendar (some (v.coerce machine t)) := by
  cases known : ColumnType.ofId? t with
  | none => rwa [Value.coerce_of_unknown known]
  | some type =>
      rw [ColumnType.ofId?_eq_some_iff.1 known, Value.coerce_of_typeId]
      cases shape : v.reshape machine type with
      | error => exact ofCalendar
      | ok w =>
          cases w with
          | none => exact ofCalendar
          | some w =>
              obtain ⟨x, rfl⟩ := Value.exists_scalar_of_reshape shape
              exact .scalar x

/-! ### Materialized rows -/

variable {s : Session} {c : Column}

theorem Session.value_resolve_none (s : Session) (c : Column) : (s.resolve c none).value = none := rfl

theorem Session.value_resolve_machine (plain : c.temporal? = none) (ofUtc : HasCalendar .utc a)
    (other : ¬ IsTextOfMoment c a) :
    ((s.onMachine z₁).resolve c a).value = ((s.onMachine z₂).resolve c a).value := by
  cases a with
  | none => rw [Session.value_resolve_none, Session.value_resolve_none]
  | some v =>
      rw [Session.value_resolve_some _ plain, Session.value_resolve_some _ plain]
      exact congrArg some (Value.coerce_machine ofUtc other)

theorem Session.hasCalendar_resolve {calendar : Calendar} (plain : c.temporal? = none)
    (ofCalendar : HasCalendar calendar a) : HasCalendar calendar (s.resolve c a).value := by
  cases a with
  | none => exact ofCalendar
  | some v =>
      rw [s.value_resolve_some plain]
      exact Value.hasCalendar_coerce s.machine ofCalendar c.typeId

theorem Session.attributesFor_machine {cs : List Column} {raw : List Attribute}
    (plain : ∀ c ∈ cs, c.temporal? = none) (ofUtc : ∀ a ∈ raw, HasCalendar .utc a)
    (other : ∀ p ∈ cs.zip raw, ¬ IsTextOfMoment p.1 p.2) :
    (s.onMachine z₁).attributesFor cs raw = (s.onMachine z₂).attributesFor cs raw := by
  induction cs generalizing raw with
  | nil => rw [attributesFor_nil, attributesFor_nil]
  | cons c cs ih =>
      have plains := fun c h => plain c (List.mem_cons_of_mem _ h)
      rw [attributesFor_cons, attributesFor_cons]
      cases raw with
      | nil =>
          have rest := @ih [] plains (by simp) (by simp)
          rw [List.head?_nil, Option.join_none, List.tail_nil, value_resolve_none,
            value_resolve_none, rest]
      | cons a raw =>
          rw [List.head?_cons, Option.join_some, List.tail_cons,
            ih plains (fun b h => ofUtc b (List.mem_cons_of_mem _ h))
              fun p h => other p (List.mem_cons_of_mem _ h),
            Session.value_resolve_machine (plain c List.mem_cons_self)
              (ofUtc a List.mem_cons_self) (other (c, a) List.mem_cons_self)]

/-- What is materialized from rows of a calendar has that calendar. -/
theorem Session.hasCalendar_attributesFor {calendar : Calendar} {cs : List Column}
    {raw : List Attribute} (plain : ∀ c ∈ cs, c.temporal? = none)
    (ofCalendar : ∀ a ∈ raw, HasCalendar calendar a) :
    ∀ a ∈ s.attributesFor cs raw, HasCalendar calendar a := by
  induction cs generalizing raw with
  | nil => simp
  | cons c cs ih =>
      have first : HasCalendar calendar raw.head?.join := by
        cases raw with
        | nil => exact .null
        | cons a raw => exact ofCalendar a List.mem_cons_self
      rw [attributesFor_cons]
      rintro a (_ | ⟨_, later⟩)
      · exact Session.hasCalendar_resolve (plain c List.mem_cons_self) first
      · exact ih (fun c h => plain c (List.mem_cons_of_mem _ h))
          (fun b h => ofCalendar b (List.mem_of_mem_tail h)) a later

/-! ### Moments in columns of text -/

/-- A moment in a column of text becomes its text in the zone of the machine. -/
theorem Session.resolve_moment (hc : c.typeId = ColumnType.text.id) (machine : Zone)
    (type : TemporalType) (t : Int) :
    ((s.onMachine machine).resolve c (some (.scalar (.temporal type (some t))))).value =
      some (.scalar (textShape (Temporal.format machine type (some t)))) := by
  have plain : c.temporal? = none := Column.temporal?_of_typeId hc
  rw [Session.value_resolve_some _ plain, hc, Value.coerce_of_typeId]
  rfl

theorem filled_some {cs : List Char} (h : cs ≠ []) : filled (some cs) = some cs := by
  simp [filled, h]

theorem outgoing?_textShape (machine : Zone) (text : String) :
    outgoing? machine h c (some (.scalar (textShape text))) = some text.toList := by
  rw [outgoing?, textShape]
  split <;> rfl

/-- The tokens that stand in a row for its raw attributes, place by place. -/
theorem outgoing?_eq_of_tokens_eq {s₁ s₂ : Session} {cs : List Column} {raw : List Attribute}
    (same : (outgoingTokens z₁ h cs (s₁.attributesFor cs raw)).map filled =
      (outgoingTokens z₂ h cs (s₂.attributesFor cs raw)).map filled) :
    ∀ p ∈ cs.zip raw, filled (outgoing? z₁ h p.1 (s₁.resolve p.1 p.2).value) =
      filled (outgoing? z₂ h p.1 (s₂.resolve p.1 p.2).value) := by
  induction cs generalizing raw with
  | nil => simp
  | cons c cs ih =>
      cases raw with
      | nil => simp
      | cons a raw =>
          rw [Session.attributesFor_cons, Session.attributesFor_cons, outgoingTokens,
            outgoingTokens] at same
          obtain ⟨first, rest⟩ := List.cons.inj same
          rintro p (_ | ⟨_, later⟩)
          · exact first
          · exact ih rest p later

theorem Session.tokens_materialize (s : Session) (machine : Zone) (type : RowType)
    (raw : List Attribute) : ((s.onMachine machine).materialize type raw).value.tokens machine =
      outgoingTokens machine (s.header type) type.columns
        ((s.onMachine machine).attributesFor type.columns raw) := by
  rw [Row.tokens, Session.attributes_materialize]
  rfl

theorem length_outgoingTokens (machine : Zone) {cs : List Column} {as : List Attribute}
    (same : as.length = cs.length) : (outgoingTokens machine h cs as).length = cs.length := by
  rw [outgoingTokens_eq_zipWith, List.length_map, List.length_zipWith, same, Nat.min_self]

/-- **On which rows the zone of the machine shows.**  A session in UTC materializes and renders raw
attributes, in columns that are not temporal, alike in all zones of the machine if and only if no
moment among them stands in a column of text. -/
theorem Session.render_machine_iff (s : Session) (type : RowType) (raw : List Attribute)
    (utc : s.calendar = .utc) (plain : ∀ c ∈ type.columns, c.temporal? = none)
    (ofUtc : ∀ a ∈ raw, HasCalendar .utc a) :
    (∀ z₁ z₂ : Zone, z₁.IsFixed → z₂.IsFixed →
      ((s.onMachine z₁).materialize type raw).value.render z₁ =
        ((s.onMachine z₂).materialize type raw).value.render z₂) ↔
    ∀ p ∈ type.columns.zip raw, ¬ IsTextOfMoment p.1 p.2 := by
  constructor
  · rintro same ⟨c, a⟩ place ⟨text, k, t, rfl⟩
    obtain ⟨east, west, hEast, hWest, differ⟩ := Temporal.exists_format_ne k t
    have literals := String.ofList_injective (same east west hEast hWest)
    rw [tokens_materialize, tokens_materialize] at literals
    have tokens := (writeRow_eq_iff (by
      rw [length_outgoingTokens _ (length_attributesFor _ _ _),
        length_outgoingTokens _ (length_attributesFor _ _ _)])).1 literals
    have token := outgoing?_eq_of_tokens_eq tokens _ place
    rw [resolve_moment text, resolve_moment text, outgoing?_textShape, outgoing?_textShape,
      filled_some (Temporal.format_ne_nil _ _ _), filled_some (Temporal.format_ne_nil _ _ _)]
      at token
    exact differ (String.toList_injective (Option.some.inj token))
  · intro other z₁ z₂ _ _
    have attributes : ((s.onMachine z₁).materialize type raw).value.attributes =
        ((s.onMachine z₂).materialize type raw).value.attributes := by
      rw [Session.attributes_materialize, Session.attributes_materialize,
        Session.attributesFor_machine plain ofUtc other]
    have rows : ((s.onMachine z₁).materialize type raw).value =
        ((s.onMachine z₂).materialize type raw).value :=
      congrArg (Row.mk (s.header type)) attributes
    rw [rows]
    refine Row.render_machine utc ?_
    rw [Session.attributes_materialize]
    exact Session.hasCalendar_attributesFor plain ofUtc

/-- A note in a column of text, and a moment in one of varying characters. -/
def RowType.entry : RowType :=
  ⟨"entry", [⟨"note", "text", ColumnType.text.id⟩, ⟨"at", "varchar", ColumnType.varchar.id⟩]⟩

theorem RowType.plain_entry : ∀ c ∈ RowType.entry.columns, c.temporal? = none := by decide

theorem Session.render_machine_entry :
    (∀ c ∈ RowType.entry.columns, c.temporal? = none) ∧
      (∀ a ∈ [some (.row (Session.utc.header .entry) [some (.scalar (.temporal .date (some 0)))]),
        some (.scalar (.temporal .timestamp (some 0)))], HasCalendar .utc a) ∧
      ∀ z₁ z₂ : Zone, z₁.IsFixed → z₂.IsFixed →
        ((Session.utc.onMachine z₁).materialize .entry
          [some (.row (Session.utc.header .entry) [some (.scalar (.temporal .date (some 0)))]),
            some (.scalar (.temporal .timestamp (some 0)))]).value.render z₁ =
        ((Session.utc.onMachine z₂).materialize .entry
          [some (.row (Session.utc.header .entry) [some (.scalar (.temporal .date (some 0)))]),
            some (.scalar (.temporal .timestamp (some 0)))]).value.render z₂ := by
  have ofUtc : ∀ a ∈ [some (.row (Session.utc.header .entry)
      [some (.scalar (.temporal .date (some 0)))]),
      some (.scalar (.temporal .timestamp (some 0)))], HasCalendar .utc a := by
    simp only [List.forall_mem_cons]
    exact ⟨.row _ _ rfl (by simpa using .scalar _), .scalar _, by simp⟩
  refine ⟨RowType.plain_entry, ofUtc,
    (Session.render_machine_iff .utc .entry _ rfl RowType.plain_entry ofUtc).2 ?_⟩
  rintro p (_ | ⟨_, _ | ⟨_, none⟩⟩) ⟨text, k, t, moment⟩
  · exact absurd moment nofun
  · exact absurd text (by decide)
  · exact absurd none List.not_mem_nil

/-- The start of 1970 in a column of text shows whether the machine is five hours ahead. -/
theorem Session.not_render_machine :
    ¬ ∀ (s : Session) (type : RowType) (raw : List Attribute), s.calendar = .utc →
      (∀ c ∈ type.columns, c.temporal? = none) → (∀ a ∈ raw, HasCalendar .utc a) →
      ∀ z₁ z₂ : Zone, z₁.IsFixed → z₂.IsFixed →
        ((s.onMachine z₁).materialize type raw).value.render z₁ =
          ((s.onMachine z₂).materialize type raw).value.render z₂ := by
  intro h
  have same := h .utc .entry [some (.scalar (.temporal .timestamp (some 0)))] rfl
    RowType.plain_entry (by simpa using .scalar _) 0 5 ⟨by decide, by decide⟩ ⟨by decide, by decide⟩
  exact absurd same (by decide +kernel)

end RowLiteral
