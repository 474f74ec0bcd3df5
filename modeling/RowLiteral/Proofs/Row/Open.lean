import RowLiteral.Encoding.Listed
import RowLiteral.Proofs.Row.Local

/-!
# Row — readers that throw anything

What a reader of temporal text throws is shown in a report, and a thing that cannot be shown ends
the materialization there (`OpenSession.StopsAt`).  Everything else is absorbed: a row is made, and
it is the one that the told session makes, in which all that is thrown has a text.

* `OpenSession.materialize_cases`: a row stops at a column, or it is that of the told session.
* `OpenSession.materialize_opened`: where the reader throws failures only, a row is always made.
* `OpenSession.materialize_absorbs`: when no row is made; that each row has one attribute for each
  column, which is local, and keeps raw values of which the reader has thrown something.
-/

namespace RowLiteral

/-- A session as one whose readers might throw anything. -/
def Session.opened (s : Session) : OpenSession :=
  ⟨s.encoding, s.calendar, s.reader.mapError .shown, s.machine⟩

namespace OpenSession

variable (s : OpenSession) {c : Column} {v : Value} {a : Attribute}

/-! ### Columns -/

/-- The reader throws something of a raw value in a column. -/
def Throws (c : Column) (v : Value) (thrown : Thrown) : Prop :=
  s.reading? c v = some (.error thrown)

theorem read_mapError {ε ε' : Type} (f : ε → ε') (r : TemporalReaderOf ε) (type : TemporalType)
    (calendar : Calendar) (text : String) :
    (r.mapError f).read type calendar text = (r.read type calendar text).mapError f := by
  cases type <;> rfl

variable {thrown : Thrown}

theorem throws_iff : s.Throws c v thrown ↔ ∃ type, c.temporal? = some type ∧
    v.kind ≠ .temporal type ∧
    s.reader.read type s.calendar ((v.text? s.machine s.calendar).getD "") = .error thrown := by
  rw [Throws, reading?]
  cases c.temporal? with
  | none => exact ⟨nofun, fun ⟨_, h, _⟩ => nomatch h⟩
  | some type =>
      simp only [Option.some.injEq, exists_eq_left']
      split
      · next same => exact ⟨nofun, fun h => absurd same h.1⟩
      · next other => rw [Option.some.injEq, and_iff_right other]

variable {s} in
/-- In the told session this is a failure. -/
theorem Throws.fails (h : s.Throws c v thrown) : s.told.Fails c v := by
  obtain ⟨type, temporal, other, throws⟩ := s.throws_iff.1 h
  have fails : s.told.reader.read type s.told.calendar
      ((v.text? s.told.machine s.told.calendar).getD "") = .error thrown.told := by
    rw [told, read_mapError, throws]
    rfl
  exact .reading temporal other fails

theorem obstacle?_eq_some_iff {message : String} :
    s.obstacle? c a = some message ↔ ∃ v, a = some v ∧ s.Throws c v (.unshowable message) := by
  cases a with
  | none => exact ⟨nofun, fun ⟨_, h, _⟩ => nomatch h⟩
  | some v =>
      rw [obstacle?, Option.bind_some]
      constructor
      · intro h
        split at h
        · next thrown =>
          obtain rfl := Option.some.inj h
          exact ⟨v, rfl, thrown⟩
        · cases h
      · rintro ⟨_, ⟨⟩, thrown⟩
        rw [thrown]

/-! ### Rows -/

/-- The first column in which a row stops, and why. -/
structure StopsAt (cs : List Column) (raw : List Attribute) (i : Nat) (message : String) :
    Prop where
  obstacle : ∃ c : Column, cs[i]? = some c ∧ s.obstacle? c raw[i]?.join = some message
  before : ∀ j < i, ∀ c : Column, cs[j]? = some c → s.obstacle? c raw[j]?.join = none

/-- In no column a row stops. -/
def IsClear (cs : List Column) (raw : List Attribute) : Prop :=
  ∀ (i : Nat) (c : Column), cs[i]? = some c → s.obstacle? c raw[i]?.join = none

variable {s} {cs : List Column} {raw : List Attribute} {i : Nat} {message : String}

theorem StopsAt.zero (h : s.obstacle? c raw.head?.join = some message) :
    s.StopsAt (c :: cs) raw 0 message :=
  ⟨⟨c, rfl, by rwa [← List.head?_eq_getElem?]⟩, nofun⟩

theorem StopsAt.succ (clear : s.obstacle? c raw.head?.join = none)
    (h : s.StopsAt cs raw.tail i message) : s.StopsAt (c :: cs) raw (i + 1) message := by
  obtain ⟨⟨d, column, stops⟩, before⟩ := h
  rw [List.getElem?_tail] at stops
  refine ⟨⟨d, column, stops⟩, fun j lt e column => ?_⟩
  cases j with
  | zero =>
      obtain rfl := Option.some.inj column
      rwa [← List.head?_eq_getElem?]
  | succ j =>
      have := before j (Nat.lt_of_succ_lt_succ lt) e column
      rwa [List.getElem?_tail] at this

theorem IsClear.cons (clear : s.obstacle? c raw.head?.join = none) (h : s.IsClear cs raw.tail) :
    s.IsClear (c :: cs) raw := by
  intro i d column
  cases i with
  | zero =>
      obtain rfl := Option.some.inj column
      rwa [← List.head?_eq_getElem?]
  | succ i =>
      have := h i d column
      rwa [List.getElem?_tail] at this

theorem IsClear.not_stopsAt (h : s.IsClear cs raw) : ¬ s.StopsAt cs raw i message := by
  rintro ⟨⟨c, column, stops⟩, -⟩
  cases stops.symm.trans (h i c column)

/-- There is one first column at most. -/
theorem StopsAt.unique {i' : Nat} {message' : String} (h : s.StopsAt cs raw i message)
    (h' : s.StopsAt cs raw i' message') : message = message' := by
  obtain ⟨⟨c, column, stops⟩, before⟩ := h
  obtain ⟨⟨c', column', stops'⟩, before'⟩ := h'
  rcases Nat.lt_trichotomy i i' with lt | rfl | gt
  · cases stops.symm.trans (before' i lt c column)
  · obtain rfl := Option.some.inj (column.symm.trans column')
    exact Option.some.inj (stops.symm.trans stops')
  · cases stops'.symm.trans (before i' gt c' column')

/-- The attributes stop at a column, or they are those of the told session. -/
theorem resolveAll_cases : ∀ (cs : List Column) (raw : List Attribute),
    (∃ i message, s.StopsAt cs raw i message ∧
        (s.resolveAll cs raw).value = .error (.unshowable message)) ∨
      s.IsClear cs raw ∧
        s.resolveAll cs raw = (Logged.collect (s.told.resolveAll cs raw)).map .ok
  | [], _ => .inr ⟨nofun, rfl⟩
  | c :: cs, raw => by
      rw [resolveAll]
      split
      · next message stops => exact .inl ⟨0, message, .zero stops, rfl⟩
      · next clear =>
        rcases resolveAll_cases cs raw.tail with ⟨i, message, stops, error⟩ | ⟨rest, all⟩
        · refine .inl ⟨i + 1, message, stops.succ clear, ?_⟩
          simp only [error]
          rfl
        · refine .inr ⟨.cons clear rest, ?_⟩
          rw [all]
          cases raw <;> rfl

variable (s) in
/-- **A row stops at a column, or it is that of the told session.** -/
theorem materialize_cases (type : RowType) (raw : List Attribute) :
    (∃ i message, s.StopsAt type.columns raw i message ∧
        (s.materialize type raw).value = .error (.unshowable message)) ∨
      s.IsClear type.columns raw ∧
        s.materialize type raw = (s.told.materialize type raw).map .ok := by
  rcases s.resolveAll_cases type.columns raw with ⟨i, message, stops, error⟩ | ⟨clear, all⟩
  · refine .inl ⟨i, message, stops, ?_⟩
    rw [materialize, error]
    rfl
  · refine .inr ⟨clear, ?_⟩
    rw [materialize, all]
    rfl

/-! ### Readers that throw failures only -/

/-- The reader throws nothing that cannot be shown. -/
def IsShown (s : OpenSession) : Prop :=
  ∀ type calendar text message, s.reader.read type calendar text ≠ .error (.unshowable message)

theorem IsShown.isClear (h : s.IsShown) (cs : List Column) (raw : List Attribute) :
    s.IsClear cs raw := by
  intro i c column
  rw [Option.eq_none_iff_forall_ne_some]
  intro message stops
  obtain ⟨v, -, throws⟩ := s.obstacle?_eq_some_iff.1 stops
  obtain ⟨type, -, -, thrown⟩ := s.throws_iff.1 throws
  exact h _ _ _ _ thrown

theorem IsShown.materialize_eq (h : s.IsShown) (type : RowType) (raw : List Attribute) :
    s.materialize type raw = (s.told.materialize type raw).map .ok := by
  rcases s.materialize_cases type raw with ⟨i, message, stops, -⟩ | ⟨-, all⟩
  · exact absurd stops (h.isClear type.columns raw).not_stopsAt
  · exact all

theorem told_opened (s : Session) : s.opened.told = s := by
  obtain ⟨encoding, calendar, ⟨date, time, timestamp⟩, machine⟩ := s
  have told (x : Except TemporalFailure Moment) : (x.mapError .shown).mapError Thrown.told = x := by
    cases x <;> rfl
  simp only [Session.opened, OpenSession.told, TemporalReaderOf.mapError, told]

theorem isShown_opened (s : Session) : s.opened.IsShown := by
  intro type calendar text message
  rw [Session.opened, read_mapError]
  cases s.reader.read type calendar text <;> exact nofun

/-- **Where the reader throws failures only, a row is always made.** -/
theorem materialize_opened (s : Session) (type : RowType) (raw : List Attribute) :
    s.opened.materialize type raw = (s.materialize type raw).map .ok := by
  rw [(isShown_opened s).materialize_eq, told_opened]

/-! ### Every reader -/

/-- A row that is made is that of the told session. -/
theorem value_told_of_ok {type : RowType} {row : Row}
    (made : (s.materialize type raw).value = .ok row) :
    (s.told.materialize type raw).value = row := by
  rcases s.materialize_cases type raw with ⟨i, message, -, error⟩ | ⟨-, all⟩
  · cases made.symm.trans error
  · rw [all] at made
    exact Except.ok.inj made

/-- **What is thrown is absorbed where it can be shown.**  For every session, whatever its reader
throws, every type and any number of raw attributes:

* no row is made if and only if a row stops at a column, where the reader throws a thing that cannot
  be shown, and the first such column tells why; so a row is always made where the reader throws
  nothing of the kind;
* a row that is made has one attribute for each column, which is NULL if and only if the raw
  attribute in its place is NULL or missing; a raw value of which the reader throws anything stays
  as it is, the very same one;
* what stands in a column of a row that is made depends on nothing but the session, the raw
  attribute in its place and the identifier of the type of the column. -/
theorem materialize_absorbs (s : OpenSession) (type : RowType) (raw : List Attribute) :
    (∀ e, (s.materialize type raw).value = .error e ↔
      ∃ i message, s.StopsAt type.columns raw i message ∧ e = .unshowable message) ∧
    (s.IsShown → ∃ row, (s.materialize type raw).value = .ok row) ∧
    ∀ row, (s.materialize type raw).value = .ok row →
      row.attributes.length = type.columns.length ∧
      (∀ (i : Nat) (c : Column), type.columns[i]? = some c →
        ∃ a, row.attributes[i]? = some a ∧
          (a = none ↔ raw[i]? = none ∨ raw[i]? = some none) ∧
          ∀ v thrown, raw[i]? = some (some v) → s.Throws c v thrown →
            a = some v ∧ s.told.Keeps c a) ∧
      ∀ (type' : RowType) (raw' : List Attribute) (row' : Row) (i : Nat) (c c' : Column),
        (s.materialize type' raw').value = .ok row' →
        type.columns[i]? = some c → type'.columns[i]? = some c' → c.typeId = c'.typeId →
        raw[i]?.join = raw'[i]?.join → row.attributes[i]? = row'.attributes[i]? := by
  obtain ⟨rows, places⟩ := Session.materialize_local
  refine ⟨fun e => ?_, fun shown => ?_, fun row made => ?_⟩
  · rcases s.materialize_cases type raw with ⟨i, message, stops, error⟩ | ⟨clear, all⟩
    · rw [error, Except.error.injEq]
      constructor
      · rintro rfl
        exact ⟨i, message, stops, rfl⟩
      · rintro ⟨i', message', stops', rfl⟩
        rw [stops.unique stops']
    · rw [all]
      exact ⟨nofun, fun ⟨_, _, stops, _⟩ => absurd stops clear.not_stopsAt⟩
  · rw [shown.materialize_eq]
    exact ⟨_, rfl⟩
  · obtain rfl := value_told_of_ok made
    obtain ⟨length, attributes⟩ := rows s.told type raw
    refine ⟨length, fun i c column => ?_, fun type' raw' row' i c c' made' => ?_⟩
    · obtain ⟨a, there, null, kept⟩ := attributes i c column
      exact ⟨a, there, null, fun v thrown place throws => kept v place throws.fails⟩
    · obtain rfl := value_told_of_ok made'
      exact places s.told type type' raw raw' i c c'

/-- A session whose reader throws the same on every text. -/
def throwing (thrown : Thrown) : OpenSession := ⟨.utf8, .utc, .failing thrown, 0⟩

/-- A day and a remark. -/
def visit : RowType :=
  ⟨"visit", [⟨"day", "date", ColumnType.date.id⟩, ⟨"remark", "text", ColumnType.text.id⟩]⟩

theorem throws_visit (thrown : Thrown) :
    (throwing thrown).Throws ⟨"day", "date", ColumnType.date.id⟩ (.text "today") thrown :=
  (throwing thrown).throws_iff.2 ⟨.date, rfl, nofun, rfl⟩

/-- What has a text is absorbed: the day stays a text, and the remark is missing.  What has none
ends the materialization with a message of its own. -/
theorem materialize_absorbs_visit :
    (∃ row, ((throwing (.shown (.gaveUp "idle"))).materialize visit [some (.text "today")]).value =
        .ok row ∧
      row.attributes[0]? = some (some (.text "today")) ∧ row.attributes[1]? = some none) ∧
    ((throwing (.unshowable "no text")).materialize visit [some (.text "today")]).value =
      .error (.unshowable "no text") := by
  constructor
  · obtain ⟨-, made, attributes⟩ := materialize_absorbs (throwing (.shown (.gaveUp "idle"))) visit
      [some (.text "today")]
    obtain ⟨row, made⟩ := made fun type _ _ _ => by cases type <;> exact nofun
    obtain ⟨-, attributes, -⟩ := attributes row made
    obtain ⟨day, there, -, kept⟩ := attributes 0 _ rfl
    obtain ⟨remark, there', missing, -⟩ := attributes 1 _ rfl
    refine ⟨row, made, ?_, ?_⟩
    · rw [there, (kept _ _ rfl (throws_visit _)).1]
    · rw [there', missing.2 (.inl rfl)]
  · refine ((materialize_absorbs _ _ _).1 _).2 ⟨0, "no text", ⟨⟨_, rfl, ?_⟩, nofun⟩, rfl⟩
    exact (obstacle?_eq_some_iff _).2 ⟨_, rfl, throws_visit _⟩

/-- Materialization does not absorb everything: what the reader throws may have no text. -/
theorem not_materialize_absorbs : ¬ ∀ (s : OpenSession) (type : RowType) (raw : List Attribute),
    ∃ row, (s.materialize type raw).value = .ok row := by
  intro h
  obtain ⟨row, made⟩ := h (throwing (.unshowable "Cannot convert object to primitive value")) visit
    [some (.text "a")]
  cases made

end OpenSession

end RowLiteral
