import Mathlib.Data.List.Basic
import RowLiteral.Proofs.Calendar.Spelling

/-!
# Calendar — how what is written is taken apart

What is written for a moment has no margins (`trimChars_stampChars`) and no zone
(`Temporal.hasZone_stampChars`): a zone has a mark after a colon, and the only hyphens stand in the
date.  From the year 0 on, a date alone is completed to the text of its midnight
(`Temporal.completed_dateChars`).

The zeros before a negative year are written before its sign, so the text starts with a zero, and
the reader takes the sign for the hyphen after the year.  What follows depends on the digits of the
year:

* one digit, or three and more: no date is read (`Temporal.readDate?_of_neg`);
* two digits: they are read as the month of the year 0 and the month as the day.  The day is left,
  and in a date it is read as a zone (`Temporal.parts?_two_digits_date`), while in a timestamp a
  time follows, which is refused (`Temporal.parts?_two_digits_stamp`).
-/

namespace RowLiteral
open Number Text

variable {f : Fields} {ds rest : List Char} {c : Char}

/-! ### The characters of dates and times -/

theorem mem_dateChars (h : c ∈ dateChars f) : c.isDigit = true ∨ c = '-' := by
  rw [dateChars, Temporal.toList_pad, monthDayChars] at h
  simp only [List.mem_append, List.mem_cons] at h
  rcases h with (zero | year) | hyphen | month | hyphen | day
  · exact .inl (isDigit_of_mem_zeros zero)
  · exact mem_intChars year
  · exact .inr hyphen
  · exact .inl (isDigit_of_mem_padded month)
  · exact .inr hyphen
  · exact .inl (isDigit_of_mem_padded day)

theorem mem_timeChars (h : c ∈ timeChars f) : c.isDigit = true ∨ c = ':' ∨ c = '.' := by
  have fraction (h : c ∈ millisChars f) : c = '.' ∨ c.isDigit = true := by
    rw [millisChars] at h
    split at h
    · exact absurd h List.not_mem_nil
    · rcases List.mem_cons.1 h with point | digit
      · exact .inl point
      · exact .inr (isDigit_of_mem_padded digit)
  rw [timeChars] at h
  simp only [List.mem_append, List.mem_cons] at h
  rcases h with hours | colon | minutes | colon | seconds | millis
  · exact .inl (isDigit_of_mem_padded hours)
  · exact .inr (.inl colon)
  · exact .inl (isDigit_of_mem_padded minutes)
  · exact .inr (.inl colon)
  · exact .inl (isDigit_of_mem_padded seconds)
  · rcases fraction millis with point | digit
    · exact .inr (.inr point)
    · exact .inl digit

/-! ### Margins -/

theorem isMargin_of_mem_dateChars (h : c ∈ dateChars f) : isMargin c = false := by
  rcases mem_dateChars h with digit | rfl
  · exact isMargin_of_isDigit digit
  · rfl

theorem isMargin_of_mem_timeChars (h : c ∈ timeChars f) : isMargin c = false := by
  rcases mem_timeChars h with digit | rfl | rfl
  · exact isMargin_of_isDigit digit
  · rfl
  · rfl

theorem trimChars_stampChars (f : Fields) : trimChars (stampChars f) = stampChars f := by
  have date : dateChars f ≠ [] := by simp [dateChars, monthDayChars]
  have time : timeChars f ≠ [] := by simp [timeChars]
  refine trimChars_eq_self (fun c hc => ?_) fun c hc => ?_
  · rw [stampChars, List.head?_append_of_ne_nil _ date] at hc
    exact isMargin_of_mem_dateChars (List.mem_of_head? hc)
  · rw [stampChars, List.getLast?_append_cons, List.getLast?_cons_of_ne_nil time] at hc
    exact isMargin_of_mem_timeChars (List.mem_of_getLast? hc)

/-! ### Zones -/

/-- The characters that start a zone. -/
def IsZoneMark (c : Char) : Prop := c = 'Z' ∨ c = '+' ∨ c = '-'

namespace Temporal
open Timestamp

theorem mem_of_afterZone? {cs rest : List Char} (h : afterZone? cs = some rest) :
    ∃ c ∈ cs, IsZoneMark c := by
  rw [afterZone?.eq_def] at h
  split at h
  · exact ⟨_, List.mem_cons_self, .inl rfl⟩
  · exact ⟨_, List.mem_cons_self, .inr (.inl rfl)⟩
  · exact ⟨_, List.mem_cons_self, .inr (.inr rfl)⟩
  · exact absurd h nofun

theorem eq_of_afterPair? {cs rest : List Char} (h : afterPair? cs = some rest) :
    ∃ a b, cs = a :: b :: rest := by
  rw [afterPair?.eq_def] at h
  split at h
  · next a b cs =>
      split at h
      · exact ⟨a, b, by rw [Option.some.inj h]⟩
      · exact absurd h nofun
  · exact absurd h nofun

theorem eq_cons_of_expect? {cs rest : List Char} (h : expect? c cs = some rest) :
    cs = c :: rest := by
  cases cs with
  | nil => exact absurd h nofun
  | cons d cs =>
      rw [expect?] at h
      split at h
      · next same => rw [same, Option.some.inj h]
      · exact absurd h nofun

theorem subset_of_afterSeconds? {cs rest : List Char} (h : afterSeconds? cs = some rest) :
    rest ⊆ cs := by
  rw [afterSeconds?.eq_def] at h
  split at h
  · obtain ⟨ds, pair, last⟩ := Option.bind_eq_some_iff.1 h
    obtain ⟨a, b, rfl⟩ := eq_of_afterPair? pair
    have within : rest ⊆ ds := by
      split at last
      · obtain ⟨⟨run, after⟩, spanned, last⟩ := Option.bind_eq_some_iff.1 last
        rw [spanDigits?] at spanned
        split at spanned
        · exact absurd spanned nofun
        · obtain ⟨-, rfl⟩ := Prod.mk.inj (Option.some.inj spanned)
          rw [← Option.some.inj last]
          exact List.subset_cons_of_subset _ (List.dropWhile_suffix _).subset
      · rw [← Option.some.inj last]
        exact List.Subset.refl _
    intro c hc
    exact List.mem_cons_of_mem _ (List.mem_cons_of_mem _ (List.mem_cons_of_mem _ (within hc)))
  · rw [← Option.some.inj h]
    exact List.Subset.refl _

/-- A time of day with a zone has a mark of the zone after its first colon. -/
theorem exists_of_isZonedTime {cs : List Char} (h : isZonedTime cs = true) :
    ∃ first rest, cs = first ++ ':' :: rest ∧ ∃ c ∈ rest, IsZoneMark c := by
  rw [isZonedTime] at h
  split at h
  · next rest read =>
      obtain ⟨cs₁, hours, read⟩ := Option.bind_eq_some_iff.1 read
      obtain ⟨cs₂, colon, read⟩ := Option.bind_eq_some_iff.1 read
      obtain ⟨cs₃, minutes, read⟩ := Option.bind_eq_some_iff.1 read
      obtain ⟨cs₄, seconds, zone⟩ := Option.bind_eq_some_iff.1 read
      obtain ⟨a, b, rfl⟩ := eq_of_afterPair? hours
      obtain rfl := eq_cons_of_expect? colon
      obtain ⟨d, e, rfl⟩ := eq_of_afterPair? minutes
      obtain ⟨c, hc, mark⟩ := mem_of_afterZone? zone
      exact ⟨[a, b], d :: e :: cs₃, rfl, c, by simp [subset_of_afterSeconds? seconds hc], mark⟩
  · exact absurd h (by decide)

theorem exists_of_hasZone {cs : List Char} (h : hasZone cs = true) :
    ∃ first rest, cs = first ++ ':' :: rest ∧ ∃ c ∈ rest, IsZoneMark c := by
  induction cs with
  | nil => exact absurd h (by decide)
  | cons c cs ih =>
      rw [hasZone, Bool.or_eq_true] at h
      rcases h with here | later
      · exact exists_of_isZonedTime here
      · obtain ⟨first, rest, rfl, mark⟩ := ih later
        exact ⟨c :: first, rest, rfl, mark⟩

/-- Without a colon in the date and a mark of a zone in the time there is no zone. -/
theorem hasZone_append {date time : List Char} (hd : ':' ∉ date)
    (ht : ∀ c ∈ time, ¬ IsZoneMark c) : hasZone (date ++ time) = false := by
  by_contra h
  obtain ⟨first, rest, split, c, hc, mark⟩ := exists_of_hasZone (Bool.eq_true_of_not_eq_false h)
  rcases List.append_eq_append_iff.1 split.symm with ⟨ds, rfl, tail⟩ | ⟨ds, rfl, rfl⟩
  · cases ds with
    | nil =>
        rw [List.nil_append] at tail
        exact ht c (tail ▸ List.mem_cons_of_mem _ hc) mark
    | cons d ds =>
        obtain ⟨rfl, -⟩ := List.cons.inj tail
        exact hd (by simp)
  · exact ht c (List.mem_append_right _ (List.mem_cons_of_mem _ hc)) mark

theorem not_mem_dateChars (f : Fields) : ':' ∉ dateChars f := by
  intro h
  rcases mem_dateChars h with digit | hyphen
  · exact absurd digit (by decide)
  · exact absurd hyphen (by decide)

theorem not_isZoneMark_of_isDigit (h : c.isDigit = true) : ¬ IsZoneMark c := by
  rintro (rfl | rfl | rfl) <;> exact absurd h (by decide)

theorem hasZone_dateChars (f : Fields) : hasZone (dateChars f) = false := by
  rw [← List.append_nil (dateChars f)]
  exact hasZone_append (not_mem_dateChars f) nofun

theorem hasZone_stampChars (f : Fields) : hasZone (stampChars f) = false := by
  refine hasZone_append (not_mem_dateChars f) fun c hc => ?_
  rcases List.mem_cons.1 hc with rfl | time
  · rintro (h | h | h) <;> exact absurd h (by decide)
  · rcases mem_timeChars time with digit | rfl | rfl
    · exact not_isZoneMark_of_isDigit digit
    · rintro (h | h | h) <;> exact absurd h (by decide)
    · rintro (h | h | h) <;> exact absurd h (by decide)

/-! ### The shape of a text -/

theorem spanDigits?_append (filled : ds ≠ []) (digits : ∀ c ∈ ds, c.isDigit = true)
    (hr : ∀ c ∈ rest.head?, c.isDigit = false) : spanDigits? (ds ++ rest) = some (ds, rest) := by
  rw [spanDigits?, takeWhile_isDigit digits hr, dropWhile_isDigit digits hr]
  cases ds with
  | nil => exact absurd rfl filled
  | cons c ds => rfl

theorem hyphenPair?_append (h : IsPair ds) (rest : List Char) :
    hyphenPair? ('-' :: (ds ++ rest)) = some ('-' :: ds, rest) := by
  obtain ⟨a, b, rfl, ha, hb⟩ := h.exists
  simp [hyphenPair?, ha, hb]

theorem dateOnly?_append {year month day : List Char} (filled : year ≠ [])
    (digits : ∀ c ∈ year, c.isDigit = true) (hm : IsPair month) (hd : IsPair day)
    (rest : List Char) : dateOnly? (year ++ '-' :: (month ++ '-' :: (day ++ rest))) =
      if rest = [] || isEraEnd rest then some (year ++ '-' :: month ++ '-' :: day, rest)
      else none := by
  have hyphen : ∀ c ∈ ('-' :: (month ++ '-' :: (day ++ rest))).head?, c.isDigit = false := by simp
  simp only [dateOnly?, spanDigits?_append filled digits hyphen, hyphenPair?_append hm,
    hyphenPair?_append hd, Option.bind_eq_bind, Option.bind_some]

/-- A time does not start as an era does. -/
theorem timeChars_ne_era (f : Fields) : timeChars f ≠ ['B', 'C'] := by
  intro same
  have first : 'B' ∈ timeChars f := by simp [same]
  rcases mem_timeChars first with h | h | h <;> exact absurd h (by decide)

/-- What follows a space is no era, unless it is the era itself. -/
theorem isEraEnd_space {cs : List Char} (first : ∀ c ∈ cs.head?, isMargin c = false)
    (other : cs ≠ ['B', 'C']) : isEraEnd (' ' :: cs) = false := by
  have blank : (' ' :: cs).dropWhile isMargin = cs := by
    rw [List.dropWhile_cons_of_pos rfl, dropWhile_eq_self first]
  rw [isEraEnd, blank, beq_eq_false_iff_ne.2 other, Bool.and_false]

theorem isEraEnd_timeChars (f : Fields) : isEraEnd (' ' :: timeChars f) = false :=
  isEraEnd_space (fun _ hc => isMargin_of_mem_timeChars (List.mem_of_head? hc)) (timeChars_ne_era f)

theorem dateOnly?_dateChars (proper : f.IsProper) (positive : 0 ≤ f.year) (rest : List Char) :
    dateOnly? (dateChars f ++ rest) =
      if rest = [] || isEraEnd rest then some (dateChars f, rest) else none := by
  have date := dateOnly?_append (padded_ne_nil 4 f.year.toNat) (fun _ => isDigit_of_mem_padded)
    proper.isPair_month proper.isPair_day rest
  rw [← monthDayChars_append, ← List.append_assoc] at date
  rw [dateChars, toList_pad_of_nonneg 4 positive, date, monthDayChars, List.append_assoc,
    List.cons_append]

/-- A date alone is read as its midnight. -/
theorem completed_dateChars (proper : f.IsProper) (positive : 0 ≤ f.year) :
    completed (dateChars f) = stampChars f.midnight := by
  have date := dateOnly?_dateChars proper positive []
  have midnight : timeChars f.midnight = "00:00:00".toList :=
    show timeChars ⟨0, 0, 0, 0, 0, 0, 0⟩ = "00:00:00".toList by decide
  rw [List.append_nil, if_pos (by simp)] at date
  rw [completed, date, stampChars, midnight]
  simp [dateChars, monthDayChars, Fields.midnight]

theorem completed_stampChars (proper : f.IsProper) (positive : 0 ≤ f.year) :
    completed (stampChars f) = stampChars f := by
  have date := dateOnly?_dateChars proper positive (' ' :: timeChars f)
  rw [if_neg (by simp [isEraEnd_timeChars]), ← stampChars] at date
  rw [completed, date]

/-! ### Years before the year 0 -/

/-- The zeros before a negative year come before its sign. -/
theorem toList_pad_of_neg {n : Int} (h : n < 0) :
    (-9 ≤ n ∧ ∃ d, d.isDigit = true ∧ (pad 4 (some n)).toList = ['0', '0', '-', d]) ∨
    (-99 ≤ n ∧ n ≤ -10 ∧ ∃ ds, IsPair ds ∧ ofDigits ds = n.natAbs ∧
      (pad 4 (some n)).toList = '0' :: '-' :: ds) ∨
    (n ≤ -100 ∧ ∃ ds, (pad 4 (some n)).toList = '-' :: ds) := by
  have text : (pad 4 (some n)).toList =
      zeros (3 - (digits n.natAbs).length) ++ '-' :: digits n.natAbs := by
    rw [toList_pad, intChars, if_pos h, List.length_cons]
    congr 2
    omega
  have filled : 0 < (digits n.natAbs).length := List.length_pos_of_ne_nil (digits_ne_nil _)
  have one : (digits n.natAbs).length ≤ 1 ↔ n.natAbs < 10 ^ 1 :=
    Nat.length_toDigits_le_iff (by decide) (by decide)
  have two : (digits n.natAbs).length ≤ 2 ↔ n.natAbs < 10 ^ 2 :=
    Nat.length_toDigits_le_iff (by decide) (by decide)
  by_cases short : (digits n.natAbs).length ≤ 1
  · obtain ⟨d, single⟩ := List.length_eq_one_iff.1 (Nat.le_antisymm short filled)
    refine .inl ⟨by omega, d, isDigit_of_mem_digits (single ▸ List.mem_singleton_self d), ?_⟩
    rw [text, single]
    rfl
  · by_cases middle : (digits n.natAbs).length ≤ 2
    · have length : (digits n.natAbs).length = 2 := by omega
      refine .inr (.inl ⟨by omega, by omega, digits n.natAbs,
        ⟨length, fun _ => isDigit_of_mem_digits⟩, ofDigits_digits _, ?_⟩)
      rw [text, length]
      rfl
    · refine .inr (.inr ⟨by omega, digits n.natAbs, ?_⟩)
      rw [text, show 3 - (digits n.natAbs).length = 0 by omega]
      rfl

/-- With one digit after the sign, or three and more, no date is read. -/
theorem readDate?_of_neg (negative : f.year < 0) (h : f.year < -99 ∨ -10 < f.year)
    (rest : List Char) :
    readDate? (dateChars f ++ rest) = none ∧ dateOnly? (dateChars f ++ rest) = none := by
  rw [dateChars, List.append_assoc, monthDayChars_append]
  generalize padded 2 (f.month + 1).toNat ++ '-' :: (padded 2 f.day.toNat ++ rest) = cs
  rcases toList_pad_of_neg negative with ⟨-, d, digit, text⟩ | ⟨least, greatest, -⟩ | ⟨-, ds, text⟩
  · -- the hyphen after the one digit is not a digit
    have hyphen : d ≠ '-' := by
      rintro rfl
      exact absurd digit (by decide)
    rw [text]
    constructor
    · simp [readDate?, readPair, expect?, hyphen]
    · simp [dateOnly?, spanDigits?, hyphenPair?]
  · omega
  · rw [text]
    exact ⟨readDate?_of_not_isDigit (by simp), rfl⟩

/-- With two digits after the sign, they are read as the month, the month as the day, and the day
is left. -/
theorem readDate?_two_digits (proper : f.IsProper) (h : -99 ≤ f.year ∧ f.year ≤ -10)
    (rest : List Char) :
    readDate? (dateChars f ++ rest) =
        some (⟨0, -f.year - 1, f.month + 1⟩, '-' :: (padded 2 f.day.toNat ++ rest)) ∧
      dateOnly? (dateChars f ++ rest) = none := by
  have negative : f.year < 0 := by omega
  obtain ⟨ds, pair, value, text⟩ : ∃ ds, IsPair ds ∧ ofDigits ds = f.year.natAbs ∧
      (pad 4 (some f.year)).toList = '0' :: '-' :: ds := by
    rcases toList_pad_of_neg negative with ⟨least, -⟩ | ⟨-, -, form⟩ | ⟨greatest, -⟩
    · omega
    · exact form
    · omega
  have whole : dateChars f ++ rest = ['0'] ++ '-' :: (ds ++ '-' ::
      (padded 2 (f.month + 1).toNat ++ '-' :: (padded 2 f.day.toNat ++ rest))) := by
    rw [dateChars, List.append_assoc, monthDayChars_append, text]
    simp
  have zero : ∀ c ∈ ['0'], c.isDigit = true := by simp
  have month : ((ofDigits (padded 2 (f.month + 1).toNat) : Nat) : Int) = f.month + 1 := by
    have := proper.date.month
    rw [ofDigits_padded]
    omega
  have year : ((ofDigits ds : Nat) : Int) - 1 = -f.year - 1 := by
    rw [value]
    omega
  have ordinary : isEraEnd ('-' :: (padded 2 f.day.toNat ++ rest)) = false := rfl
  rw [whole, readDate?_append (by simp) zero pair proper.isPair_month,
    dateOnly?_append (by simp) zero pair proper.isPair_month, month, year, ordinary]
  exact ⟨rfl, rfl⟩

/-- After the date of such a year its day is left, and read as the hours of a zone; only a text that
ends there is read. -/
theorem parts?_two_digits (proper : f.IsProper) (h : -99 ≤ f.year ∧ f.year ≤ -10) {rest : List Char}
    (apart : rest.head? ≠ some ':') (noEra : rest ≠ [' ', 'B', 'C']) :
    parts? (completed (dateChars f ++ rest)) = if rest = [] then
      some ⟨⟨0, -f.year - 1, f.month + 1, 0, 0, 0, 0⟩, some (-(f.day * 3600) * 1000)⟩ else none := by
  obtain ⟨date, notAlone⟩ := readDate?_two_digits proper h rest
  have positive : 0 ≤ f.day := Int.le_trans Int.one_nonneg proper.date.day.1
  have hours : (f.day.toNat : Int) = f.day := Int.toNat_of_nonneg positive
  have zone := readZone_hyphen proper.isPair_day apart
  rw [ofDigits_padded, hours] at zone
  -- a time would have to begin with a blank
  have midnight : readTime? ('-' :: (padded 2 f.day.toNat ++ rest)) =
      some (⟨0, 0, 0, 0⟩, '-' :: (padded 2 f.day.toNat ++ rest)) := if_pos (by simp)
  rw [completed, notAlone, parts?, date]
  simp only [Option.bind_eq_bind, Option.bind_some, midnight, zone]
  simp [noEra, eraYear]

/-- **A date of such a year is read as a day of the year 0,** the day of the month as a zone. -/
theorem parts?_two_digits_date (proper : f.IsProper) (h : -99 ≤ f.year ∧ f.year ≤ -10) :
    parts? (completed (dateChars f)) =
      some ⟨⟨0, -f.year - 1, f.month + 1, 0, 0, 0, 0⟩, some (-(f.day * 3600) * 1000)⟩ := by
  have read := parts?_two_digits proper h (show [].head? ≠ some ':' by simp) (by simp)
  rwa [List.append_nil, if_pos rfl] at read

/-- But a timestamp is not read: no time follows a zone. -/
theorem parts?_two_digits_stamp (proper : f.IsProper) (h : -99 ≤ f.year ∧ f.year ≤ -10) :
    parts? (completed (stampChars f)) = none := by
  rw [stampChars, parts?_two_digits proper h (by simp) (by simp [timeChars_ne_era]),
    if_neg (List.cons_ne_nil _ _)]

/-- Before the year 0 a timestamp is not read. -/
theorem parts?_stampChars_of_neg (proper : f.IsProper) (negative : f.year < 0) :
    parts? (completed (stampChars f)) = none := by
  by_cases two : -99 ≤ f.year ∧ f.year ≤ -10
  · exact parts?_two_digits_stamp proper two
  · obtain ⟨date, notAlone⟩ := readDate?_of_neg negative (by omega) (' ' :: timeChars f)
    rw [← stampChars] at date notAlone
    rw [completed, notAlone, parts?, date]
    rfl

/-- Nor is a date, but in the years with two digits. -/
theorem parts?_dateChars_of_neg (negative : f.year < 0) (h : f.year < -99 ∨ -10 < f.year) :
    parts? (completed (dateChars f)) = none := by
  obtain ⟨date, notAlone⟩ := readDate?_of_neg negative h []
  rw [List.append_nil] at date notAlone
  rw [completed, notAlone, parts?, date]
  rfl

end Temporal

end RowLiteral
