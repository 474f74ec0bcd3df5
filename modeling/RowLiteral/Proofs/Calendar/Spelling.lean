import Mathlib.Data.List.TakeWhile
import RowLiteral.Proofs.Calendar.Instants
import RowLiteral.Proofs.Number.Digits

/-!
# Calendar — how fields are spelled

A field is written as its digits, filled up with zeros (`padded`), and that is what the reader of
the field takes: a year is any run of digits, and the month, the day and the parts of a time are
pairs of digits (`IsPair`).  So what is written for proper fields from the year 0 on spells these
fields and no zone (`Timestamp.parts?_stampChars`).
-/

namespace RowLiteral
open Number Text

/-! ### Fields filled up with zeros -/

/-- The digits of a number, filled up to a width with zeros on the left. -/
def padded (width n : Nat) : List Char := zeros (width - (digits n).length) ++ digits n

/-- Two digits. -/
structure IsPair (ds : List Char) : Prop where
  length : ds.length = 2
  digits : ∀ c ∈ ds, c.isDigit = true

variable {width n : Nat} {ds rest : List Char}

theorem isDigit_of_mem_padded {c : Char} (h : c ∈ padded width n) : c.isDigit = true := by
  rcases List.mem_append.1 h with zero | digit
  · exact isDigit_of_mem_zeros zero
  · exact isDigit_of_mem_digits digit

theorem ofDigits_padded (width n : Nat) : ofDigits (padded width n) = n := by
  rw [padded, ofDigits_zeros_append, ofDigits_digits]

theorem padded_ne_nil (width n : Nat) : padded width n ≠ [] := by
  simp [padded, digits_ne_nil]

theorem length_padded (positive : 0 < width) (h : n < 10 ^ width) :
    (padded width n).length = width := by
  have short : (digits n).length ≤ width := (Nat.length_toDigits_le_iff (by decide) positive).2 h
  simp only [padded, zeros, List.length_append, List.length_replicate]
  omega

theorem isPair_padded (h : n < 100) : IsPair (padded 2 n) :=
  ⟨length_padded (by decide) h, fun _ => isDigit_of_mem_padded⟩

theorem IsPair.exists (h : IsPair ds) :
    ∃ a b, ds = [a, b] ∧ a.isDigit = true ∧ b.isDigit = true := by
  obtain ⟨length, digits⟩ := h
  match ds, length with
  | [a, b], _ => exact ⟨a, b, rfl, digits a (by simp), digits b (by simp)⟩

theorem Temporal.toList_pad (width : Nat) (n : Int) : (Temporal.pad width (some n)).toList =
    zeros (width - (intChars n).length) ++ intChars n := by
  rw [Temporal.pad, Temporal.fieldText, String.toList_append, String.toList_ofList,
    ← String.length_toList, toList_toString, zeros]

theorem Temporal.toList_pad_of_nonneg (width : Nat) {n : Int} (h : 0 ≤ n) :
    (Temporal.pad width (some n)).toList = padded width n.toNat := by
  have text : intChars n = digits n.toNat := by
    rw [intChars, if_neg (by omega)]
    congr 1
    omega
  rw [Temporal.toList_pad, text, padded]

/-! ### The text of fields -/

/-- The month and the day of fields, as they are written after the year. -/
def monthDayChars (f : Fields) : List Char :=
  '-' :: (padded 2 (f.month + 1).toNat ++ '-' :: padded 2 f.day.toNat)

/-- The milliseconds of fields, as they are written after the seconds. -/
def millisChars (f : Fields) : List Char :=
  if f.millis = 0 then [] else '.' :: padded 3 f.millis.toNat

/-- The time of day of fields, as it is written. -/
def timeChars (f : Fields) : List Char :=
  padded 2 f.hours.toNat ++ ':' :: (padded 2 f.minutes.toNat ++
    ':' :: (padded 2 f.seconds.toNat ++ millisChars f))

/-- The text of the day of fields. -/
def dateChars (f : Fields) : List Char := (Temporal.pad 4 (some f.year)).toList ++ monthDayChars f

/-- The text of fields. -/
def stampChars (f : Fields) : List Char := dateChars f ++ ' ' :: timeChars f

theorem Fields.IsProper.isPair_month {f : Fields} (h : f.IsProper) :
    IsPair (padded 2 (f.month + 1).toNat) := by
  have := h.date.month
  exact isPair_padded (by omega)

theorem Fields.IsProper.isPair_day {f : Fields} (h : f.IsProper) :
    IsPair (padded 2 f.day.toNat) := by
  have := h.date.day_le
  exact isPair_padded (by omega)

theorem monthDayChars_append (f : Fields) (rest : List Char) : monthDayChars f ++ rest =
    '-' :: (padded 2 (f.month + 1).toNat ++ '-' :: (padded 2 f.day.toNat ++ rest)) := by
  simp [monthDayChars]

namespace Temporal

variable {zone : Zone} {t : Int} {f : Fields}

theorem toList_formatDate (zone : Zone) (t : Int) :
    (formatDate zone (some t)).toList = dateChars (fieldsOf zone t) := by
  have date := (isProper_fieldsOf zone t).date
  have month := toList_pad_of_nonneg 2 (Int.add_nonneg date.month.1 Int.one_nonneg)
  have day := toList_pad_of_nonneg 2 (Int.le_trans Int.one_nonneg date.day.1)
  have text : formatDate zone (some t) = pad 4 (some (fieldsOf zone t).year) ++ "-" ++
      pad 2 (some ((fieldsOf zone t).month + 1)) ++ "-" ++ pad 2 (some (fieldsOf zone t).day) := rfl
  simp [text, dateChars, monthDayChars, month, day]

theorem toList_formatTime (zone : Zone) (t : Int) :
    (formatTime zone (some t)).toList = timeChars (fieldsOf zone t) := by
  obtain ⟨-, hours, minutes, seconds, millis⟩ := isProper_fieldsOf zone t
  have hours := toList_pad_of_nonneg 2 hours.1
  have minutes := toList_pad_of_nonneg 2 minutes.1
  have seconds := toList_pad_of_nonneg 2 seconds.1
  have millis := toList_pad_of_nonneg 3 millis.1
  have text : formatTime zone (some t) =
      if some (fieldsOf zone t).millis = some 0 then
        pad 2 (some (fieldsOf zone t).hours) ++ ":" ++ pad 2 (some (fieldsOf zone t).minutes) ++
          ":" ++ pad 2 (some (fieldsOf zone t).seconds)
      else
        pad 2 (some (fieldsOf zone t).hours) ++ ":" ++ pad 2 (some (fieldsOf zone t).minutes) ++
          ":" ++ pad 2 (some (fieldsOf zone t).seconds) ++ "." ++
            pad 3 (some (fieldsOf zone t).millis) := rfl
  rw [text, timeChars, millisChars]
  simp only [Option.some.injEq]
  split <;> simp [hours, minutes, seconds, millis]

theorem toList_formatTimestamp (zone : Zone) (t : Int) :
    (formatTimestamp zone (some t)).toList = stampChars (fieldsOf zone t) := by
  have text : formatTimestamp zone (some t) =
      formatDate zone (some t) ++ " " ++ formatTime zone (some t) := rfl
  simp [text, stampChars, toList_formatDate, toList_formatTime]

end Temporal

/-! ### Reading the parts of a text -/

namespace Timestamp

theorem readPair_append (h : IsPair ds) (rest : List Char) :
    readPair (ds ++ rest) = (↑(ofDigits ds), rest) := by
  obtain ⟨a, b, rfl, ha, hb⟩ := h.exists
  simp [readPair, ha, hb, ofDigits]

theorem expect?_cons (c : Char) (cs : List Char) : expect? c (c :: cs) = some cs := if_pos rfl

theorem readDate?_append {year month day : List Char} (filled : year ≠ [])
    (digits : ∀ c ∈ year, c.isDigit = true) (hm : IsPair month) (hd : IsPair day)
    (rest : List Char) : readDate? (year ++ '-' :: (month ++ '-' :: (day ++ rest))) =
      some (⟨ofDigits year, ofDigits month - 1, ofDigits day⟩, rest) := by
  have hyphen : ∀ c ∈ ('-' :: (month ++ '-' :: (day ++ rest))).head?, c.isDigit = false := by simp
  simp only [readDate?, takeWhile_isDigit digits hyphen, dropWhile_isDigit digits hyphen,
    expect?_cons, readPair_append hm, readPair_append hd, Option.bind_eq_bind, Option.bind_some,
    if_neg filled]

/-- A date starts with a digit. -/
theorem readDate?_of_not_isDigit {cs : List Char} (h : ∀ c ∈ cs.head?, c.isDigit = false) :
    readDate? cs = none := by
  have year : cs.takeWhile Char.isDigit = [] := by
    cases cs with
    | nil => rfl
    | cons c cs => exact List.takeWhile_cons_of_neg (by simp [h c rfl])
  simp [readDate?, year]

theorem isDigit_of_mem_append_zeros (h : ∀ c ∈ ds, c.isDigit = true) :
    ∀ c ∈ ds ++ ['0', '0', '0'], c.isDigit = true :=
  List.forall_mem_append.2 ⟨h, by simp⟩

/-- The milliseconds of a fraction are those of the number that it denotes, cut off. -/
theorem millisOf_eq_div (h : ∀ c ∈ ds, c.isDigit = true) :
    millisOf ds = (ofDigits ds * 1000 / 10 ^ ds.length : Nat) := by
  have whole : ofDigits ds * 1000 =
      ofDigits ((ds ++ ['0', '0', '0']).take 3) * 10 ^ ds.length +
        ofDigits ((ds ++ ['0', '0', '0']).drop 3) := by
    have length : ((ds ++ ['0', '0', '0']).drop 3).length = ds.length := by simp
    have zero : ofDigits ['0', '0', '0'] = 0 := ofDigits_zeros 3
    rw [← length, ← ofDigits_append, List.take_append_drop, ofDigits_append, zero, Nat.add_zero]
    norm_num
  have rest : ofDigits ((ds ++ ['0', '0', '0']).drop 3) < 10 ^ ds.length := by
    have less : ofDigits ((ds ++ ['0', '0', '0']).drop 3) <
        10 ^ ((ds ++ ['0', '0', '0']).drop 3).length :=
      ofDigits_lt fun c hc => isDigit_of_mem_append_zeros h c (List.mem_of_mem_drop hc)
    simpa using less
  rw [millisOf, whole, Nat.add_comm, Nat.add_mul_div_right _ _ (Nat.pow_pos (by decide)),
    Nat.div_eq_of_lt rest, Nat.zero_add]

theorem millisOf_eq (h : ds.length = 3) : millisOf ds = ofDigits ds := by
  rw [millisOf, ← h, List.take_left]

theorem readMillis?_millisChars {f : Fields} (proper : f.IsProper) :
    readMillis? (millisChars f) = some (f.millis, []) := by
  obtain ⟨least, greatest⟩ := proper.millis
  rw [millisChars]
  split
  · next whole => rw [whole]; rfl
  · have run : ∀ c ∈ padded 3 f.millis.toNat, c.isDigit = true := fun c => isDigit_of_mem_padded
    have three : (padded 3 f.millis.toNat).length = 3 := length_padded (by decide) (by omega)
    have value : millisOf (padded 3 f.millis.toNat) = f.millis := by
      rw [millisOf_eq three, ofDigits_padded, Int.toNat_of_nonneg least]
    simp only [readMillis?, List.takeWhile_eq_self_iff.2 run, List.dropWhile_eq_nil_iff.2 run,
      padded_ne_nil, if_false, value]

/-- A space, three pairs with colons between them and a fraction are a time. -/
theorem readTime?_append {hours minutes seconds after : List Char} {millis : Int}
    (hh : IsPair hours) (hm : IsPair minutes) (hs : IsPair seconds)
    (fraction : readMillis? rest = some (millis, after)) :
    readTime? (' ' :: (hours ++ ':' :: (minutes ++ ':' :: (seconds ++ rest)))) =
      some (⟨ofDigits hours, ofDigits minutes, ofDigits seconds, millis⟩, after) := by
  have there : ¬ (decide ((' ' :: (hours ++ ':' :: (minutes ++ ':' :: (seconds ++ rest)))).length <
      9) || decide ((' ' :: (hours ++ ':' :: (minutes ++ ':' :: (seconds ++ rest)))).head? ≠
        some ' ')) = true := by
    simp only [List.length_cons, List.length_append, hh.length, hm.length, hs.length,
      List.head?_cons, ne_eq, not_true_eq_false, decide_false, Bool.or_false, decide_eq_true_eq]
    omega
  rw [readTime?, if_neg there, List.tail_cons]
  simp only [readPair_append hh, readPair_append hm, readPair_append hs, expect?_cons, fraction,
    Option.bind_eq_bind, Option.bind_some, Option.pure_def]

theorem readTime?_timeChars {f : Fields} (proper : f.IsProper) :
    readTime? (' ' :: timeChars f) = some (⟨f.hours, f.minutes, f.seconds, f.millis⟩, []) := by
  have fraction := readMillis?_millisChars proper
  obtain ⟨-, hours, minutes, seconds, -⟩ := proper
  have hp : IsPair (padded 2 f.hours.toNat) := isPair_padded (by omega)
  have mp : IsPair (padded 2 f.minutes.toNat) := isPair_padded (by omega)
  have sp : IsPair (padded 2 f.seconds.toNat) := isPair_padded (by omega)
  rw [timeChars, readTime?_append hp mp sp fraction]
  simp only [ofDigits_padded, Int.toNat_of_nonneg hours.1, Int.toNat_of_nonneg minutes.1,
    Int.toNat_of_nonneg seconds.1]

/-- The zone `+00` at the end is no exception: it is the offset of no seconds. -/
theorem readZone_plus (cs : List Char) :
    readZone ('+' :: cs) = (some ((readOffset cs).1 * 1000), (readOffset cs).2) := by
  rw [readZone]
  split
  · next utc =>
    obtain rfl := (List.cons.inj utc).2
    rfl
  · rfl

theorem readZone_minus (cs : List Char) :
    readZone ('-' :: cs) = (some (-(readOffset cs).1 * 1000), (readOffset cs).2) := by
  rw [readZone, if_neg (by simp)]

/-- Two digits that no colon follows are the hours of an offset. -/
theorem readOffset_hours (h : IsPair ds) (hr : rest.head? ≠ some ':') :
    readOffset (ds ++ rest) = ((ofDigits ds : Int) * 3600, rest) := by
  simp only [readOffset, readPair_append h]
  split
  · exact absurd rfl hr
  · rfl

/-- A hyphen after a date and two digits after it are the hours of a zone. -/
theorem readZone_hyphen (h : IsPair ds) (hr : rest.head? ≠ some ':') :
    readZone ('-' :: (ds ++ rest)) = (some (-((ofDigits ds : Int) * 3600) * 1000), rest) := by
  rw [readZone_minus, readOffset_hours h hr]

/-- What is written for proper fields from the year 0 on starts with their date. -/
theorem readDate?_dateChars {f : Fields} (proper : f.IsProper) (positive : 0 ≤ f.year)
    (rest : List Char) :
    readDate? (dateChars f ++ rest) = some (⟨f.year, f.month, f.day⟩, rest) := by
  have date := readDate?_append (padded_ne_nil 4 f.year.toNat) (fun _ => isDigit_of_mem_padded)
    proper.isPair_month proper.isPair_day rest
  have month : ((f.month + 1).toNat : Int) - 1 = f.month := by
    have := proper.date.month
    omega
  have day : (f.day.toNat : Int) = f.day := by
    have := proper.date.day
    omega
  rw [dateChars, Temporal.toList_pad_of_nonneg 4 positive, List.append_assoc, monthDayChars_append,
    date]
  simp only [ofDigits_padded, Int.toNat_of_nonneg positive, month, day]

/-- **What is written for proper fields spells them, without a zone,** from the year 0 on. -/
theorem parts?_stampChars {f : Fields} (proper : f.IsProper) (positive : 0 ≤ f.year) :
    parts? (stampChars f) = some ⟨f, none⟩ := by
  rw [parts?, stampChars, readDate?_dateChars proper positive]
  simp only [Option.bind_eq_bind, Option.bind_some, readTime?_timeChars proper]
  rfl

end Timestamp

end RowLiteral
