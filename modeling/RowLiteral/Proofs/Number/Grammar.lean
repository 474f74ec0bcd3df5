import Mathlib.Tactic.FieldSimp
import RowLiteral.Proofs.Number.Reading

/-!
# Number — the grammar of numerals

A numeral is written as a sign, which may be left out, digits, a point with digits after it, which
may be left out too, and an exponent or none (`WrittenNumeral`).  There is a digit on some side of
the point.  What is written denotes a rational number: the digits before the point and the fraction
after it, times a power of ten (`WrittenNumeral.value`).

* `numeral?_eq_some_iff`: the texts that are read as numerals are those that are written so, and
  what is read denotes the number that is written.
* `Range.integerOfText?_exact`: a text is read as an integer of 32 or 64 bits if and only if it is a
  numeral, with margins or none, and the integer part of its number is in range; then it is read as
  that integer part.  The shorter way for digits alone makes no difference.
-/

namespace RowLiteral.Number
open Text

/-! ### Digits and signs -/

/-- A sequence of decimal digits, or no digit. -/
structure DigitRun where
  chars : List Char
  digits : ∀ c ∈ chars, c.isDigit = true

/-- The digits at the start of a text. -/
def DigitRun.span (cs : List Char) : DigitRun :=
  ⟨cs.takeWhile Char.isDigit, fun _ => List.mem_takeWhile_imp⟩

/-- A sign, which may be left out. -/
inductive WrittenSign where
  | omitted | plus | minus

/-- The text of a sign. -/
def WrittenSign.chars : WrittenSign → List Char
  | .omitted => []
  | .plus => ['+']
  | .minus => ['-']

/-- Whether a sign is that of a negative number. -/
def WrittenSign.isMinus : WrittenSign → Bool
  | .omitted | .plus => false
  | .minus => true

variable {cs rest : List Char} {negative : Bool} {m : Numeral} {n : Int}

theorem readSign_append (s : WrittenSign) (hr : ∀ c ∈ rest.head?, c ≠ '-' ∧ c ≠ '+') :
    readSign (s.chars ++ rest) = (s.isMinus, rest) := by
  cases s with
  | omitted =>
      rw [WrittenSign.chars, List.nil_append, readSign.eq_def]
      split
      · exact absurd rfl (hr '-' rfl).1
      · exact absurd rfl (hr '+' rfl).2
      · rfl
  | plus => rfl
  | minus => rfl

theorem exists_of_readSign (cs : List Char) :
    ∃ s : WrittenSign, s.chars ++ (readSign cs).2 = cs ∧ s.isMinus = (readSign cs).1 := by
  rw [readSign.eq_def]
  split
  · exact ⟨.minus, rfl, rfl⟩
  · exact ⟨.plus, rfl, rfl⟩
  · exact ⟨.omitted, rfl, rfl⟩

/-- What starts with a digit does not start with a sign. -/
theorem ne_sign_of_isDigit {c : Char} (h : c.isDigit = true) : c ≠ '-' ∧ c ≠ '+' := by
  constructor <;> rintro rfl <;> exact absurd h (by decide)

theorem integer?_append (s : WrittenSign) (run : DigitRun) (filled : run.chars ≠ []) :
    integer? (s.chars ++ run.chars) = some (signed s.isMinus (ofDigits run.chars)) := by
  have unsigned : ∀ c ∈ run.chars.head?, c ≠ '-' ∧ c ≠ '+' := fun c hc =>
    ne_sign_of_isDigit (run.digits c (List.mem_of_mem_head? hc))
  have shape : (run.chars ≠ [] && run.chars.all Char.isDigit) = true := by
    rw [Bool.and_eq_true, decide_eq_true_eq, List.all_eq_true]
    exact ⟨filled, run.digits⟩
  rw [integer?, readSign_append s unsigned]
  exact if_pos shape

theorem exists_of_integer? (h : integer? cs = some n) : ∃ (s : WrittenSign) (run : DigitRun),
    run.chars ≠ [] ∧ s.chars ++ run.chars = cs ∧ signed s.isMinus (ofDigits run.chars) = n := by
  obtain ⟨s, text, sign⟩ := exists_of_readSign cs
  rw [integer?] at h
  dsimp only at h
  split at h
  · next shape =>
    rw [Bool.and_eq_true, decide_eq_true_eq, List.all_eq_true] at shape
    exact ⟨s, ⟨_, shape.2⟩, shape.1, text, by rw [sign, Option.some.inj h]⟩
  · cases h

/-! ### Exponents -/

/-- An exponent as it is written: its letter, a sign and digits. -/
structure WrittenExponent where
  letter : Char
  isLetter : letter = 'e' ∨ letter = 'E'
  sign : WrittenSign
  run : DigitRun
  filled : run.chars ≠ []

/-- The text of an exponent; none is written as nothing. -/
def exponentChars : Option WrittenExponent → List Char
  | none => []
  | some e => e.letter :: (e.sign.chars ++ e.run.chars)

/-- The exponent that is written; it is zero where none is. -/
def exponentValue : Option WrittenExponent → Int
  | none => 0
  | some e => signed e.sign.isMinus (ofDigits e.run.chars)

theorem exponent?_exponentChars (e : Option WrittenExponent) :
    exponent? (exponentChars e) = some (exponentValue e) := by
  cases e with
  | none => rfl
  | some e =>
      have letter : (e.letter = 'e' || e.letter = 'E') = true := by simpa using e.isLetter
      rw [exponentChars, exponent?, if_pos letter, integer?_append e.sign e.run e.filled]
      rfl

theorem exists_of_exponent? (h : exponent? cs = some n) :
    ∃ e, exponentChars e = cs ∧ exponentValue e = n := by
  cases cs with
  | nil => exact ⟨none, rfl, Option.some.inj h⟩
  | cons c cs =>
      rw [exponent?] at h
      split at h
      · next letter =>
        obtain ⟨s, run, filled, rfl, rfl⟩ := exists_of_integer? h
        exact ⟨some ⟨c, by simpa using letter, s, run, filled⟩, rfl, rfl⟩
      · cases h

/-- An exponent starts neither with a digit nor with a point. -/
theorem head?_exponentChars (e : Option WrittenExponent) :
    ∀ c ∈ (exponentChars e).head?, c.isDigit = false ∧ c ≠ '.' := by
  cases e with
  | none => simp [exponentChars]
  | some e =>
      rintro _ ⟨⟩
      rcases e.isLetter with letter | letter <;> rw [letter] <;> decide

/-! ### Numerals -/

/-- A numeral as it is written: a sign, the digits before the point, those after it, if there is a
point, and an exponent or none. -/
structure WrittenNumeral where
  sign : WrittenSign
  whole : DigitRun
  fraction : Option DigitRun
  filled : whole.chars ≠ [] ∨ ∃ run ∈ fraction, run.chars ≠ []
  exponent : Option WrittenExponent

namespace WrittenNumeral

variable (w : WrittenNumeral)

/-- The digits after the point. -/
def fractionDigits : List Char := (w.fraction.map DigitRun.chars).getD []

/-- The text of a numeral, without its sign. -/
def unsignedChars : List Char :=
  w.whole.chars ++ match w.fraction with
    | none => exponentChars w.exponent
    | some run => '.' :: (run.chars ++ exponentChars w.exponent)

/-- The text of a numeral. -/
def chars : List Char := w.sign.chars ++ w.unsignedChars

/-- The number that is written, without its sign. -/
def magnitude : ℚ :=
  (ofDigits w.whole.chars + ofDigits w.fractionDigits / 10 ^ w.fractionDigits.length) *
    10 ^ exponentValue w.exponent

/-- The number that is written. -/
def value : ℚ := withSign w.sign.isMinus w.magnitude

/-- The numeral that is read: the digits on both sides of the point make the coefficient. -/
def numeral : Numeral :=
  ⟨w.sign.isMinus, ofDigits (w.whole.chars ++ w.fractionDigits),
    exponentValue w.exponent - w.fractionDigits.length⟩

/-- What is read denotes what is written. -/
theorem value_numeral : w.numeral.value = w.value := by
  have ten : (10 : ℚ) ≠ 0 := by norm_num
  rw [value, Numeral.value, numeral, magnitude]
  congr 1
  rw [scaled, ofDigits_append, zpow_sub₀ ten, zpow_natCast]
  push_cast
  field_simp

/-- What is written is read. -/
theorem unsigned?_unsignedChars (negative : Bool) :
    unsigned? negative w.unsignedChars = some ⟨negative, w.numeral.coefficient,
      w.numeral.exponent⟩ := by
  obtain ⟨sign, whole, fraction, filled, exponent⟩ := w
  have power := exponent?_exponentChars exponent
  have ends := head?_exponentChars exponent
  cases fraction with
  | none =>
      have digits : whole.chars ≠ [] := filled.resolve_right fun ⟨_, point, _⟩ => nomatch point
      rw [unsignedChars, unsigned?_whole negative digits whole.digits ends power]
      simp [numeral, fractionDigits]
  | some run =>
      have digits : whole.chars ≠ [] ∨ run.chars ≠ [] :=
        filled.imp_right fun ⟨_, point, digits⟩ => Option.some.inj point ▸ digits
      exact unsigned?_point negative digits whole.digits run.digits (fun c hc => (ends c hc).1)
        power

theorem ne_sign_of_unsignedChars : ∀ c ∈ w.unsignedChars.head?, c ≠ '-' ∧ c ≠ '+' := by
  have read := readSign_of_unsigned? (w.unsigned?_unsignedChars false)
  intro c hc
  obtain ⟨rest, text⟩ : ∃ rest, w.unsignedChars = c :: rest := List.head?_eq_some_iff.1 hc
  rw [text] at read
  constructor <;> rintro rfl <;> simp [readSign] at read

theorem numeral?_chars : numeral? w.chars = some w.numeral := by
  rw [numeral?, chars, readSign_append w.sign w.ne_sign_of_unsignedChars]
  exact w.unsigned?_unsignedChars w.sign.isMinus

end WrittenNumeral

/-- What is read as a numeral is written as one. -/
theorem exists_of_unsigned? (s : WrittenSign) (h : unsigned? s.isMinus cs = some m) :
    ∃ w : WrittenNumeral, w.sign = s ∧ w.unsignedChars = cs ∧ w.numeral = m := by
  rw [unsigned?, readMantissa.eq_def] at h
  dsimp only at h
  have whole := List.takeWhile_append_dropWhile (p := Char.isDigit) (l := cs)
  split at h
  · next after point =>
    have fraction := List.takeWhile_append_dropWhile (p := Char.isDigit) (l := after)
    dsimp only at h
    split at h
    · cases h
    · next filled =>
      obtain ⟨k, power, rfl⟩ := Option.map_eq_some_iff.1 h
      obtain ⟨e, text, rfl⟩ := exists_of_exponent? power
      rw [Bool.and_eq_true, decide_eq_true_eq, decide_eq_true_eq, not_and_or] at filled
      refine ⟨⟨s, .span cs, some (.span after), filled.imp_right fun digits => ⟨_, rfl, digits⟩, e⟩,
        rfl, ?_, rfl⟩
      rw [point, ← fraction, ← text] at whole
      exact whole
  · dsimp only at h
    split at h
    · cases h
    · next filled =>
      obtain ⟨k, power, rfl⟩ := Option.map_eq_some_iff.1 h
      obtain ⟨e, text, rfl⟩ := exists_of_exponent? power
      have digits : cs.takeWhile Char.isDigit ≠ [] := by simpa using filled
      refine ⟨⟨s, .span cs, none, .inl digits, e⟩, rfl, ?_, rfl⟩
      rw [← text] at whole
      exact whole

/-- **The texts that are read as numerals are those that are written as such.** -/
theorem numeral?_eq_some_iff :
    numeral? cs = some m ↔ ∃ w : WrittenNumeral, w.chars = cs ∧ w.numeral = m := by
  constructor
  · intro h
    obtain ⟨s, text, sign⟩ := exists_of_readSign cs
    rw [numeral?] at h
    dsimp only at h
    rw [← sign] at h
    obtain ⟨w, rfl, unsigned, read⟩ := exists_of_unsigned? s h
    exact ⟨w, by rw [WrittenNumeral.chars, unsigned, text], read⟩
  · rintro ⟨w, rfl, rfl⟩
    exact w.numeral?_chars

/-! ### Integers within bounds -/

namespace Range

variable {r : Range}

theorem keep?_eq_some_iff {k : Int} :
    r.keep? k = some n ↔ k = n ∧ r.least ≤ n ∧ n ≤ r.greatest := by
  rw [keep?, Option.ite_none_right_eq_some, Option.some.injEq, Bool.and_eq_true,
    decide_eq_true_eq, decide_eq_true_eq, and_comm]
  exact and_congr_right fun same => by rw [same]

/-- The integers of a range that are read are the integer parts of the numbers that are written. -/
theorem integerOfText?_eq_some_iff (around : r.IsAroundZero) (text : String) (n : Int) :
    r.integerOfText? text = some n ↔
      ∃ w : WrittenNumeral, w.chars = trimChars text.toList ∧ truncated w.value = n ∧
        r.least ≤ n ∧ n ≤ r.greatest := by
  rw [integerOfText?, integerOfChars?_eq around, Option.bind_eq_some_iff]
  simp only [keep?_eq_some_iff]
  constructor
  · rintro ⟨m, read, part, within⟩
    obtain ⟨w, chars, rfl⟩ := numeral?_eq_some_iff.1 read
    exact ⟨w, chars, by rw [← w.value_numeral, part], within⟩
  · rintro ⟨w, chars, part, within⟩
    exact ⟨w.numeral, numeral?_eq_some_iff.2 ⟨w, chars, rfl⟩, by rw [w.value_numeral, part],
      within⟩

/-- The way by decimals alone: the integer part of the decimal that a text spells, if that is in
the range. -/
def integerOfDecimal? (r : Range) (text : String) : Option Int :=
  (Decimal.ofText? text).bind fun d => (d.truncateBelow? r.digitBound).bind r.keep?

/-- The way for digits alone makes no difference. -/
theorem integerOfDecimal?_eq (around : r.IsAroundZero) (text : String) :
    r.integerOfDecimal? text = r.integerOfText? text := by
  rw [integerOfText?, integerOfChars?_eq around, integerOfDecimal?, Decimal.ofText?,
    Decimal.ofChars?, Option.bind_map]
  exact congrArg (numeral? (trimChars text.toList)).bind
    (funext fun m => r.keep?_ofScaled around _ _ _)

/-- **Integers are read exactly.**  What is read as an integer of 32 or 64 bits is a numeral, but
for margins, and the integer is the integer part of its number; every numeral with an integer part
in the range is read.  Digits alone are read as any other numeral is. -/
theorem integerOfText?_exact (text : String) (n : Int) :
    (int32.integerOfText? text = some n ↔
      ∃ w : WrittenNumeral, w.chars = trimChars text.toList ∧ truncated w.value = n ∧
        -2 ^ 31 ≤ n ∧ n ≤ 2 ^ 31 - 1) ∧
    (int64.integerOfText? text = some n ↔
      ∃ w : WrittenNumeral, w.chars = trimChars text.toList ∧ truncated w.value = n ∧
        -2 ^ 63 ≤ n ∧ n ≤ 2 ^ 63 - 1) ∧
    int32.integerOfDecimal? text = int32.integerOfText? text ∧
      int64.integerOfDecimal? text = int64.integerOfText? text :=
  ⟨integerOfText?_eq_some_iff isAroundZero_int32 text n,
    integerOfText?_eq_some_iff isAroundZero_int64 text n,
    integerOfDecimal?_eq isAroundZero_int32 text, integerOfDecimal?_eq isAroundZero_int64 text⟩

/-- A fraction just beyond a bound is in the range, and so is a number below all decimals. -/
example : int32.integerOfText? " +2147483647.9 " = some 2147483647 ∧
    int32.integerOfText? "2147483648.0" = none ∧
    int64.integerOfText? "-9223372036854775808.5e0" = some (-9223372036854775808) ∧
    int64.integerOfText? "1e-9000000000000001" = some 0 := by decide +kernel

end Range

end RowLiteral.Number
