import RowLiteral.Proofs.Double.Text
import RowLiteral.Proofs.Row.Request

/-!
# Row — numbers on request

A number is converted to another kind of number through its text.  The text of an integer of 64 bits
or of a decimal spells the number exactly, in the plain layout and in the one with an exponent.  An
`int2` and an `int4` are doubles with a whole number: their text spells the same number up to 53
bits, and beyond that one at most one part in `2 ^ 53` away (`Scalar.Rounds`).  What a text spells
is then read exactly: as a decimal, or as its integer part if that is in range (`Retyped`).

* `Row.attributesAs_number`: what a request makes of a number in a row.
-/

namespace RowLiteral
open Number

/-- A scalar holds a number: an `int2` or an `int4` a whole one, a decimal a finite one. -/
inductive Scalar.Holds : Scalar → ℚ → Prop where
  | int2 {x : Double} {n : Int} (whole : x.toInt? = some n) : Holds (.int2 x) n
  | int4 {x : Double} {n : Int} (whole : x.toInt? = some n) : Holds (.int4 x) n
  | int8 (n : Int) : Holds (.int8 n) n
  | decimal {d : Decimal} {q : ℚ} (finite : d.value? = some q) : Holds (.decimal d) q

/-- An integer lies in a range. -/
def Number.Range.Contains (r : Range) (n : Int) : Prop := r.least ≤ n ∧ n ≤ r.greatest

/-- What a number with a text becomes as a value of a target: the same number as a decimal, or its
integer part unless that is out of range. -/
inductive Retyped (text : String) (q : ℚ) : Target → Except CodecError Scalar → Prop where
  | decimal {d : Decimal} (same : d.value? = some q) : Retyped text q .decimal (.ok (.decimal d))
  | integer {x : Double} (within : Range.int32.Contains (truncated q))
      (whole : x.toInt? = some (truncated q)) : Retyped text q .integer (.ok (.int4 x))
  | notInteger (outside : ¬ Range.int32.Contains (truncated q)) :
      Retyped text q .integer (.error (.invalidValue "integer" text))
  | long (within : Range.int64.Contains (truncated q)) :
      Retyped text q .long (.ok (.int8 (truncated q)))
  | notLong (outside : ¬ Range.int64.Contains (truncated q)) :
      Retyped text q .long (.error (.invalidValue "long" text))

variable {text : String} {q : ℚ} {x : Scalar} {r : Range} {n : Int}

/-! ### From a text -/

theorem Target.ofName?_name (target : Target) : ofName? target.name = some target := by
  cases target <;> rfl

theorem Number.Range.keep?_cases (r : Range) (n : Int) :
    r.Contains n ∧ r.keep? n = some n ∨ ¬ r.Contains n ∧ r.keep? n = none := by
  have test : (r.least ≤ n && n ≤ r.greatest) = true ↔ r.Contains n := by
    rw [Bool.and_eq_true, decide_eq_true_eq, decide_eq_true_eq, Contains]
  by_cases within : r.Contains n
  · exact .inl ⟨within, if_pos (test.2 within)⟩
  · exact .inr ⟨within, if_neg fun kept => within (test.1 kept)⟩

theorem Double.toInt?_of_contains (h : Range.int32.Contains n) : (ofInt n).toInt? = some n := by
  obtain ⟨low, high⟩ := h
  refine toInt?_ofInt ?_
  simp only [Range.int32] at low high
  omega

/-- A text that spells a number is converted to that number. -/
theorem exists_retyped {target : Target} (numeric : target ∈ [.decimal, .integer, .long])
    (spells : Spells text q) (limits : target = .decimal → Decimal.InLimits q)
    (reader : TemporalReader) (calendar : Calendar) :
    ∃ outcome, Retyped text q target outcome ∧
      convert reader calendar target text = outcome.map Value.scalar := by
  have plain : target ≠ .timestamp := by
    rintro rfl
    simp at numeric
  rw [convert_of_ne_timestamp plain]
  cases target with
  | decimal =>
      obtain ⟨d, read, value⟩ := exists_decimal_of_spells spells (limits rfl)
      refine ⟨.ok (.decimal d), .decimal value, ?_⟩
      rw [Target.ofText?, read]
      rfl
  | integer =>
      rw [Target.ofText?, Range.integerOfText?_of_spells Range.isAroundZero_int32 spells]
      rcases Range.int32.keep?_cases (truncated q) with ⟨within, kept⟩ | ⟨outside, lost⟩
      · exact ⟨_, .integer within (Double.toInt?_of_contains within), by rw [kept]; rfl⟩
      · exact ⟨_, .notInteger outside, by rw [lost]; rfl⟩
  | long =>
      rw [Target.ofText?, Range.integerOfText?_of_spells Range.isAroundZero_int64 spells]
      rcases Range.int64.keep?_cases (truncated q) with ⟨within, kept⟩ | ⟨outside, lost⟩
      · exact ⟨_, .long within, by rw [kept]; rfl⟩
      · exact ⟨_, .notLong outside, by rw [lost]; rfl⟩
  | double | string | boolean | timestamp => simp at numeric

/-! ### Texts of numbers -/

theorem Decimal.spells_toText {d : Decimal} (finite : d.value? = some q) : Spells d.toText q := by
  cases d with
  | nan => exact absurd finite nofun
  | infinity => exact absurd finite nofun
  | finite negative c e stripped =>
      obtain rfl := Option.some.inj finite
      exact spells_signedLayout negative c e

/-- A whole number in place of one of more than 53 bits in an `int2` or an `int4`, at most one part
in `2 ^ 53` away. -/
def Scalar.Rounds (x : Scalar) (q p : ℚ) : Prop :=
  (x.kind = .int2 ∨ x.kind = .int4) ∧ ∃ n k : Int, q = n ∧ p = k ∧
    2 ^ 53 ≤ n.natAbs ∧ (k - n).natAbs * 2 ^ 53 ≤ n.natAbs

/-- What the text of a whole double spells, if it is not that double. -/
theorem Double.exists_text {y : Double} (whole : y.toInt? = some n)
    (kind : x.kind = .int2 ∨ x.kind = .int4) : ∃ p, Spells y.toText p ∧
      (p = n ∨ x.Rounds n p) ∧ Decimal.InLimits p := by
  obtain ⟨k, spells, near, small⟩ := exists_spells_toText whole
  refine ⟨k, spells, ?_, Decimal.inLimits_intCast small⟩
  by_cases large : 2 ^ 53 ≤ n.natAbs
  · exact .inr ⟨kind, n, k, rfl, rfl, large, near⟩
  · have same : k = n := by omega
    exact .inl (by rw [same])

/-- The text of a number spells it, but for integers that double precision does not show. -/
theorem Scalar.Holds.exists_text (holds : x.Holds q) (zone : Zone) :
    ∃ text p, x.text? zone = some text ∧ Spells text p ∧ (p = q ∨ x.Rounds q p) ∧
      (x.kind ≠ .decimal → (x.kind = .int8 → |q| < 10 ^ (Decimal.exponentLimit + 1)) →
        Decimal.InLimits p) := by
  cases holds with
  | int2 whole =>
      obtain ⟨p, spells, same, limits⟩ := Double.exists_text (x := .int2 _) whole (.inl rfl)
      exact ⟨_, p, rfl, spells, same, fun _ _ => limits⟩
  | int4 whole =>
      obtain ⟨p, spells, same, limits⟩ := Double.exists_text (x := .int4 _) whole (.inr rfl)
      exact ⟨_, p, rfl, spells, same, fun _ _ => limits⟩
  | int8 n =>
      exact ⟨_, n, rfl, spells_toString n, .inl rfl, fun _ small =>
        Decimal.inLimits_intCast (small rfl)⟩
  | decimal finite =>
      exact ⟨_, q, rfl, Decimal.spells_toText finite, .inl rfl, fun other => absurd rfl other⟩

/-- An integer that is rounded in its text is out of the range of an `int4`, and so is the text. -/
theorem Retyped.of_rounds {p : ℚ} {outcome : Except CodecError Scalar} (rounds : x.Rounds q p)
    (h : Retyped text p .integer outcome) : Retyped text q .integer outcome := by
  obtain ⟨-, n, k, rfl, rfl, large, near⟩ := rounds
  have outside : ∀ {i : Int}, 2 ^ 52 ≤ i.natAbs → ¬ Range.int32.Contains (truncated i) := by
    rintro i huge ⟨low, high⟩
    simp only [truncated_intCast, Range.int32] at low high
    omega
  cases h with
  | integer within => exact absurd within (outside (by omega))
  | notInteger => exact .notInteger (outside (by omega))

/-! ### Rows -/

namespace Row

variable {s : Session} {request : Table String String} {before after : List (Column × Attribute)}
  {c : Column} {target : Target} {bs : List Attribute}

theorem attributesAs_of_place {r : Row} {a : Attribute}
    (place : r.type.columns.zip r.attributes = before ++ (c, a) :: after)
    (earlier : (before.mapM fun e =>
      convertAttribute s r.header.calendar request e.1 e.2) = .ok bs) :
    r.attributesAs s request =
      (convertAttribute s r.header.calendar request c a).bind fun b =>
        (after.mapM fun e => convertAttribute s r.header.calendar request e.1 e.2).map fun as =>
          bs ++ b :: as := by
  rw [attributesAs, place, mapM_append_cons earlier]

/-- **What a number becomes on request.**  The number that its text spells becomes a decimal, or its
integer part if that is in range, and is refused with its text otherwise.  That is the number itself
but for an `int2` or an `int4` of more than 53 bits, where it is at most one part in `2 ^ 53` away;
for an integer of 32 bits it makes no difference. -/
theorem attributesAs_number (s : Session) (r : Row) (request : Table String String)
    (place : r.type.columns.zip r.attributes = before ++ (c, some (.scalar x)) :: after)
    (earlier : (before.mapM fun e =>
      convertAttribute s r.header.calendar request e.1 e.2) = .ok bs)
    (holds : x.Holds q) (asked : request.get? c.typeName = some target.name)
    (numeric : target ∈ [.decimal, .integer, .long]) (other : target.accepts x.kind = false)
    (limit : target = .decimal → x.kind = .int8 → |q| < 10 ^ (Decimal.exponentLimit + 1)) :
    ∃ text p outcome, x.text? (r.header.calendar.zone s.machine) = some text ∧
      (target = .integer → p = q) ∧
      (target ≠ .integer → Spells text p ∧ (p = q ∨ x.Rounds q p)) ∧
      Retyped text p target outcome ∧
      r.attributesAs s request = outcome.bind fun y =>
        (after.mapM fun e => convertAttribute s r.header.calendar request e.1 e.2).map fun as =>
          bs ++ some (.scalar y) :: as := by
  obtain ⟨text, p, written, spells, same, limits⟩ :=
    holds.exists_text (r.header.calendar.zone s.machine)
  have decimal : target = .decimal → Decimal.InLimits p := by
    rintro rfl
    refine limits (fun kind => ?_) (limit rfl)
    rw [kind] at other
    exact absurd other nofun
  obtain ⟨outcome, retyped, converted⟩ := exists_retyped numeric spells decimal s.reader
    r.header.calendar
  have string : conversionText s.machine r.header.calendar (.scalar x) = text := by
    show (x.text? (r.header.calendar.zone s.machine)).getD "null" = text
    rw [written, Option.getD_some]
  have known := Target.ofName?_name target
  have answer : convertAttribute s r.header.calendar request c (some (.scalar x)) =
      outcome.map fun y => some (.scalar y) := by
    rw [convertAttribute_of_asked asked, convertValue?_of_other (v := .scalar x) known other,
      string, convertText_of_target _ known, converted]
    cases outcome <;> rfl
  have row : r.attributesAs s request = outcome.bind fun y =>
      (after.mapM fun e => convertAttribute s r.header.calendar request e.1 e.2).map fun as =>
        bs ++ some (.scalar y) :: as := by
    rw [attributesAs_of_place place earlier, answer]
    cases outcome <;> rfl
  by_cases integer : target = .integer
  · subst integer
    have unrounded : Retyped text q .integer outcome := by
      rcases same with rfl | rounds
      · exact retyped
      · exact .of_rounds rounds retyped
    exact ⟨text, q, outcome, written, fun _ => rfl, fun other => absurd rfl other, unrounded, row⟩
  · exact ⟨text, p, outcome, written, fun same => absurd same integer, fun _ => ⟨spells, same⟩,
      retyped, row⟩

theorem abs_lt_of_digits {n : Int} (digits : |(n : ℚ)| < 10 ^ (20 : Int)) :
    |(n : ℚ)| < 10 ^ (Decimal.exponentLimit + 1) := by
  have ten : (1 : ℚ) ≤ 10 := by norm_num
  exact digits.trans_le (zpow_le_zpow_right₀ ten (by decide))

/-- A row type of numbers of three kinds. -/
def tallyType : RowType :=
  ⟨"tally", [⟨"count", "int4", ColumnType.int4.id⟩, ⟨"total", "int8", ColumnType.int8.id⟩,
    ⟨"mean", "numeric", ColumnType.numeric.id⟩]⟩

/-- A row of that type with a total beyond the range of an `int8`. -/
def tally : Row :=
  ⟨Session.utc.header tallyType, [some (.scalar (.ofInt4 42)),
    some (.scalar (.int8 12345678901234567890)),
    some (.scalar (.decimal (.ofScaled true 25 (-1))))]⟩

theorem attributesAs_number_tally :
    (∃ d : Decimal, d.value? = some (12345678901234567890 : Int) ∧
      tally.attributesAs .utc [("int8", "decimal")] = .ok [some (.scalar (.ofInt4 42)),
        some (.scalar (.decimal d)), some (.scalar (.decimal (.ofScaled true 25 (-1))))]) ∧
      tally.attributesAs .utc [("int8", "integer")] =
        .error (.invalidValue "integer" "12345678901234567890") := by
  have place : tally.type.columns.zip tally.attributes =
      [(⟨"count", "int4", ColumnType.int4.id⟩, some (.scalar (.ofInt4 42)))] ++
        (⟨"total", "int8", ColumnType.int8.id⟩, some (.scalar (.int8 12345678901234567890))) ::
          [(⟨"mean", "numeric", ColumnType.numeric.id⟩,
            some (.scalar (.decimal (.ofScaled true 25 (-1)))))] := rfl
  constructor
  · have small : |((12345678901234567890 : Int) : ℚ)| < 10 ^ (Decimal.exponentLimit + 1) :=
      abs_lt_of_digits (by norm_num)
    have asked : Table.get? [("int8", "decimal")] "int8" = some Target.decimal.name := rfl
    obtain ⟨text, p, outcome, written, -, spelled, retyped, row⟩ :=
      attributesAs_number .utc tally [("int8", "decimal")] place rfl (.int8 _) asked (by decide) rfl
        fun _ _ => small
    obtain ⟨-, same⟩ := spelled (by decide)
    obtain rfl := same.resolve_right fun ⟨kind, _⟩ => absurd kind (by decide)
    cases retyped with
    | decimal value => exact ⟨_, value, row⟩
  · have asked : Table.get? [("int8", "integer")] "int8" = some Target.integer.name := rfl
    obtain ⟨text, p, outcome, written, same, -, retyped, row⟩ :=
      attributesAs_number .utc tally [("int8", "integer")] place rfl (.int8 _) asked (by decide) rfl
        nofun
    obtain rfl := same rfl
    obtain rfl := Option.some.inj written
    cases retyped with
    | integer within =>
        rw [truncated_intCast] at within
        exact absurd within.2 (by decide)
    | notInteger => exact row

/-- A row of one number, with 61 bits. -/
def wide : Row :=
  ⟨Session.utc.header ⟨"wide", [⟨"count", "int4", ColumnType.int4.id⟩]⟩,
    [some (.scalar (.ofInt4 (2 ^ 60)))]⟩

/-- The text of `2 ^ 60` in an `int4` ends in three zeros. -/
theorem not_attributesAs_number :
    ¬ ∀ (s : Session) (r : Row) (request : Table String String) (c : Column) (x : Scalar) (q : ℚ),
      r.type.columns.zip r.attributes = [(c, some (.scalar x))] → x.Holds q →
      request.get? c.typeName = some "decimal" → x.kind ≠ .decimal →
      |q| < 10 ^ (Decimal.exponentLimit + 1) →
      ∃ d : Decimal, d.value? = some q ∧
        r.attributesAs s request = .ok [some (.scalar (.decimal d))] := by
  intro h
  have whole : (Double.ofInt (2 ^ 60)).toInt? = some (2 ^ 60) := by decide +kernel
  obtain ⟨d, value, answer⟩ := h .utc wide [("int4", "decimal")] _ _ _ rfl (.int4 whole) rfl
    (by decide) (abs_lt_of_digits (by norm_num))
  have shown : wide.attributesAs .utc [("int4", "decimal")] =
      .ok [some (.scalar (.decimal (.ofScaled false 1152921504606847 3)))] := by
    rfl
  rw [shown] at answer
  obtain rfl : Decimal.ofScaled false 1152921504606847 3 = d := by
    simpa using Except.ok.inj answer
  have digits : withSign false (scaled 1152921504606847 3) = (1152921504606847000 : Int) := by
    norm_num [withSign, scaled]
  rw [Decimal.value?_ofScaled (digits ▸ Decimal.inLimits_intCast (abs_lt_of_digits (by norm_num))),
    digits] at value
  exact absurd (Int.cast_injective (Option.some.inj value)) (by decide)

end Row

end RowLiteral
