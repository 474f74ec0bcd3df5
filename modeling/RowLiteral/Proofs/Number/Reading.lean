import Mathlib.Data.List.Basic
import Mathlib.Data.List.TakeWhile
import RowLiteral.Number.Integer
import RowLiteral.Proofs.Number.Value

/-!
# Number — reading numbers

A numeral is read from the digits before and after its point and from its exponent
(`unsigned?_whole`, `unsigned?_point`).  The layouts in which numbers are written are of these
shapes, so a reader of numerals finds in them the number that was written.  Bounded integers have a
second reader, for digits alone; it agrees with the reader of numerals, as a range is left only by
numbers with more digits than its bounds (`Range.keep?_of_tenPow_le`).

* `Range.integerOfChars?_eq`: an integer within bounds is read as the integer part of the number
  that a text denotes, on both ways.
* `spells_toString`, `spells_signedLayout`: what is written for a number spells that number.
* `exists_decimal_of_spells`: a decimal is read from a text as the number that the text spells.
-/

namespace RowLiteral.Number
open Text

variable {ws fs rest cs : List Char} {k n : Int} {c : Nat} {negative : Bool} {r : Range}

/-! ### Numerals -/

/-- Digits, and what follows them, without a point. -/
theorem unsigned?_whole (negative : Bool) (filled : ws ≠ [])
    (digits : ∀ c ∈ ws, c.isDigit = true) (hr : ∀ c ∈ rest.head?, c.isDigit = false ∧ c ≠ '.')
    (he : exponent? rest = some k) :
    unsigned? negative (ws ++ rest) = some ⟨negative, ofDigits ws, k⟩ := by
  have ends : ∀ c ∈ rest.head?, c.isDigit = false := fun c hc => (hr c hc).1
  have mantissa : readMantissa (ws ++ rest) = (ws, [], rest) := by
    rw [readMantissa, takeWhile_isDigit digits ends, dropWhile_isDigit digits ends]
    split
    · next cs => exact absurd rfl (hr '.' rfl).2
    · rfl
  simp [unsigned?, mantissa, filled, he]

/-- Digits with a point before, among or after them, and what follows them. -/
theorem unsigned?_point (negative : Bool) (filled : ws ≠ [] ∨ fs ≠ [])
    (digits : ∀ c ∈ ws, c.isDigit = true) (fraction : ∀ c ∈ fs, c.isDigit = true)
    (hr : ∀ c ∈ rest.head?, c.isDigit = false) (he : exponent? rest = some k) :
    unsigned? negative (ws ++ '.' :: (fs ++ rest)) =
      some ⟨negative, ofDigits (ws ++ fs), k - fs.length⟩ := by
  have point : ∀ c ∈ ('.' :: (fs ++ rest)).head?, c.isDigit = false := by simp
  have mantissa : readMantissa (ws ++ '.' :: (fs ++ rest)) = (ws, fs, rest) := by
    rw [readMantissa, takeWhile_isDigit digits point, dropWhile_isDigit digits point]
    simp only [takeWhile_isDigit fraction hr, dropWhile_isDigit fraction hr]
  have digitless : ¬ (ws = [] && fs = []) = true := by
    rw [Bool.and_eq_true, decide_eq_true_eq, decide_eq_true_eq, not_and_or]
    exact filled
  rw [unsigned?, mantissa]
  simp only [if_neg digitless, he, Option.map_some]

theorem signed_eq_withSign (negative : Bool) (c : Nat) :
    ((signed negative c : Int) : ℚ) = withSign negative (scaled c 0) := by
  cases negative <;> simp [signed, withSign, scaled]

/-- An integer in digits is a numeral that denotes it. -/
theorem numeral?_of_integer? (h : integer? cs = some n) :
    ∃ m, numeral? cs = some m ∧ m.value = n := by
  rw [integer?] at h
  rcases sign : readSign cs with ⟨negative, ds⟩
  simp only [sign] at h
  split at h
  · next shape =>
      obtain rfl := Option.some.inj h
      simp only [Bool.and_eq_true, decide_eq_true_eq, List.all_eq_true] at shape
      have read := unsigned?_whole negative shape.1 shape.2 (show ∀ c ∈ [].head?, _ by simp)
        (show exponent? [] = some 0 from rfl)
      rw [List.append_nil] at read
      refine ⟨⟨negative, ofDigits ds, 0⟩, ?_, (signed_eq_withSign _ _).symm⟩
      rw [numeral?, sign]
      exact read
  · exact absurd h nofun

/-! ### The characters of numerals -/

/-- A digit, a sign, the point or the letter of an exponent. -/
def isNumeralChar (c : Char) : Bool :=
  c.isDigit || c == '+' || c == '-' || c == '.' || c == 'e' || c == 'E'

theorem isNumeralChar_of_isDigit {c : Char} (h : c.isDigit = true) : isNumeralChar c = true := by
  simp [isNumeralChar, h]

theorem isMargin_of_isNumeralChar {c : Char} (h : isNumeralChar c = true) :
    isMargin c = false := by
  simp only [isNumeralChar, Bool.or_eq_true, beq_iff_eq] at h
  rcases h with ((((digit | rfl) | rfl) | rfl) | rfl) | rfl
  · exact isMargin_of_isDigit digit
  all_goals rfl

theorem isNumeralChar_of_mem_readSign (rest : ∀ c ∈ (readSign cs).2, isNumeralChar c = true) :
    ∀ c ∈ cs, isNumeralChar c = true := by
  rw [readSign.eq_def] at rest
  split at rest
  · exact List.forall_mem_cons.2 ⟨rfl, rest⟩
  · exact List.forall_mem_cons.2 ⟨rfl, rest⟩
  · exact rest

theorem isNumeralChar_of_integer? (h : integer? cs = some n) :
    ∀ c ∈ cs, isNumeralChar c = true := by
  rw [integer?] at h
  refine isNumeralChar_of_mem_readSign fun c hc => ?_
  dsimp only at h
  split at h
  · next shape =>
      simp only [Bool.and_eq_true, decide_eq_true_eq, List.all_eq_true] at shape
      exact isNumeralChar_of_isDigit (shape.2 c hc)
  · exact absurd h nofun

theorem isNumeralChar_of_exponent? (h : exponent? cs = some n) :
    ∀ c ∈ cs, isNumeralChar c = true := by
  cases cs with
  | nil => simp
  | cons c cs =>
      rw [exponent?] at h
      split at h
      · next letter =>
          refine List.forall_mem_cons.2 ⟨?_, isNumeralChar_of_integer? h⟩
          simp only [Bool.or_eq_true, decide_eq_true_eq] at letter
          rcases letter with rfl | rfl <;> rfl
      · exact absurd h nofun

theorem isNumeralChar_of_unsigned? {m : Numeral} (h : unsigned? negative cs = some m) :
    ∀ c ∈ cs, isNumeralChar c = true := by
  have digits (cs : List Char) : ∀ c ∈ cs.takeWhile Char.isDigit, isNumeralChar c = true :=
    fun c hc => isNumeralChar_of_isDigit (List.mem_takeWhile_imp hc)
  have power {whole fraction rest : List Char} {m : Numeral}
      (h : (if (whole = [] && fraction = []) = true then none
        else (exponent? rest).map fun e =>
          (⟨negative, ofDigits (whole ++ fraction), e - fraction.length⟩ : Numeral)) = some m) :
      ∀ c ∈ rest, isNumeralChar c = true := by
    split at h
    · exact absurd h nofun
    · obtain ⟨e, read, -⟩ := Option.map_eq_some_iff.1 h
      exact isNumeralChar_of_exponent? read
  rw [unsigned?, readMantissa.eq_def] at h
  rw [← List.takeWhile_append_dropWhile (p := Char.isDigit) (l := cs), List.forall_mem_append]
  refine ⟨digits cs, ?_⟩
  dsimp only at h
  split at h
  · next rest point =>
      rw [point, List.forall_mem_cons,
        ← List.takeWhile_append_dropWhile (p := Char.isDigit) (l := rest), List.forall_mem_append]
      exact ⟨rfl, digits rest, power h⟩
  · exact power h

/-- A numeral has no margins. -/
theorem trimChars_of_numeral? {m : Numeral} (h : numeral? cs = some m) : trimChars cs = cs :=
  trimChars_of_forall fun c hc => isMargin_of_isNumeralChar
    (isNumeralChar_of_mem_readSign (isNumeralChar_of_unsigned? h) c hc)

/-! ### Integers within bounds -/

/-- A range of integers around zero that decimals reach beyond. -/
structure Range.IsAroundZero (r : Range) : Prop where
  zero : r.least ≤ 0 ∧ 0 ≤ r.greatest
  digits : 0 < r.digitBound ∧ (r.digitBound : Int) ≤ Decimal.exponentLimit

theorem Range.isAroundZero_int32 : Range.int32.IsAroundZero := ⟨by decide, by decide⟩

theorem Range.isAroundZero_int64 : Range.int64.IsAroundZero := ⟨by decide, by decide⟩

/-- An integer with more digits than the bounds is out of range. -/
theorem Range.keep?_of_tenPow_le {m : Nat} (h : 10 ^ r.digitBound ≤ m) (negative : Bool) :
    r.keep? (signed negative m) = none := by
  have least := lt_tenPow_digitCount r.least.natAbs
  have greatest := lt_tenPow_digitCount r.greatest.natAbs
  have below : 10 ^ digitCount r.least.natAbs ≤ 10 ^ r.digitBound :=
    Nat.pow_le_pow_right (by decide) (Nat.le_max_left _ _)
  have above : 10 ^ digitCount r.greatest.natAbs ≤ 10 ^ r.digitBound :=
    Nat.pow_le_pow_right (by decide) (Nat.le_max_right _ _)
  rw [keep?, if_neg]
  simp only [Bool.and_eq_true, decide_eq_true_eq]
  cases negative <;> simp only [signed] <;> omega

theorem Range.keep?_ofScaled (around : r.IsAroundZero) (negative : Bool) (c : Nat) (e : Int) :
    ((Decimal.ofScaled negative c e).truncateBelow? r.digitBound).bind r.keep? =
      r.keep? (truncated (withSign negative (scaled c e))) := by
  rw [Decimal.truncateBelow?_ofScaled negative c e around.digits.1 around.digits.2,
    truncated_withSign negative (scaled_nonneg c e)]
  split
  · next large =>
      have floor : 10 ^ r.digitBound ≤ ⌊scaled c e⌋₊ := by
        refine Nat.le_floor ?_
        push_cast
        have one : (1 : ℚ) ≤ 10 := by norm_num
        calc (10 : ℚ) ^ r.digitBound = 10 ^ (r.digitBound : Int) := (zpow_natCast _ _).symm
          _ ≤ 10 ^ leading c e := zpow_le_zpow_right₀ one large.2
          _ ≤ scaled c e := (scaled_bounds large.1 e).1
      rw [Range.keep?_of_tenPow_le floor, Option.bind_none]
  · rw [Option.bind_some]

/-- **An integer within bounds is read as the integer part of the number that the text denotes,**
on either of the two ways. -/
theorem Range.integerOfChars?_eq (around : r.IsAroundZero) (cs : List Char) :
    r.integerOfChars? cs = (numeral? cs).bind fun m => r.keep? (truncated m.value) := by
  cases h : integer? cs with
  | some n =>
      obtain ⟨m, read, value⟩ := numeral?_of_integer? h
      rw [integerOfChars?, h, read, Option.bind_some, value, truncated_intCast]
  | none =>
      rw [integerOfChars?, h, Decimal.ofChars?, Option.bind_map]
      exact congrArg (numeral? cs).bind (funext fun m => r.keep?_ofScaled around _ _ _)

/-! ### Reading what is written -/

theorem readSign_digits (n : Nat) : readSign (digits n) = (false, digits n) := by
  rw [readSign.eq_def]
  split
  · next text => exact absurd (isDigit_of_mem_digits (text ▸ List.mem_cons_self)) (by decide)
  · next text => exact absurd (isDigit_of_mem_digits (text ▸ List.mem_cons_self)) (by decide)
  · rfl

theorem integer?_of_readSign {n : Nat} (h : readSign cs = (negative, digits n)) :
    integer? cs = some (signed negative n) := by
  have spelled : (digits n ≠ [] && (digits n).all Char.isDigit) = true := by
    rw [Bool.and_eq_true, decide_eq_true_eq, List.all_eq_true]
    exact ⟨digits_ne_nil _, fun _ => isDigit_of_mem_digits⟩
  rw [integer?, h]
  simp only [spelled, if_true, ofDigits_digits]

/-- The text of a whole number spells it. -/
theorem integer?_intChars (n : Int) : integer? (intChars n) = some n := by
  rw [intChars]
  split
  · rw [integer?_of_readSign rfl, signed, if_pos rfl]
    exact congrArg some (by omega)
  · rw [integer?_of_readSign (readSign_digits _), signed, if_neg Bool.false_ne_true]
    exact congrArg some (by omega)

theorem exponent?_exponentText (e : Int) : exponent? (exponentText e) = some e := by
  rw [exponentText, exponent?, if_pos (by decide)]
  split
  · rw [integer?_of_readSign rfl, signed, if_pos rfl]
    exact congrArg some (by omega)
  · rw [integer?_of_readSign rfl, signed, if_neg Bool.false_ne_true]
    exact congrArg some (by omega)

theorem head?_exponentText (e : Int) :
    ∀ c ∈ (exponentText e).head?, c.isDigit = false ∧ c ≠ '.' := by
  simp [exponentText]

/-- Digits with a point after the first one and an exponent. -/
theorem unsigned?_scientific (negative : Bool) (filled : ws ≠ [])
    (digits : ∀ c ∈ ws, c.isDigit = true) {e first : Int} (he : first = e + (ws.length - 1)) :
    ∃ m, unsigned? negative (pointAfterFirst ws ++ exponentText first) = some m ∧
      m.value = withSign negative (scaled (ofDigits ws) e) := by
  have power := exponent?_exponentText first
  have ends := head?_exponentText first
  match ws, filled with
  | [d], filled =>
      refine ⟨⟨negative, ofDigits [d], first⟩,
        unsigned?_whole negative filled digits ends power, ?_⟩
      rw [Numeral.value, show first = e by simpa using he]
  | d :: d' :: ds, _ =>
      have one : ∀ c ∈ [d], c.isDigit = true := fun c hc => digits c (by simp_all)
      have rest : ∀ c ∈ d' :: ds, c.isDigit = true := fun c hc => digits c (by simp_all)
      refine ⟨_, unsigned?_point negative (.inl (List.cons_ne_nil d [])) one rest
        (fun c hc => (ends c hc).1) power, ?_⟩
      have shifted : first - (d' :: ds).length = e := by
        rw [he]
        simp
      rw [Numeral.value, shifted]
      rfl

/-- Digits after a point and zeros. -/
theorem unsigned?_fraction (negative : Bool) (filled : ws ≠ [])
    (digits : ∀ c ∈ ws, c.isDigit = true) {e first : Int} (he : first = e + (ws.length - 1))
    (small : first < 0) :
    ∃ m, unsigned? negative ('0' :: '.' :: zeros ((-first).toNat - 1) ++ ws) = some m ∧
      m.value = withSign negative (scaled (ofDigits ws) e) := by
  have length : 0 < ws.length := List.length_pos_of_ne_nil filled
  have zero : ∀ c ∈ ['0'], c.isDigit = true := by simp
  have fraction : ∀ c ∈ zeros ((-first).toNat - 1) ++ ws, c.isDigit = true := by
    intro c hc
    rcases List.mem_append.1 hc with h | h
    · exact isDigit_of_mem_zeros h
    · exact digits c h
  have read := unsigned?_point negative (.inl (List.cons_ne_nil '0' [])) zero fraction
    (show ∀ c ∈ [].head?, _ by simp) (show exponent? [] = some 0 from rfl)
  rw [List.append_nil] at read
  refine ⟨_, read, ?_⟩
  have value : ofDigits (['0'] ++ (zeros ((-first).toNat - 1) ++ ws)) = ofDigits ws := by
    rw [← List.append_assoc]
    exact ofDigits_zeros_append ((-first).toNat - 1 + 1) ws
  have shifted : (0 : Int) - (zeros ((-first).toNat - 1) ++ ws).length = e := by
    rw [List.length_append, zeros, List.length_replicate]
    omega
  rw [Numeral.value, value, shifted]

/-- Digits before a point, filled up with zeros or with the point among them. -/
theorem unsigned?_positional (negative : Bool) (filled : ws ≠ [])
    (digits : ∀ c ∈ ws, c.isDigit = true) {e : Int} {whole : Nat}
    (he : (whole : Int) = e + ws.length) (positive : 0 < whole) :
    ∃ m, unsigned? negative (if ws.length ≤ whole then ws ++ zeros (whole - ws.length)
        else ws.take whole ++ '.' :: ws.drop whole) = some m ∧
      m.value = withSign negative (scaled (ofDigits ws) e) := by
  split
  · next short =>
      have all : ∀ c ∈ ws ++ zeros (whole - ws.length), c.isDigit = true := by
        intro c hc
        rcases List.mem_append.1 hc with h | h
        · exact digits c h
        · exact isDigit_of_mem_zeros h
      have read := unsigned?_whole negative (List.append_ne_nil_of_left_ne_nil filled _) all
        (show ∀ c ∈ [].head?, _ by simp) (show exponent? [] = some 0 from rfl)
      rw [List.append_nil] at read
      refine ⟨_, read, ?_⟩
      have value : ofDigits (ws ++ zeros (whole - ws.length)) =
          ofDigits ws * tenPow (whole - ws.length) := by
        rw [ofDigits_append, ofDigits_zeros, zeros, List.length_replicate, Nat.add_zero]
        rfl
      have shifted : (0 : Int) + (whole - ws.length : Nat) = e := by omega
      rw [Numeral.value, value, scaled_mul_tenPow, shifted]
  · next long =>
      have taken : ws.take whole ≠ [] := by
        rw [ne_eq, List.take_eq_nil_iff]
        rintro (zero | empty)
        · omega
        · exact filled empty
      have fraction : ∀ c ∈ ws.drop whole, c.isDigit = true :=
        fun c hc => digits c (List.mem_of_mem_drop hc)
      have read := unsigned?_point negative (.inl taken)
        (fun c hc => digits c (List.mem_of_mem_take hc)) fraction
        (show ∀ c ∈ [].head?, _ by simp) (show exponent? [] = some 0 from rfl)
      rw [List.append_nil, List.take_append_drop] at read
      refine ⟨_, read, ?_⟩
      have shifted : (0 : Int) - (ws.drop whole).length = e := by
        rw [List.length_drop]
        omega
      rw [Numeral.value, shifted]

theorem unsigned?_layout (negative : Bool) (positive : 0 < c) (e : Int) :
    ∃ m, unsigned? negative (layout c e) = some m ∧
      m.value = withSign negative (scaled c e) := by
  have filled := digits_ne_nil c
  have all : ∀ d ∈ digits c, d.isDigit = true := fun _ => isDigit_of_mem_digits
  have value := ofDigits_digits c
  have first : e + ((digits c).length - 1) = e + ((digits c).length - 1) := rfl
  rw [layout, if_neg (Nat.pos_iff_ne_zero.1 positive), layoutDigits]
  split
  · have read := unsigned?_scientific negative filled all first
    rwa [value] at read
  · split
    · next small =>
        have read := unsigned?_fraction negative filled all first small
        rwa [value] at read
    · next large =>
        have whole : (((e + ((digits c).length - 1)).toNat + 1 : Nat) : Int) =
            e + (digits c).length := by omega
        have read := unsigned?_positional negative filled all whole (Nat.succ_pos _)
        rwa [value] at read

/-- A numeral without a sign does not start with one. -/
theorem readSign_of_unsigned? {m : Numeral} (h : unsigned? negative cs = some m) :
    readSign cs = (false, cs) := by
  rw [readSign.eq_def]
  split
  · exact absurd h nofun
  · exact absurd h nofun
  · rfl

theorem numeral?_signedLayout (negative : Bool) (c : Nat) (e : Int) :
    ∃ m, numeral? (signedLayout negative c e) = some m ∧
      m.value = withSign negative (scaled c e) := by
  rcases Nat.eq_zero_or_pos c with rfl | positive
  · have text : signedLayout negative 0 e = ['0'] := by simp [signedLayout, layout]
    refine ⟨⟨false, 0, 0⟩, by rw [text]; decide, ?_⟩
    cases negative <;> simp [Numeral.value, withSign, scaled]
  · obtain ⟨m, read, value⟩ := unsigned?_layout negative positive e
    refine ⟨m, ?_, value⟩
    cases negative with
    | false =>
        show numeral? (layout c e) = some m
        rw [numeral?, readSign_of_unsigned? read]
        exact read
    | true =>
        have text : signedLayout true c e = '-' :: layout c e := by
          simp [signedLayout, Nat.pos_iff_ne_zero.1 positive]
        rw [text, numeral?, readSign]
        exact read

/-! ### Numbers that texts spell -/

/-- A text is a numeral for a number. -/
def Spells (text : String) (q : ℚ) : Prop := ∃ m, numeral? text.toList = some m ∧ m.value = q

theorem spells_toString (n : Int) : Spells (toString n) n := by
  rw [Spells, toList_toString]
  exact numeral?_of_integer? (integer?_intChars n)

/-- **What is written for a number spells it.** -/
theorem spells_signedLayout (negative : Bool) (c : Nat) (e : Int) :
    Spells (String.ofList (signedLayout negative c e)) (withSign negative (scaled c e)) := by
  rw [Spells, String.toList_ofList]
  exact numeral?_signedLayout negative c e

variable {text : String} {q : ℚ}

/-- An integer within bounds is read from a text as the integer part of the number it spells. -/
theorem Range.integerOfText?_of_spells (around : r.IsAroundZero) (spells : Spells text q) :
    r.integerOfText? text = r.keep? (truncated q) := by
  obtain ⟨m, read, rfl⟩ := spells
  rw [integerOfText?, trimChars_of_numeral? read, integerOfChars?_eq around, read,
    Option.bind_some]

/-- A decimal is read from a text as the number it spells, within the limits. -/
theorem exists_decimal_of_spells (spells : Spells text q) (limits : Decimal.InLimits q) :
    ∃ d, Decimal.ofText? text = some d ∧ d.value? = some q := by
  obtain ⟨m, read, rfl⟩ := spells
  rw [Decimal.ofText?, Decimal.ofChars?, trimChars_of_numeral? read, read]
  exact ⟨_, rfl, Decimal.value?_ofScaled limits⟩

end RowLiteral.Number
