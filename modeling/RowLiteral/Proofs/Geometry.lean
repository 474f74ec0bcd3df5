import RowLiteral.Geometry
import RowLiteral.Proofs.Number.Grammar

/-!
# Geometry — the texts that are points and boxes

A text is split at the commas that stand outside brackets, where brackets of three kinds count as
one and the count may go below zero.  What comes before the first such comma is a *whole* part: it
has no such comma itself and closes what it opens (`splitFrom_cases`, `splitTop_eq_pair_iff`).  The
text of a coordinate has neither commas nor brackets (`isPlain_of_coordinate?`), so wherever two
coordinates stand around a comma the split finds that comma, and between parentheses none.

* `Point.ofText?_eq_some_iff`, `Box.ofText?_eq_some_iff`: the texts that are read as points and as
  boxes.
-/

namespace RowLiteral.Geometry
open Number Text

variable {cs as bs ps qs rest : List Char} {d : Int}

/-! ### Depth -/

/-- What a character adds to the depth. -/
def weight (c : Char) : Int := depthAfter 0 c

/-- What a text adds to the depth. -/
def depth (cs : List Char) : Int := (cs.map weight).sum

theorem depthAfter_eq (d : Int) (c : Char) : depthAfter d c = d + weight c := by
  simp only [weight, depthAfter]
  split
  · rw [zero_add]
  · split
    · rw [zero_sub, sub_eq_add_neg]
    · rw [add_zero]

@[simp]
theorem depth_nil : depth [] = 0 := rfl

@[simp]
theorem depth_cons (c : Char) (cs : List Char) : depth (c :: cs) = weight c + depth cs := by
  rw [depth, List.map_cons, List.sum_cons, depth]

@[simp]
theorem depth_append (as bs : List Char) : depth (as ++ bs) = depth as + depth bs := by
  rw [depth, List.map_append, List.sum_append, depth, depth]

/-- From a depth on, no comma of a text stands at depth zero. -/
def Whole (d : Int) : List Char → Prop
  | [] => True
  | c :: cs => ¬ (c = ',' ∧ d = 0) ∧ Whole (d + weight c) cs

theorem whole_append : Whole d (as ++ bs) ↔ Whole d as ∧ Whole (d + depth as) bs := by
  induction as generalizing d with
  | nil => rw [List.nil_append, depth_nil, add_zero, Whole, true_and]
  | cons c as ih => rw [List.cons_append, Whole, Whole, ih, depth_cons, add_assoc, and_assoc]

/-! ### Splitting -/

/-- A text is whole, or it is split at its first comma at depth zero. -/
theorem splitFrom_cases (d : Int) (cs : List Char) :
    (Whole d cs ∧ splitFrom d cs = (cs, [])) ∨
    ∃ ps rest, cs = ps ++ ',' :: rest ∧ Whole d ps ∧ d + depth ps = 0 ∧
      splitFrom d cs = (ps, (splitFrom 0 rest).1 :: (splitFrom 0 rest).2) := by
  induction cs generalizing d with
  | nil => exact .inl ⟨trivial, rfl⟩
  | cons c cs ih =>
      by_cases top : c = ',' ∧ d = 0
      · obtain ⟨rfl, rfl⟩ := top
        exact .inr ⟨[], cs, rfl, trivial, rfl, rfl⟩
      · have step : splitFrom d (c :: cs) =
            (c :: (splitFrom (d + weight c) cs).1, (splitFrom (d + weight c) cs).2) := by
          rw [splitFrom, if_neg (by simpa using top), depthAfter_eq]
        rcases ih (d + weight c) with ⟨whole, split⟩ | ⟨ps, rest, parts, whole, closed, split⟩
        · exact .inl ⟨⟨top, whole⟩, by rw [step, split]⟩
        · refine .inr ⟨c :: ps, rest, by rw [parts, List.cons_append], ⟨top, whole⟩, ?_, ?_⟩
          · rw [depth_cons, ← add_assoc]
            exact closed
          · rw [step, split]

theorem splitFrom_of_whole (h : Whole d cs) : splitFrom d cs = (cs, []) := by
  rcases splitFrom_cases d cs with ⟨-, split⟩ | ⟨ps, rest, parts, -, closed, -⟩
  · exact split
  · rw [parts, whole_append] at h
    exact absurd ⟨rfl, closed⟩ h.2.1

/-- A whole part that closes what it opens is cut off at the comma after it. -/
theorem splitFrom_append (whole : Whole d ps) (closed : d + depth ps = 0) (rest : List Char) :
    splitFrom d (ps ++ ',' :: rest) = (ps, (splitFrom 0 rest).1 :: (splitFrom 0 rest).2) := by
  induction ps generalizing d with
  | nil =>
      obtain rfl : d = 0 := (add_zero d).symm.trans closed
      rfl
  | cons c ps ih =>
      rw [depth_cons, ← add_assoc] at closed
      rw [List.cons_append, splitFrom, if_neg (by simpa using whole.1), depthAfter_eq,
        ih whole.2 closed]

/-- The texts that are split into two parts. -/
theorem splitTop_eq_pair_iff : splitTop cs = [ps, qs] ↔
    cs = ps ++ ',' :: qs ∧ Whole 0 ps ∧ depth ps = 0 ∧ Whole 0 qs := by
  have split : splitTop cs = (splitFrom 0 cs).1 :: (splitFrom 0 cs).2 := rfl
  rw [split]
  constructor
  · intro pair
    rcases splitFrom_cases 0 cs with ⟨-, one⟩ | ⟨p, rest, parts, whole, closed, two⟩
    · rw [one] at pair
      exact absurd (List.cons.inj pair).2 nofun
    · rcases splitFrom_cases 0 rest with ⟨whole', one⟩ | ⟨p', rest', -, -, -, three⟩
      · have pair : [p, rest] = [ps, qs] := by rwa [two, one] at pair
        obtain ⟨rfl, rfl⟩ : p = ps ∧ rest = qs := by simpa using pair
        rw [zero_add] at closed
        exact ⟨parts, whole, closed, whole'⟩
      · rw [two, three] at pair
        exact absurd (List.cons.inj (List.cons.inj pair).2).2 nofun
  · rintro ⟨rfl, whole, closed, whole'⟩
    rw [splitFrom_append whole ((zero_add _).trans closed), splitFrom_of_whole whole']

/-! ### Plain texts -/

/-- The comma and the brackets. -/
def marks : List Char := [',', '(', ')', '[', ']', '<', '>']

theorem weight_of_not_mem {c : Char} (h : c ∉ marks) : weight c = 0 := by
  simp only [marks, List.mem_cons, List.not_mem_nil, or_false, not_or] at h
  simp [weight, depthAfter, h]

theorem depth_of_plain (plain : ∀ c ∈ cs, c ∉ marks) : depth cs = 0 := by
  induction cs with
  | nil => rfl
  | cons c cs ih =>
      obtain ⟨first, rest⟩ := List.forall_mem_cons.1 plain
      rw [depth_cons, weight_of_not_mem first, ih rest, add_zero]

theorem whole_of_plain (plain : ∀ c ∈ cs, c ∉ marks) (d : Int) : Whole d cs := by
  induction cs generalizing d with
  | nil => trivial
  | cons c cs ih =>
      obtain ⟨first, rest⟩ := List.forall_mem_cons.1 plain
      refine ⟨?_, ih rest _⟩
      rintro ⟨rfl, -⟩
      exact first (by decide)

/-- After plain texts a comma stands at depth zero. -/
theorem not_whole_of_plain (plain : ∀ c ∈ as, c ∉ marks) : ¬ Whole 0 (as ++ ',' :: bs) := by
  rw [whole_append, depth_of_plain plain]
  rintro ⟨-, first, -⟩
  exact first ⟨rfl, rfl⟩

/-- The characters of a class without marks are no marks. -/
theorem not_mem_marks {P : Char → Bool} (none : marks.any P = false) {c : Char}
    (h : P c = true) : c ∉ marks := by
  intro mem
  exact List.any_eq_false.1 none c mem h

theorem not_mem_marks_of_isMargin {c : Char} (h : isMargin c = true) : c ∉ marks :=
  not_mem_marks rfl h

theorem not_mem_marks_of_isNumeralChar {c : Char} (h : isNumeralChar c = true) : c ∉ marks :=
  not_mem_marks rfl h

theorem not_mem_marks_of_ofChars? {x : Double} (h : Double.ofChars? cs = some x) :
    ∀ c ∈ cs, c ∉ marks := by
  -- the two words are made of letters
  have word (w : String) (letters : w.toList.all Char.isAlpha = true) :
      ∀ c ∈ w.toList, c ∉ marks := fun c hc => not_mem_marks rfl (List.all_eq_true.1 letters c hc)
  obtain ⟨s, text, -⟩ := exists_of_readSign cs
  have sign : ∀ c ∈ s.chars, isNumeralChar c = true := by
    cases s <;> simp [WrittenSign.chars, isNumeralChar]
  rw [← text, List.forall_mem_append]
  refine ⟨fun c hc => not_mem_marks_of_isNumeralChar (sign c hc), ?_⟩
  rw [Double.ofChars?] at h
  dsimp only at h
  split at h
  · next nan =>
      rw [nan]
      exact word "NaN" rfl
  · split at h
    · next infinity =>
        rw [infinity]
        exact word "Infinity" rfl
    · obtain ⟨m, read, -⟩ := Option.map_eq_some_iff.1 h
      exact fun c hc => not_mem_marks_of_isNumeralChar (isNumeralChar_of_unsigned? read c hc)

/-- The text of a coordinate has no marks. -/
theorem not_mem_marks_of_coordinate? {x : Double} (h : coordinate? cs = some x) :
    ∀ c ∈ cs, c ∉ marks := by
  obtain ⟨left, right, parts, before, after⟩ := exists_margins cs
  rw [parts, List.forall_mem_append, List.forall_mem_append]
  exact ⟨fun c hc => not_mem_marks_of_isMargin (before c hc), not_mem_marks_of_ofChars? h,
    fun c hc => not_mem_marks_of_isMargin (after c hc)⟩

/-! ### Points -/

/-- What is left of a text without the parentheses around it. -/
theorem unwrap_cases (cs : List Char) :
    (∃ core, cs = '(' :: (core ++ [')']) ∧ unwrap cs = core) ∨
      (∀ core, cs ≠ '(' :: (core ++ [')'])) ∧ unwrap cs = cs := by
  cases cs with
  | nil => exact .inr ⟨nofun, rfl⟩
  | cons c cs =>
      rcases cs.eq_nil_or_concat with rfl | ⟨core, last, rfl⟩
      · refine .inr ⟨by simp, ?_⟩
        rw [unwrap, if_neg]
        simp only [List.head?_cons, List.getLast?_singleton, Option.some.injEq, Bool.and_eq_true,
          decide_eq_true_eq, not_and]
        rintro rfl
        decide
      · rw [List.concat_eq_append]
        have ends : (c :: (core ++ [last])).getLast? = some last :=
          List.getLast?_concat (l := c :: core)
        by_cases both : c = '(' ∧ last = ')'
        · obtain ⟨rfl, rfl⟩ := both
          refine .inl ⟨core, rfl, ?_⟩
          rw [unwrap, ends]
          exact List.dropLast_concat
        · refine .inr ⟨fun core' same => both ?_, ?_⟩
          · obtain ⟨first, -, final⟩ : c = '(' ∧ core = core' ∧ last = ')' := by simpa using same
            exact ⟨first, final⟩
          · rw [unwrap, ends, if_neg (by simpa using both)]

/-- The texts that are read as points. -/
theorem pointOfChars?_eq_some_iff {p : Point} : pointOfChars? cs = some p ↔
    ∃ as bs, unwrap (trimChars cs) = as ++ ',' :: bs ∧ coordinate? as = some p.x ∧
      coordinate? bs = some p.y := by
  rw [pointOfChars?]
  constructor
  · intro h
    split at h
    · next as bs split =>
        obtain ⟨parts, -⟩ := splitTop_eq_pair_iff.1 split
        simp only [Option.pure_def, Option.bind_eq_bind, Option.bind_eq_some_iff] at h
        obtain ⟨x, hx, y, hy, point⟩ := h
        obtain rfl := Option.some.inj point
        exact ⟨as, bs, parts, hx, hy⟩
    · exact absurd h nofun
  · rintro ⟨as, bs, parts, hx, hy⟩
    have plain := not_mem_marks_of_coordinate? hx
    have plain' := not_mem_marks_of_coordinate? hy
    have split : splitTop (unwrap (trimChars cs)) = [as, bs] :=
      splitTop_eq_pair_iff.2
        ⟨parts, whole_of_plain plain 0, depth_of_plain plain, whole_of_plain plain' 0⟩
    rw [split]
    simp only [hx, hy]
    rfl

/-! ### Boxes -/

/-- Two coordinates in parentheses, with blanks around these, are a point. -/
def Encloses (cs : List Char) (p : Point) : Prop :=
  ∃ as bs, trimChars cs = '(' :: ((as ++ ',' :: bs) ++ [')']) ∧ coordinate? as = some p.x ∧
    coordinate? bs = some p.y

theorem unwrap_of_parentheses (core : List Char) : unwrap ('(' :: (core ++ [')'])) = core := by
  rcases unwrap_cases ('(' :: (core ++ [')'])) with ⟨core', same, inner⟩ | ⟨other, -⟩
  · rw [inner]
    simpa using same.symm
  · exact absurd rfl (other core)

variable {p : Point} {b : Box}

theorem Encloses.pointOfChars? (h : Encloses cs p) : pointOfChars? cs = some p := by
  obtain ⟨as, bs, text, hx, hy⟩ := h
  rw [pointOfChars?_eq_some_iff, text, unwrap_of_parentheses]
  exact ⟨as, bs, rfl, hx, hy⟩

/-- A point in parentheses has its comma inside them. -/
theorem Encloses.whole (h : Encloses cs p) : Whole 0 cs ∧ depth cs = 0 := by
  obtain ⟨as, bs, text, hx, hy⟩ := h
  have plain := not_mem_marks_of_coordinate? hx
  have plain' := not_mem_marks_of_coordinate? hy
  obtain ⟨left, right, parts, before, after⟩ := exists_margins cs
  have left' : ∀ c ∈ left, c ∉ marks := fun c hc => not_mem_marks_of_isMargin (before c hc)
  have right' : ∀ c ∈ right, c ∉ marks := fun c hc => not_mem_marks_of_isMargin (after c hc)
  have opening : weight '(' = 1 := rfl
  have closing : weight ')' = -1 := rfl
  have comma : weight ',' = 0 := rfl
  rw [parts, text]
  constructor
  · simp [whole_append, Whole, whole_of_plain left', whole_of_plain plain, whole_of_plain plain',
      whole_of_plain right', depth_of_plain left', depth_of_plain plain, opening, comma]
  · simp [depth_of_plain left', depth_of_plain plain, depth_of_plain plain',
      depth_of_plain right', opening, closing, comma]

/-- A whole text is a point in parentheses. -/
theorem encloses_of_whole (whole : Whole 0 cs) (h : Geometry.pointOfChars? cs = some p) :
    Encloses cs p := by
  obtain ⟨as, bs, core, hx, hy⟩ := pointOfChars?_eq_some_iff.1 h
  rcases unwrap_cases (trimChars cs) with ⟨core', text, inner⟩ | ⟨-, inner⟩
  · rw [inner] at core
    exact ⟨as, bs, by rw [text, core], hx, hy⟩
  · -- without parentheses the comma between the coordinates would stand at depth zero
    rw [inner] at core
    obtain ⟨left, right, parts, before, -⟩ := exists_margins cs
    have plain : ∀ c ∈ left ++ as, c ∉ marks := List.forall_mem_append.2
      ⟨fun c hc => not_mem_marks_of_isMargin (before c hc), not_mem_marks_of_coordinate? hx⟩
    rw [parts, core] at whole
    refine absurd whole ?_
    rw [List.append_assoc, ← List.append_assoc]
    exact not_whole_of_plain plain

/-- The texts that are read as boxes. -/
theorem box_ofText?_eq_some_iff {s : String} : Box.ofText? s = some b ↔
    ∃ ps qs, trimChars s.toList = ps ++ ',' :: qs ∧ Encloses ps b.first ∧
      Encloses qs b.second := by
  rw [Box.ofText?]
  constructor
  · intro h
    split at h
    · next ps qs split =>
        obtain ⟨parts, whole, -, whole'⟩ := splitTop_eq_pair_iff.1 split
        simp only [Option.pure_def, Option.bind_eq_bind, Option.bind_eq_some_iff] at h
        obtain ⟨p, hp, q, hq, box⟩ := h
        obtain rfl := Option.some.inj box
        exact ⟨ps, qs, parts, encloses_of_whole whole hp, encloses_of_whole whole' hq⟩
    · exact absurd h nofun
  · rintro ⟨ps, qs, parts, first, second⟩
    have split : splitTop (trimChars s.toList) = [ps, qs] :=
      splitTop_eq_pair_iff.2 ⟨parts, first.whole.1, first.whole.2, second.whole.1⟩
    rw [split]
    simp only [first.pointOfChars?, second.pointOfChars?]
    rfl

/-! ### Texts -/

/-- What a text is without the parentheses around it, or the text where it does not have both. -/
def Unwraps (t core : String) : Prop :=
  t = "(" ++ core ++ ")" ∨ (∀ u, t ≠ "(" ++ u ++ ")") ∧ core = t

/-- A text, less the blanks around it, is a point in parentheses: two coordinates with a comma
between them. -/
def Parenthesized (t : String) (p : Point) : Prop :=
  ∃ a b, trim t = "(" ++ (a ++ "," ++ b) ++ ")" ∧ Double.ofText? a = some p.x ∧
    Double.ofText? b = some p.y

/-- Two lists of characters are the characters of two texts. -/
theorem exists_texts_iff {P : List Char → List Char → Prop} :
    (∃ a b : String, P a.toList b.toList) ↔ ∃ as bs, P as bs := by
  refine ⟨fun ⟨a, b, h⟩ => ⟨a.toList, b.toList, h⟩, fun ⟨as, bs, h⟩ => ⟨.ofList as, .ofList bs, ?_⟩⟩
  rw [String.toList_ofList, String.toList_ofList]
  exact h

theorem toList_parentheses (u : String) :
    ("(" ++ u ++ ")").toList = '(' :: (u.toList ++ [')']) := by
  rw [String.toList_append, String.toList_append]
  rfl

theorem toList_comma (a b : String) : (a ++ "," ++ b).toList = a.toList ++ ',' :: b.toList := by
  rw [String.toList_append, String.toList_append, List.append_assoc]
  rfl

theorem toList_trim (s : String) : (trim s).toList = trimChars s.toList := String.toList_ofList

theorem unwraps_iff {t core : String} : Unwraps t core ↔ unwrap t.toList = core.toList := by
  have parentheses (u : String) :
      t = "(" ++ u ++ ")" ↔ t.toList = '(' :: (u.toList ++ [')']) := by
    rw [← String.toList_inj, toList_parentheses]
  simp only [Unwraps, ne_eq, parentheses]
  rcases unwrap_cases t.toList with ⟨inner, text, unwrapped⟩ | ⟨other, unwrapped⟩
  · rw [unwrapped]
    constructor
    · rintro (same | ⟨none, -⟩)
      · simpa using text.symm.trans same
      · exact absurd (text.trans (by rw [String.toList_ofList])) (none (.ofList inner))
    · rintro rfl
      exact .inl text
  · rw [unwrapped, String.toList_inj]
    constructor
    · rintro (same | ⟨-, rfl⟩)
      · exact absurd same (other _)
      · rfl
    · rintro rfl
      exact .inr ⟨fun u => other u.toList, rfl⟩

theorem parenthesized_iff {t : String} : Parenthesized t p ↔ Encloses t.toList p := by
  have text (a b : String) : trim t = "(" ++ (a ++ "," ++ b) ++ ")" ↔
      trimChars t.toList = '(' :: ((a.toList ++ ',' :: b.toList) ++ [')']) := by
    rw [← String.toList_inj, toList_parentheses, toList_comma, toList_trim]
  simp only [Parenthesized, text]
  exact exists_texts_iff (P := fun as bs => trimChars t.toList =
    '(' :: ((as ++ ',' :: bs) ++ [')']) ∧ coordinate? as = some p.x ∧ coordinate? bs = some p.y)

/-- **The texts that are points and boxes.**  A point is two coordinates with a comma between them,
in parentheses or without, and a box is two points in parentheses with a comma between them. -/
theorem ofText?_exact (s : String) :
    (∀ p, Point.ofText? s = some p ↔ ∃ a b, Unwraps (trim s) (a ++ "," ++ b) ∧
      Double.ofText? a = some p.x ∧ Double.ofText? b = some p.y) ∧
    (∀ b, Box.ofText? s = some b ↔ ∃ p q, trim s = p ++ "," ++ q ∧ Parenthesized p b.first ∧
      Parenthesized q b.second) ∧
    ∀ p, Parenthesized s p → Point.ofText? s = some p := by
  refine ⟨fun p => ?_, fun b => ?_, fun p h => (parenthesized_iff.1 h).pointOfChars?⟩
  · rw [Point.ofText?, pointOfChars?_eq_some_iff]
    simp only [unwraps_iff, toList_comma, toList_trim]
    exact (exists_texts_iff (P := fun as bs => unwrap (trimChars s.toList) = as ++ ',' :: bs ∧
      coordinate? as = some p.x ∧ coordinate? bs = some p.y)).symm
  · rw [box_ofText?_eq_some_iff]
    simp only [parenthesized_iff, ← String.toList_inj, toList_comma, toList_trim]
    exact (exists_texts_iff (P := fun ps qs => trimChars s.toList = ps ++ ',' :: qs ∧
      Encloses ps b.first ∧ Encloses qs b.second)).symm

theorem ofText?_exact_blanks :
    Parenthesized " (1, -2.5)" ⟨.ofInt 1, .ofScaled true 25 (-1)⟩ ∧
      Point.ofText? " (1, -2.5)" = some ⟨.ofInt 1, .ofScaled true 25 (-1)⟩ := by
  have inside : Parenthesized " (1, -2.5)" ⟨.ofInt 1, .ofScaled true 25 (-1)⟩ :=
    ⟨"1", " -2.5", by decide +kernel, by decide +kernel, by decide +kernel⟩
  exact ⟨inside, (ofText?_exact " (1, -2.5)").2.2 _ inside⟩

/-- The brackets of a point are parentheses. -/
example : Point.ofText? "[1,2]" = none := by decide +kernel

end RowLiteral.Geometry
