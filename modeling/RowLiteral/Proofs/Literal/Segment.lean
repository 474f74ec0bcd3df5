import RowLiteral.Proofs.Literal.Pieces

/-!
# Literal — segments by index

`readQuoted` is given what follows an opening quote and gives back what follows the closing one.
Here a segment is read *by index*, in the units of a text: `segmentFrom` looks at the unit at an
index and at the one after it, goes on by one or by two, and ends at the index of the closing quote
or at the length of the text.  The units may be any numbers, so surrogates need not come in pairs.

* `Items us i text j`: from one index to another there are whole items, which stand for a text.
  `IsClosedAt` adds the closing quote; it says without a reading where a segment ends.
* `segmentFrom_bounds`: the reading stays within the text.
* `isClosedAt_iff`: it ends within the text exactly where the segment is closed.
* `segmentAt_doubled`: what was doubled is read back.
* `isRead_segmentFrom`: from the units of characters the segment is read that `readQuoted` reads
  from the characters.
* `segmentAt_undoes_quoting`: all this of the segments at the quotes of a text.
-/

namespace RowLiteral.Literal
open RowLiteral.Text

/-! ### Reading -/

/-- The unit of a quote. -/
def quoteUnit : Nat := 0x22

/-- The unit of a backslash. -/
def backslashUnit : Nat := 0x5c

/-- The text of a segment, and the index at which it ends. -/
structure Segment where
  value : List Nat
  stop : Nat

/-- Reads on from an index, where some text was read before.  A quote that another one follows and a
backslash that any unit follows are passed over together with what follows; any other unit stands
for itself, a backslash at the end of the text among them. -/
def segmentFrom (us value : List Nat) (i : Nat) : Segment :=
  if inside : i < us.length then
    if us[i] = quoteUnit then
      if us[i + 1]? = some quoteUnit then segmentFrom us (value ++ [quoteUnit]) (i + 2)
      else ⟨value, i⟩
    else if next : us[i] = backslashUnit ∧ i + 1 < us.length then
      segmentFrom us (value ++ [us[i + 1]]) (i + 2)
    else segmentFrom us (value ++ [us[i]]) (i + 1)
  else ⟨value, i⟩
termination_by us.length - i

/-- The segment whose opening quote has an index. -/
def segmentAt (us : List Nat) (start : Nat) : Segment := segmentFrom us [] (start + 1)

/-- A unit that is neither a quote nor a backslash. -/
def IsPlainUnit (u : Nat) : Prop := u ≠ quoteUnit ∧ u ≠ backslashUnit

instance (u : Nat) : Decidable (IsPlainUnit u) := inferInstanceAs (Decidable (_ ∧ _))

/-- From one index to another there are whole items, which stand for a text. -/
inductive Items (us : List Nat) : Nat → List Nat → Nat → Prop
  | done (i : Nat) : Items us i [] i
  /-- A quote, written twice. -/
  | quote {i j : Nat} {text : List Nat} (first : us[i]? = some quoteUnit)
      (second : us[i + 1]? = some quoteUnit) (later : Items us (i + 2) text j) :
      Items us i (quoteUnit :: text) j
  /-- Any unit, with a backslash before it. -/
  | escaped {i j u : Nat} {text : List Nat} (first : us[i]? = some backslashUnit)
      (second : us[i + 1]? = some u) (later : Items us (i + 2) text j) : Items us i (u :: text) j
  /-- Any other unit, as it is. -/
  | plain {i j u : Nat} {text : List Nat} (unit : us[i]? = some u) (plain : IsPlainUnit u)
      (later : Items us (i + 1) text j) : Items us i (u :: text) j

/-- A segment whose opening quote has an index is closed at another: there are items up to a quote
that no quote follows. -/
structure IsClosedAt (us : List Nat) (start : Nat) (text : List Nat) (stop : Nat) : Prop where
  items : Items us (start + 1) text stop
  quote : us[stop]? = some quoteUnit
  single : us[stop + 1]? ≠ some quoteUnit

/-- Units with every quote and every backslash twice. -/
def doubledUnits (us : List Nat) : List Nat :=
  us.flatMap fun u => if IsPlainUnit u then [u] else [u, u]

/-! ### One item -/

section Step

variable {us value : List Nat} {i u : Nat}

theorem segmentFrom_end (outside : us.length ≤ i) : segmentFrom us value i = ⟨value, i⟩ := by
  rw [segmentFrom, dif_neg (Nat.not_lt.2 outside)]

theorem segmentFrom_quote (first : us[i]? = some quoteUnit) (second : us[i + 1]? = some quoteUnit) :
    segmentFrom us value i = segmentFrom us (value ++ [quoteUnit]) (i + 2) := by
  obtain ⟨inside, unit⟩ := List.getElem?_eq_some_iff.1 first
  rw [segmentFrom, dif_pos inside, if_pos unit, if_pos second]

theorem segmentFrom_close (quote : us[i]? = some quoteUnit) (single : us[i + 1]? ≠ some quoteUnit) :
    segmentFrom us value i = ⟨value, i⟩ := by
  obtain ⟨inside, unit⟩ := List.getElem?_eq_some_iff.1 quote
  rw [segmentFrom, dif_pos inside, if_pos unit, if_neg single]

theorem segmentFrom_escaped (first : us[i]? = some backslashUnit) (second : us[i + 1]? = some u) :
    segmentFrom us value i = segmentFrom us (value ++ [u]) (i + 2) := by
  obtain ⟨inside, backslash⟩ := List.getElem?_eq_some_iff.1 first
  obtain ⟨next, rfl⟩ := List.getElem?_eq_some_iff.1 second
  have notQuote : us[i] ≠ quoteUnit := by rw [backslash]; decide
  rw [segmentFrom, dif_pos inside, if_neg notQuote, dif_pos ⟨backslash, next⟩]

/-- A unit stands for itself unless it is a quote, or a backslash that a unit follows. -/
theorem segmentFrom_unit (unit : us[i]? = some u) (notQuote : u ≠ quoteUnit)
    (last : u = backslashUnit → us[i + 1]? = none) :
    segmentFrom us value i = segmentFrom us (value ++ [u]) (i + 1) := by
  obtain ⟨inside, rfl⟩ := List.getElem?_eq_some_iff.1 unit
  have alone : ¬ (us[i] = backslashUnit ∧ i + 1 < us.length) := fun ⟨backslash, next⟩ =>
    Nat.not_lt.2 (List.getElem?_eq_none_iff.1 (last backslash)) next
  rw [segmentFrom, dif_pos inside, if_neg notQuote, dif_neg alone]

theorem segmentFrom_plain (unit : us[i]? = some u) (plain : IsPlainUnit u) :
    segmentFrom us value i = segmentFrom us (value ++ [u]) (i + 1) :=
  segmentFrom_unit unit plain.1 fun backslash => absurd backslash plain.2

end Step

/-! ### Where the reading ends -/

variable {us value text rest : List Nat} {i j start stop : Nat}

/-- **The reading stays within the text.** -/
theorem segmentFrom_bounds (value : List Nat) (within : i ≤ us.length) :
    i ≤ (segmentFrom us value i).stop ∧ (segmentFrom us value i).stop ≤ us.length := by
  fun_induction segmentFrom us value i with
  | case1 value i inside _ second ih =>
      -- the second quote is still a unit of the text
      obtain ⟨next, -⟩ := List.getElem?_eq_some_iff.1 second
      obtain ⟨least, greatest⟩ := ih (by omega)
      exact ⟨by omega, greatest⟩
  | case2 => exact ⟨Nat.le_refl _, within⟩
  | case3 value i inside _ next ih =>
      obtain ⟨least, greatest⟩ := ih (by omega)
      exact ⟨by omega, greatest⟩
  | case4 value i inside _ _ ih =>
      obtain ⟨least, greatest⟩ := ih (by omega)
      exact ⟨by omega, greatest⟩
  | case5 => exact ⟨Nat.le_refl _, within⟩

/-- Items are passed over up to a quote that closes. -/
theorem Items.segmentFrom_eq (items : Items us i text j) (quote : us[j]? = some quoteUnit)
    (single : us[j + 1]? ≠ some quoteUnit) (value : List Nat) :
    segmentFrom us value i = ⟨value ++ text, j⟩ := by
  induction items generalizing value with
  | done i => rw [segmentFrom_close quote single, List.append_nil]
  | quote first second _ ih =>
      rw [segmentFrom_quote first second, ih quote single, List.append_assoc,
        List.singleton_append]
  | escaped first second _ ih =>
      rw [segmentFrom_escaped first second, ih quote single, List.append_assoc,
        List.singleton_append]
  | plain unit plain _ ih =>
      rw [segmentFrom_plain unit plain, ih quote single, List.append_assoc, List.singleton_append]

/-- What is read within the text are items, and a quote that closes follows them. -/
theorem exists_items_of_segmentFrom (within : (segmentFrom us value i).stop < us.length) :
    ∃ text, Items us i text (segmentFrom us value i).stop ∧
      us[(segmentFrom us value i).stop]? = some quoteUnit ∧
      us[(segmentFrom us value i).stop + 1]? ≠ some quoteUnit := by
  fun_induction segmentFrom us value i with
  | case1 value i inside unit second ih =>
      obtain ⟨text, items, closing⟩ := ih within
      exact ⟨_, .quote (List.getElem?_eq_some_iff.2 ⟨inside, unit⟩) second items, closing⟩
  | case2 value i inside unit single =>
      exact ⟨[], .done i, List.getElem?_eq_some_iff.2 ⟨inside, unit⟩, single⟩
  | case3 value i inside notQuote next ih =>
      obtain ⟨text, items, closing⟩ := ih within
      exact ⟨_, .escaped (List.getElem?_eq_some_iff.2 ⟨inside, next.1⟩)
        (List.getElem?_eq_getElem next.2) items, closing⟩
  | case4 value i inside notQuote alone ih =>
      obtain ⟨text, items, closing⟩ := ih within
      refine ⟨_, .plain (List.getElem?_eq_getElem inside) ⟨notQuote, fun backslash => ?_⟩ items,
        closing⟩
      -- a backslash at the end of the text closes no segment
      have last : us.length ≤ i + 1 := Nat.not_lt.1 fun next => alone ⟨backslash, next⟩
      rw [segmentFrom_end last] at within
      exact absurd within (Nat.not_lt.2 last)
  | case5 value i outside => exact absurd within outside

/-- **A segment ends within the text exactly where it is closed.** -/
theorem isClosedAt_iff : IsClosedAt us start text stop ↔
    segmentAt us start = ⟨text, stop⟩ ∧ stop < us.length := by
  constructor
  · intro closed
    obtain ⟨inside, -⟩ := List.getElem?_eq_some_iff.1 closed.quote
    exact ⟨closed.items.segmentFrom_eq closed.quote closed.single [], inside⟩
  · rintro ⟨read, inside⟩
    have within : (segmentAt us start).stop < us.length := by
      rw [read]
      exact inside
    obtain ⟨text', items, quote, single⟩ := exists_items_of_segmentFrom within
    have same := items.segmentFrom_eq quote single []
    rw [← segmentAt, read] at same items quote single
    obtain ⟨rfl, -⟩ := Segment.mk.inj same
    exact ⟨items, quote, single⟩

/-- The reading ends at the length of the text if and only if no quote closes the segment. -/
theorem segmentAt_stop_eq_length_iff (opening : us[start]? = some quoteUnit) :
    (segmentAt us start).stop = us.length ↔ ¬ ∃ text stop, IsClosedAt us start text stop := by
  obtain ⟨inside, -⟩ := List.getElem?_eq_some_iff.1 opening
  have greatest : (segmentAt us start).stop ≤ us.length := (segmentFrom_bounds [] inside).2
  constructor
  · rintro ends ⟨text, stop, closed⟩
    obtain ⟨read, within⟩ := isClosedAt_iff.1 closed
    rw [read] at ends
    exact Nat.lt_irrefl _ (ends ▸ within)
  · intro unclosed
    refine Nat.le_antisymm greatest (Nat.not_lt.1 fun within => unclosed ?_)
    exact ⟨_, _, isClosedAt_iff.2 ⟨rfl, within⟩⟩

-- no quote closes the segment of `("a\`, and its backslash stands for itself
example : segmentAt (units "(\"a\\") 1 = ⟨units "a\\", 4⟩ := by cbv

/-! ### What was doubled -/

theorem getElem?_of_drop (left : us.drop i = rest) : us[i]? = rest.head? := by
  rw [← left, List.head?_drop]

theorem drop_of_drop (left : us.drop i = rest) (k : Nat) : us.drop (i + k) = rest.drop k := by
  rw [← left, List.drop_drop]

theorem doubledUnits_append (us vs : List Nat) :
    doubledUnits (us ++ vs) = doubledUnits us ++ doubledUnits vs :=
  List.flatMap_append

theorem doubledUnits_cons (u : Nat) (body : List Nat) :
    doubledUnits (u :: body) = (if IsPlainUnit u then [u] else [u, u]) ++ doubledUnits body :=
  List.flatMap_cons

/-- Doubled units are items that stand for what was doubled. -/
theorem items_doubledUnits (body : List Nat) (left : us.drop i = doubledUnits body ++ rest) :
    Items us i body (i + (doubledUnits body).length) := by
  induction body generalizing i with
  | nil => exact .done i
  | cons u body ih =>
      rw [doubledUnits_cons] at left ⊢
      by_cases plain : IsPlainUnit u
      · rw [if_pos plain, List.append_assoc, List.singleton_append] at left
        rw [if_pos plain, List.singleton_append, List.length_cons, Nat.add_comm _ 1,
          ← Nat.add_assoc]
        exact .plain (getElem?_of_drop left) plain (ih (drop_of_drop left 1))
      · rw [if_neg plain, List.append_assoc, List.cons_append, List.singleton_append] at left
        rw [if_neg plain, List.length_append, ← Nat.add_assoc]
        have first : us[i]? = some u := getElem?_of_drop left
        have second : us[i + 1]? = some u := getElem?_of_drop (drop_of_drop left 1)
        have later := ih (drop_of_drop left 2)
        by_cases quote : u = quoteUnit
        · subst quote
          exact .quote first second later
        · obtain rfl : u = backslashUnit := Decidable.not_not.1 fun backslash =>
            plain ⟨quote, backslash⟩
          exact .escaped first second later

/-- **What was doubled is read back**, up to the quote that closes, after any units and before any
that do not start with a quote. -/
theorem segmentAt_doubled (before body : List Nat) (apart : rest.head? ≠ some quoteUnit) :
    segmentAt (before ++ quoteUnit :: (doubledUnits body ++ quoteUnit :: rest)) before.length =
      ⟨body, before.length + 1 + (doubledUnits body).length⟩ := by
  let us := before ++ quoteUnit :: (doubledUnits body ++ quoteUnit :: rest)
  have left : us.drop (before.length + 1) = doubledUnits body ++ quoteUnit :: rest := by
    simp [us]
  have closing : us.drop (before.length + 1 + (doubledUnits body).length) = quoteUnit :: rest := by
    rw [drop_of_drop left, List.drop_left]
  have single := getElem?_of_drop (drop_of_drop closing 1)
  have items := items_doubledUnits body left
  exact items.segmentFrom_eq (getElem?_of_drop closing) (single ▸ apart) []

/-! ### The units of characters -/

theorem isPlainUnit_of_le {u : Nat} (surrogate : 0xd800 ≤ u) : IsPlainUnit u := by
  constructor <;> rintro rfl <;> exact absurd surrogate (by decide)

/-- The first unit of a character tells quotes and backslashes from others, and a second unit is
neither. -/
theorem exists_charUnits (c : Char) : ∃ u more, charUnits c = u :: more ∧
    (u = quoteUnit ↔ c = '"') ∧ (u = backslashUnit ↔ c = '\\') ∧ ∀ v ∈ more, IsPlainUnit v := by
  by_cases basic : c.toNat < 0x10000
  · refine ⟨c.toNat, [], if_pos basic, ?_, ?_, fun v none => absurd none List.not_mem_nil⟩
    · exact Char.toNat_inj (d := '"')
    · exact Char.toNat_inj (d := '\\')
  · have other (d : Char) (small : d.toNat < 0x10000) : c ≠ d := fun same => basic (same ▸ small)
    have first : IsPlainUnit (0xd800 + (c.toNat - 0x10000) / 0x400) :=
      isPlainUnit_of_le (Nat.le_add_right _ _)
    refine ⟨_, _, if_neg basic, iff_of_false first.1 (other _ (by decide)),
      iff_of_false first.2 (other _ (by decide)), fun v second => ?_⟩
    rw [List.mem_singleton.1 second]
    exact isPlainUnit_of_le (Nat.le_trans (by decide) (Nat.le_add_right _ _))

/-- A quote among the units of characters is one of the characters. -/
theorem exists_split_of_getElem? {cs : List Char}
    (quote : (cs.flatMap charUnits)[start]? = some quoteUnit) :
    ∃ before after, cs = before ++ '"' :: after ∧ start = (before.flatMap charUnits).length := by
  induction cs generalizing start with
  | nil => cases quote
  | cons c cs ih =>
      obtain ⟨u, more, units, isQuote, -, plain⟩ := exists_charUnits c
      rw [List.flatMap_cons] at quote
      by_cases later : (charUnits c).length ≤ start
      · rw [List.getElem?_append_right later] at quote
        obtain ⟨before, after, rfl, place⟩ := ih quote
        refine ⟨c :: before, after, rfl, ?_⟩
        rw [List.flatMap_cons, List.length_append, ← place]
        omega
      · rw [List.getElem?_append_left (Nat.not_le.1 later), units] at quote
        cases start with
        | zero =>
            obtain rfl := isQuote.1 (Option.some.inj quote)
            exact ⟨[], cs, rfl, rfl⟩
        | succ k => exact absurd rfl (plain _ (List.mem_of_getElem? quote)).1

theorem doubledUnits_eq_self {us : List Nat} (plain : ∀ u ∈ us, IsPlainUnit u) :
    doubledUnits us = us := by
  induction us with
  | nil => rfl
  | cons u us ih =>
      rw [doubledUnits_cons, if_pos (plain u List.mem_cons_self),
        ih fun v later => plain v (List.mem_cons_of_mem _ later)]
      rfl

/-- The units of what is doubled are the doubled units. -/
theorem doubledUnits_flatMap (cs : List Char) :
    doubledUnits (cs.flatMap charUnits) = (doubled cs).flatMap charUnits := by
  induction cs with
  | nil => rfl
  | cons c cs ih =>
      rw [List.flatMap_cons, doubledUnits_append, ih, doubled_cons, List.flatMap_append]
      congr 1
      obtain ⟨u, more, units, isQuote, isBackslash, plain⟩ := exists_charUnits c
      by_cases both : isDoubled c = true
      · rw [if_pos both]
        simp only [isDoubled, Bool.or_eq_true, beq_iff_eq] at both
        rcases both with rfl | rfl <;> rfl
      · rw [if_neg both, List.flatMap_singleton, units]
        simp only [isDoubled, Bool.or_eq_true, beq_iff_eq, not_or] at both
        have first : IsPlainUnit u :=
          ⟨fun quote => both.1 (isQuote.1 quote), fun slash => both.2 (isBackslash.1 slash)⟩
        exact doubledUnits_eq_self (List.forall_mem_cons.2 ⟨first, plain⟩)

/-! ### Reading characters -/

/-- A segment is the one that was read from characters.  It has the units of what was read, after
those that were there before; it ends within the text if a quote closed it, and after that quote
stand the units of what was left. -/
structure Segment.IsRead (us value : List Nat) (read : List Char × Option (List Char))
    (s : Segment) : Prop where
  value : s.value = value ++ read.1.flatMap charUnits
  rest : us.drop (s.stop + 1) = (read.2.getD []).flatMap charUnits
  closed : s.stop < us.length ↔ read.2.isSome = true

theorem Segment.IsRead.cons {s : Segment} {c : Char} {chars : List Char}
    {after : Option (List Char)} (h : s.IsRead us (value ++ charUnits c) (chars, after)) :
    s.IsRead us value (c :: chars, after) :=
  ⟨by rw [h.value, List.flatMap_cons, List.append_assoc], h.rest, h.closed⟩

/-- Plain units are passed over. -/
theorem segmentFrom_append {more : List Nat} (left : us.drop i = more ++ rest)
    (plain : ∀ u ∈ more, IsPlainUnit u) (value : List Nat) :
    segmentFrom us value i = segmentFrom us (value ++ more) (i + more.length) := by
  induction more generalizing i value with
  | nil => rw [List.append_nil]; rfl
  | cons u more ih =>
      have unit : us[i]? = some u := getElem?_of_drop left
      rw [segmentFrom_plain unit (plain u List.mem_cons_self),
        ih (drop_of_drop left 1) fun v later => plain v (List.mem_cons_of_mem _ later),
        List.append_assoc, List.singleton_append, List.length_cons, Nat.add_assoc,
        Nat.add_comm 1]

/-- Units that start with a quote are those of characters that do. -/
theorem exists_cons_of_head? {cs : List Char}
    (quote : (cs.flatMap charUnits).head? = some quoteUnit) : ∃ after, cs = '"' :: after := by
  cases cs with
  | nil => cases quote
  | cons c cs =>
      obtain ⟨u, more, units, isQuote, -⟩ := exists_charUnits c
      rw [List.flatMap_cons, units] at quote
      obtain rfl := isQuote.1 (Option.some.inj quote)
      exact ⟨cs, rfl⟩

/-- A character is read once its first unit is, and what follows it as before. -/
theorem isRead_of_firstUnit {c : Char} {u : Nat} {more : List Nat} {cs chars : List Char}
    {after : Option (List Char)} (units : charUnits c = u :: more)
    (plain : ∀ v ∈ more, IsPlainUnit v) (left : us.drop i = more ++ cs.flatMap charUnits)
    (later : ∀ {j : Nat}, us.drop j = cs.flatMap charUnits → ∀ value : List Nat,
      (segmentFrom us value j).IsRead us value (chars, after)) :
    (segmentFrom us (value ++ [u]) i).IsRead us value (c :: chars, after) := by
  have rest : us.drop (i + more.length) = cs.flatMap charUnits := by
    rw [drop_of_drop left, List.drop_left]
  rw [segmentFrom_append left plain, List.append_assoc, List.singleton_append, ← units]
  exact (later rest _).cons

/-- **Units are read as characters are.** -/
theorem isRead_segmentFrom {cs : List Char} (left : us.drop i = cs.flatMap charUnits)
    (value : List Nat) : (segmentFrom us value i).IsRead us value (readQuoted cs) := by
  fun_induction readQuoted cs generalizing i value with
  | case1 =>
      have outside : us.length ≤ i := List.drop_eq_nil_iff.1 left
      rw [segmentFrom_end outside]
      exact ⟨(List.append_nil _).symm, List.drop_eq_nil_of_le (Nat.le_succ_of_le outside),
        iff_of_false (Nat.not_lt.2 outside) Bool.false_ne_true⟩
  | case2 cs text after read ih =>
      have first : us[i]? = some quoteUnit := getElem?_of_drop left
      have second : us[i + 1]? = some quoteUnit := getElem?_of_drop (drop_of_drop left 1)
      rw [read] at ih
      rw [segmentFrom_quote first second]
      exact (ih (drop_of_drop left 2) _).cons
  | case3 cs single =>
      have quote : us[i]? = some quoteUnit := getElem?_of_drop left
      have rest : us.drop (i + 1) = cs.flatMap charUnits := drop_of_drop left 1
      have apart : us[i + 1]? ≠ some quoteUnit := by
        rw [getElem?_of_drop rest]
        intro next
        obtain ⟨after, rfl⟩ := exists_cons_of_head? next
        exact single after rfl
      rw [segmentFrom_close quote apart]
      exact ⟨(List.append_nil _).symm, rest,
        iff_of_true (List.getElem?_eq_some_iff.1 quote).1 rfl⟩
  | case4 c cs text after read ih =>
      -- a character of two units has its second one after the backslash and the first
      obtain ⟨u, more, units, -, -, plain⟩ := exists_charUnits c
      have left' : us.drop i = backslashUnit :: u :: (more ++ cs.flatMap charUnits) := by
        rw [left, List.flatMap_cons, List.flatMap_cons, units]
        rfl
      have first : us[i]? = some backslashUnit := getElem?_of_drop left'
      have second : us[i + 1]? = some u := getElem?_of_drop (drop_of_drop left' 1)
      have later : us.drop (i + 2) = more ++ cs.flatMap charUnits := drop_of_drop left' 2
      rw [read] at ih
      rw [segmentFrom_escaped first second]
      exact isRead_of_firstUnit units plain later ih
  | case5 c cs notDoubled notQuote notEscape text after read ih =>
      obtain ⟨u, more, units, isQuote, isBackslash, plain⟩ := exists_charUnits c
      rw [List.flatMap_cons, units] at left
      have unit : us[i]? = some u := getElem?_of_drop left
      have later : us.drop (i + 1) = more ++ cs.flatMap charUnits := drop_of_drop left 1
      have last : u = backslashUnit → us[i + 1]? = none := by
        intro backslash
        obtain rfl := isBackslash.1 backslash
        obtain ⟨-, rfl⟩ := List.cons.inj units
        cases cs with
        | nil => exact getElem?_of_drop later
        | cons e cs => exact (notEscape e cs rfl rfl).elim
      rw [read] at ih
      rw [segmentFrom_unit unit (fun quote => notQuote (isQuote.1 quote)) last]
      exact isRead_of_firstUnit units plain later ih

/-! ### Segments of texts -/

/-- **Segments stay within their text and undo quoting.**  For any units and any index of a quote
among them, the segment that starts there ends after it and at most at their number, and it ends at
their number if and only if no quote closes it.  Any units that were doubled are read back from
between quotes, up to the quote after them, unless that one stands before another quote.  All this
holds of texts: at a quote among the units of a text there is the segment that `readQuoted` reads
after that quote, and the units of what is doubled are the doubled units. -/
theorem segmentAt_undoes_quoting :
    (∀ (us : List Nat) (start : Nat), us[start]? = some quoteUnit →
      start < (segmentAt us start).stop ∧ (segmentAt us start).stop ≤ us.length ∧
        ((segmentAt us start).stop = us.length ↔ ¬ ∃ text stop, IsClosedAt us start text stop)) ∧
    (∀ before body rest : List Nat, rest.head? ≠ some quoteUnit →
      segmentAt (before ++ quoteUnit :: (doubledUnits body ++ quoteUnit :: rest)) before.length =
        ⟨body, before.length + 1 + (doubledUnits body).length⟩) ∧
    (∀ (text : String) (start : Nat), (units text)[start]? = some quoteUnit →
      ∃ before after, text.toList = before ++ '"' :: after ∧
        start = (before.flatMap charUnits).length ∧
        (segmentAt (units text) start).IsRead (units text) [] (readQuoted after)) ∧
    ∀ body : List Char,
      doubledUnits (body.flatMap charUnits) = (doubled body).flatMap charUnits := by
  refine ⟨fun us start opening => ?_, fun before body rest => segmentAt_doubled before body,
    fun text start opening => ?_, doubledUnits_flatMap⟩
  · obtain ⟨inside, -⟩ := List.getElem?_eq_some_iff.1 opening
    have bounds : start < (segmentAt us start).stop ∧ (segmentAt us start).stop ≤ us.length :=
      segmentFrom_bounds [] inside
    exact ⟨bounds.1, bounds.2, segmentAt_stop_eq_length_iff opening⟩
  · obtain ⟨before, after, split, place⟩ := exists_split_of_getElem? opening
    have left : (units text).drop (start + 1) = after.flatMap charUnits := by
      rw [units, split, List.flatMap_append, place, drop_of_drop List.drop_left]
      rfl
    exact ⟨before, after, split, place, isRead_segmentFrom left []⟩

/-- A row with a quote, a backslash and a character of two units in its first field. -/
def quotedSpecimen : String := "(\"a\"\"\\\\😀\",b)"

theorem segmentAt_undoes_quoting_specimen :
    (units quotedSpecimen)[1]? = some quoteUnit ∧ (units ",b)").head? ≠ some quoteUnit ∧
      segmentAt (units quotedSpecimen) 1 = ⟨units "a\"\\😀", 9⟩ ∧
      ((segmentAt (units quotedSpecimen) 1).stop = unitLength quotedSpecimen ↔
        ¬ ∃ text stop, IsClosedAt (units quotedSpecimen) 1 text stop) ∧
      ∃ before after, quotedSpecimen.toList = before ++ '"' :: after ∧
        1 = (before.flatMap charUnits).length ∧
        (segmentAt (units quotedSpecimen) 1).IsRead (units quotedSpecimen) []
          (readQuoted after) := by
  obtain ⟨bounds, undoes, agrees, -⟩ := segmentAt_undoes_quoting
  have opening : (units quotedSpecimen)[1]? = some quoteUnit := by decide
  have apart : (units ",b)").head? ≠ some quoteUnit := by decide
  have read := undoes (units "(") (units "a\"\\😀") (units ",b)") apart
  have written : units "(" ++ quoteUnit :: (doubledUnits (units "a\"\\😀") ++ quoteUnit ::
      units ",b)") = units quotedSpecimen := by decide
  rw [written] at read
  exact ⟨opening, apart, read, (bounds _ 1 opening).2.2, agrees _ 1 opening⟩

end RowLiteral.Literal
