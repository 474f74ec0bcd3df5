import RowLiteral.Proofs.Literal.Pieces

/-!
# Literal — reading what was written

A scan that goes on from within a field (`readFrom`), one character after the other, and what it
makes of a row literal written by `writeRow`.

* `Field.IsOpen` holds at every moment of a scan: a delimiter was just read, or something was
  collected.  So a field that ends gives exactly one token (`Field.IsOpen.close`).
* `IsLegible` singles out the texts that are read back from the form in which they are written.
* `tokens_writeRow_iff`: the tokens of a written row are the tokens that were written if and only
  if each of them is legible.
-/

namespace RowLiteral.Literal
open RowLiteral.Text

/-! ### Fields -/

namespace Field

variable {f : Field} {c : Char} {cs : List Char}

/-- The field in which nothing but a token was read. -/
def holding : Token → Field
  | none => .start
  | some cs => .replace cs

/-- The token that a field gives when it ends. -/
def token (f : Field) : Token := if f.atDelimiter then none else f.collected

/-- A delimiter was just read, or something was collected. -/
def IsOpen (f : Field) : Prop := f.atDelimiter = true ∨ f.collected.isSome = true

theorem isOpen_start : start.IsOpen := Or.inl rfl

theorem isOpen_add : (f.add c).IsOpen := Or.inr rfl

theorem isOpen_replace : (replace cs).IsOpen := Or.inr rfl

theorem isOpen_mark : f.mark.IsOpen := Or.inl rfl

/-- A field that ends gives one token. -/
theorem IsOpen.close (h : f.IsOpen) : f.close = [f.token] := by
  obtain ⟨collected, atDelimiter⟩ := f
  cases atDelimiter with
  | true => rfl
  | false =>
      rcases h with h | h
      · exact absurd h Bool.false_ne_true
      · obtain ⟨text, rfl⟩ := Option.isSome_iff_exists.1 h
        rfl

theorem close_holding (t : Token) : (holding t).close = [t] := by
  cases t <;> rfl

end Field

/-! ### One character -/

/-- The tokens of the rest of a literal, read from within a field. -/
def readFrom (d : Delimiters) (f : Field) (cs : List Char) : List Token :=
  tokensFrom f (pieces d cs)

section Step

variable {d : Delimiters} {f : Field} {c : Char} {cs rest : List Char}

theorem readFrom_opening (h : d.piece? c = some .opening) :
    readFrom d f (c :: rest) = readFrom d f.mark rest := by
  rw [readFrom, pieces_cons_of_some h, tokensFrom, readFrom]

theorem readFrom_closing (h : d.piece? c = some .closing) : readFrom d f (c :: rest) = f.close := by
  rw [readFrom, pieces_cons_of_some h, tokensFrom]

theorem readFrom_comma (h : d.piece? c = some .comma) :
    readFrom d f (c :: rest) = f.close ++ readFrom d .start rest := by
  rw [readFrom, pieces_cons_of_some h, tokensFrom, readFrom]

theorem readFrom_blank (h : d.piece? c = some .blank) : readFrom d f (c :: rest) = [] := by
  rw [readFrom, pieces_cons_of_some h, tokensFrom]

theorem readFrom_bare (h : d.piece? c = some (.bare c)) :
    readFrom d f (c :: rest) = readFrom d (f.add c) rest := by
  rw [readFrom, pieces_cons_of_some h, tokensFrom, readFrom]

theorem readFrom_quote (h : d.piece? '"' = none) :
    readFrom d f ('"' :: rest) =
      readFrom d (.replace (readQuoted rest).1) ((readQuoted rest).2.getD []) := by
  rw [readFrom, pieces_quote h, tokensFrom, readFrom]

/-! ### Several characters -/

/-- A text between quotes takes the place of what was collected. -/
theorem readFrom_enquote (hd : d.piece? '"' = none) (h : rest.head? ≠ some '"') :
    readFrom d f (enquote cs ++ rest) = readFrom d (.replace cs) rest := by
  rw [readFrom, pieces_enquote hd h, tokensFrom, readFrom]

/-- Bare characters add to what was collected. -/
theorem readFrom_append_bare (hne : cs ≠ []) (h : ∀ c ∈ cs, d.piece? c = some (.bare c)) :
    readFrom d f (cs ++ rest) = readFrom d (.replace (f.collected.getD [] ++ cs)) rest := by
  induction cs generalizing f with
  | nil => exact absurd rfl hne
  | cons c cs ih =>
      rw [List.cons_append, readFrom_bare (h c List.mem_cons_self)]
      by_cases hcs : cs = []
      · subst hcs; rfl
      · rw [ih hcs fun e he => h e (List.mem_cons_of_mem _ he)]
        simp only [Field.add, Option.getD_some, List.append_assoc, List.singleton_append]

end Step

/-! ### Written tokens -/

variable {f : Field} {t : Token} {cs rest : List Char} {ts : List Token}

/-- A blank that stands bare ends the scan. -/
theorem readFrom_append_blank (hq : ∀ c ∈ cs, needsQuoting c = false)
    (hb : ∃ c ∈ cs, isBreaking c = true) : readFrom .row f (cs ++ rest) = [] := by
  induction cs generalizing f with
  | nil => obtain ⟨_, h, -⟩ := hb; cases h
  | cons c cs ih =>
      have hc := row_piece?_plain (hq c List.mem_cons_self)
      rw [List.cons_append]
      by_cases hbc : isBreaking c = true
      · rw [if_pos hbc] at hc
        exact readFrom_blank hc
      · rw [if_neg hbc] at hc
        rw [readFrom_bare hc]
        refine ih (fun e he => hq e (List.mem_cons_of_mem _ he)) ?_
        obtain ⟨e, he, hbe⟩ := hb
        rcases List.mem_cons.1 he with rfl | he
        · exact absurd hbe hbc
        · exact ⟨e, he, hbe⟩

/-- A text that asks for quotes, or in which there is no blank that would end a scan. -/
def IsUnbroken (cs : List Char) : Prop :=
  cs.any needsQuoting = true ∨ ∀ x ∈ cs, isBreaking x = false

theorem isUnbroken_iff_all {cs : List Char} : IsUnbroken cs ↔
    cs.any needsQuoting = true ∨ cs.all (fun x => !isBreaking x) = true := by
  rw [IsUnbroken, List.all_eq_true]
  simp only [Bool.not_eq_true']

instance (cs : List Char) : Decidable (IsUnbroken cs) :=
  decidable_of_iff _ isUnbroken_iff_all.symm

/-- A text that is read back from the form in which it is written: it is not empty, and where it is
not put between quotes no blank stands in it that ends the scan. -/
def IsLegible (cs : List Char) : Prop :=
  cs ≠ [] ∧ (cs.any needsQuoting = true ∨ ∀ c ∈ cs, isBreaking c = false)

theorem isLegible_iff_all : IsLegible cs ↔ cs ≠ [] ∧
    (cs.any needsQuoting = true ∨ cs.all (fun c => !isBreaking c) = true) :=
  and_congr_right fun _ => isUnbroken_iff_all

instance (cs : List Char) : Decidable (IsLegible cs) := decidable_of_iff _ isLegible_iff_all.symm

/-- A legible token is read back. -/
theorem readFrom_writeToken (h : ∀ cs ∈ t, IsLegible cs) (hr : rest.head? ≠ some '"') :
    readFrom .row .start (writeToken t ++ rest) = readFrom .row (.holding t) rest := by
  cases t with
  | none => rfl
  | some cs =>
      obtain ⟨hne, hcs⟩ := h cs rfl
      rw [writeToken]
      split
      · exact readFrom_enquote row_piece?_quote hr
      · next hq =>
        have hb := hcs.resolve_left hq
        rw [readFrom_append_bare hne fun c hc => row_piece?_bare ?_ (hb c hc)]
        · rfl
        · exact Bool.eq_false_iff.2 fun hc' => hq (List.any_eq_true.2 ⟨c, hc, hc'⟩)

/-- The delimiters and tokens that follow a token in a written row. -/
def writeEnd : List Token → List Char
  | [] => [')']
  | t :: ts => ',' :: (writeToken t ++ writeEnd ts)

/-- A text that starts with a delimiter at which a field ends. -/
def EndsField : List Char → Prop
  | [] => False
  | c :: _ => c = ',' ∨ c = ')'

theorem endsField_writeEnd (ts : List Token) : EndsField (writeEnd ts) := by
  cases ts with
  | nil => exact Or.inr rfl
  | cons t ts => exact Or.inl rfl

namespace EndsField

theorem exists_cons (h : EndsField rest) : ∃ c more, rest = c :: more ∧ (c = ',' ∨ c = ')') := by
  cases rest with
  | nil => exact h.elim
  | cons c more => exact ⟨c, more, rfl, h⟩

theorem head?_ne (h : EndsField rest) : rest.head? ≠ some '"' := by
  obtain ⟨c, more, rfl, rfl | rfl⟩ := h.exists_cons <;> exact fun e => nomatch e

/-- The field before ends there, and what follows does not depend on it. -/
theorem exists_readFrom (h : EndsField rest) :
    ∃ us, ∀ f, readFrom .row f rest = f.close ++ us := by
  obtain ⟨c, more, rfl, rfl | rfl⟩ := h.exists_cons
  · exact ⟨_, fun f => readFrom_comma row_piece?_comma⟩
  · exact ⟨[], fun f => by rw [readFrom_closing row_piece?_closing, List.append_nil]⟩

end EndsField

/-- A text that is not legible is not the first token that is read where it was written. -/
theorem head?_readFrom_ne (h : ¬ IsLegible cs) (hr : EndsField rest) :
    (readFrom .row .start (writeToken (some cs) ++ rest)).head? ≠ some (some cs) := by
  obtain ⟨us, hus⟩ := hr.exists_readFrom
  by_cases hne : cs = []
  · subst hne
    rw [show writeToken (some []) ++ rest = rest from rfl, hus]
    exact fun e => nomatch e
  · -- nothing in the text asks for quotes, and a blank in it is met
    obtain ⟨hq, hb⟩ := not_or.1 (not_and.1 h hne)
    obtain ⟨c, hb⟩ := Classical.not_forall.1 hb
    obtain ⟨hc, hb⟩ := Classical.not_imp.1 hb
    rw [writeToken, if_neg hq, readFrom_append_blank
      (fun e he => Bool.eq_false_iff.2 fun he' => hq (List.any_eq_true.2 ⟨e, he, he'⟩))
      ⟨c, hc, Bool.not_eq_false _ ▸ hb⟩]
    exact fun e => nomatch e

/-- What follows a token is read back if and only if all that was written there is legible. -/
theorem readFrom_writeEnd_iff : readFrom .row f (writeEnd ts) = f.close ++ ts ↔
    ∀ cs, some cs ∈ ts → IsLegible cs := by
  induction ts generalizing f with
  | nil =>
      rw [writeEnd, readFrom_closing row_piece?_closing, List.append_nil]
      exact ⟨fun _ _ h => absurd h List.not_mem_nil, fun _ => rfl⟩
  | cons t ts ih =>
      rw [writeEnd, readFrom_comma row_piece?_comma, List.append_cancel_left_eq]
      by_cases ht : ∀ cs ∈ t, IsLegible cs
      · have hts := ih (f := .holding t)
        rw [Field.close_holding, List.singleton_append] at hts
        rw [readFrom_writeToken ht (endsField_writeEnd ts).head?_ne, hts]
        refine ⟨fun h cs hcs => ?_, fun h cs hcs => h cs (List.mem_cons_of_mem _ hcs)⟩
        rcases List.mem_cons.1 hcs with rfl | hcs
        · exact ht cs rfl
        · exact h cs hcs
      · cases t with
        | none => exact absurd (fun _ h => nomatch h) ht
        | some cs =>
            have hcs : ¬ IsLegible cs := fun h => ht fun _ e => Option.some.inj e ▸ h
            refine ⟨fun h => ?_, fun h => absurd (h cs List.mem_cons_self) hcs⟩
            exact absurd (congrArg List.head? h) (head?_readFrom_ne hcs (endsField_writeEnd ts))

/-! ### Written rows -/

theorem writeRow_cons (t : Token) (ts : List Token) :
    writeRow (t :: ts) = '(' :: (writeToken t ++ writeEnd ts) := by
  have e : ∀ t : Token, List.intercalate [','] ((t :: ts).map writeToken) ++ [')'] =
      writeToken t ++ writeEnd ts := by
    induction ts with
    | nil => intro t; simp [writeEnd, List.intercalate]
    | cons u ts ih =>
        intro t
        rw [writeEnd, ← ih u]
        simp [List.intercalate]
  rw [writeRow, List.cons_append, e]

/-- **Reading a written row.**  The tokens that are read are those that were written if and only if
each of them is legible. -/
theorem tokens_writeRow_iff (hts : ts ≠ []) :
    tokens .row (writeRow ts) = ts ↔ ∀ cs, some cs ∈ ts → IsLegible cs := by
  cases ts with
  | nil => exact absurd rfl hts
  | cons t ts =>
      have hstart : tokens .row (writeRow (t :: ts)) =
          readFrom .row .start (writeToken t ++ writeEnd ts) := by
        rw [writeRow_cons]
        exact readFrom_opening (f := .start) row_piece?_opening
      have h := @readFrom_writeEnd_iff .start (t :: ts)
      rw [writeEnd, readFrom_comma row_piece?_comma, List.append_cancel_left_eq] at h
      rw [hstart, h]

/-! ### What a written row determines -/

/-- A token, with the empty text taken for NULL. -/
def filled (t : Token) : Token := t.filter fun cs => cs ≠ []

/-- The characters that do not ask for quotes. -/
def isPlain (c : Char) : Bool := !needsQuoting c

/-- The token at the start of what was written, with blanks like any other character, and what
comes after it. -/
def firstToken : List Char → Token × List Char
  | '"' :: cs => (some (readQuoted cs).1, (readQuoted cs).2.getD [])
  | cs => (filled (some (cs.takeWhile isPlain)), cs.dropWhile isPlain)

theorem firstToken_of_ne (h : rest.head? ≠ some '"') :
    firstToken rest = (filled (some (rest.takeWhile isPlain)), rest.dropWhile isPlain) := by
  rw [firstToken]
  rintro cs rfl
  exact h rfl

/-- What was written bare is taken up to the delimiter. -/
theorem firstToken_bare (hq : ∀ c ∈ cs, needsQuoting c = false) (hr : EndsField rest) :
    firstToken (cs ++ rest) = (filled (some cs), rest) := by
  have hcs : ∀ c ∈ cs, isPlain c = true := fun c hc => by rw [isPlain, hq c hc]; rfl
  obtain ⟨d, more, rfl, hd⟩ := hr.exists_cons
  have hd' : ¬ isPlain d = true := by rcases hd with rfl | rfl <;> decide
  rw [firstToken_of_ne, List.takeWhile_append_of_pos hcs, List.dropWhile_append_of_pos hcs,
    List.takeWhile_cons_of_neg hd', List.dropWhile_cons_of_neg hd', List.append_nil]
  cases cs with
  | nil => exact hr.head?_ne
  | cons c cs =>
      intro h
      rw [Option.some.inj h] at hq
      exact absurd (hq _ List.mem_cons_self) (by decide)

/-- A written token is found again, whatever its blanks. -/
theorem firstToken_writeToken (t : Token) (hr : EndsField rest) :
    firstToken (writeToken t ++ rest) = (filled t, rest) := by
  cases t with
  | none => exact @firstToken_bare [] rest (fun _ h => absurd h List.not_mem_nil) hr
  | some cs =>
      rw [writeToken]
      split
      · next hq =>
        have hne : cs ≠ [] := by rintro rfl; exact absurd hq Bool.false_ne_true
        rw [enquote, List.cons_append, List.cons_append, List.append_assoc, firstToken,
          List.singleton_append, readQuoted_doubled cs hr.head?_ne]
        simp only [filled, Option.filter_some, Option.getD_some, hne, ne_eq, not_false_eq_true,
          decide_true, if_true]
      · next hq =>
        exact firstToken_bare (fun c hc => Bool.eq_false_iff.2 fun hc' =>
          hq (List.any_eq_true.2 ⟨c, hc, hc'⟩)) hr

theorem writeToken_filled (t : Token) : writeToken (filled t) = writeToken t := by
  cases t with
  | none => rfl
  | some cs => cases cs <;> rfl

theorem writeEnd_filled (ts : List Token) : writeEnd (ts.map filled) = writeEnd ts := by
  induction ts with
  | nil => rfl
  | cons t ts ih => rw [List.map_cons, writeEnd, writeToken_filled, ih, writeEnd]

theorem writeRow_filled (ts : List Token) : writeRow (ts.map filled) = writeRow ts := by
  rw [writeRow, List.map_map, show writeToken ∘ filled = writeToken from funext writeToken_filled,
    writeRow]

/-- What follows a token determines the tokens in it, up to empty texts. -/
theorem map_filled_of_writeEnd_eq : ∀ {ts us : List Token}, writeEnd ts = writeEnd us →
    ts.map filled = us.map filled
  | [], [], _ => rfl
  | [], _ :: _, h | _ :: _, [], h => by
      rw [writeEnd, writeEnd] at h
      exact absurd (List.cons.inj h).1 (by decide)
  | t :: ts, u :: us, h => by
      rw [writeEnd, writeEnd] at h
      have e := congrArg firstToken (List.cons.inj h).2
      rw [firstToken_writeToken t (endsField_writeEnd ts),
        firstToken_writeToken u (endsField_writeEnd us)] at e
      obtain ⟨e, e'⟩ := Prod.mk.inj e
      rw [List.map_cons, List.map_cons, e, map_filled_of_writeEnd_eq e']

/-- **What a written row determines.**  Two rows with equally many tokens are written alike if and
only if their tokens are the same up to empty texts, which are written like NULL. -/
theorem writeRow_eq_iff {ts us : List Token} (h : ts.length = us.length) :
    writeRow ts = writeRow us ↔ ts.map filled = us.map filled := by
  cases ts with
  | nil =>
      obtain rfl := List.eq_nil_of_length_eq_zero h.symm
      exact ⟨fun _ => rfl, fun _ => rfl⟩
  | cons t ts =>
      obtain ⟨u, us, rfl⟩ := List.exists_cons_of_length_eq_add_one h.symm
      have hw : ∀ (t : Token) ts, ',' :: (writeRow (t :: ts)).tail = writeEnd (t :: ts) := by
        intro t ts
        rw [writeRow_cons, List.tail_cons, writeEnd]
      refine ⟨fun e => map_filled_of_writeEnd_eq (by rw [← hw, ← hw, e]), fun e => ?_⟩
      have e' := writeEnd_filled (u :: us)
      rw [← e, writeEnd_filled, writeEnd, writeEnd] at e'
      rw [writeRow_cons, writeRow_cons, (List.cons.inj e').2]

end RowLiteral.Literal
