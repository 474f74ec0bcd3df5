import RowLiteral.Proofs.Literal.Written

/-!
# Literal — reading what was doubled once more

A row in a row is written with its quotes and backslashes doubled, before it is put between quotes
and they are doubled again.  One scan undoes one doubling, so what is read as the inner row is its
literal with every quote and backslash doubled.

A token that was written bare is not changed by that.  A token that was put between quotes now
stands between two pairs of quotes, each of which is read as an empty segment, and its characters
stand bare between them, each quote in it as a segment of its own.  So the token that is read ends
at the first comma or closing delimiter in it, or else it consists of the quotes before its closing
pair (`closingQuotes`).

* `readFrom_doubled_plain`: a token without characters that ask for quotes is read back.
* `token_of_doubled`: what can be read for a token that was put between quotes.
* `readFrom_eq_nil`: a text without comma and closing delimiter has no tokens.
-/

namespace RowLiteral.Literal
open RowLiteral.Text

variable {f : Field} {c : Char} {cs rest : List Char}

/-! ### Texts without delimiters -/

/-- A text without comma and closing delimiter has no tokens. -/
theorem readFrom_eq_nil (hm : ',' ∉ cs) (hc : ')' ∉ cs) : readFrom .row f cs = [] := by
  rw [readFrom]
  fun_induction pieces .row cs generalizing f with
  | case1 => rw [tokensFrom]
  | case2 c cs p hp ih =>
      have tail : ∀ f, tokensFrom f (pieces .row cs) = [] := fun f =>
        ih (fun h => hm (List.mem_cons_of_mem _ h)) (fun h => hc (List.mem_cons_of_mem _ h))
      cases p with
      | opening | bare | quoted => rw [tokensFrom, tail]
      | blank => rw [tokensFrom]
      | comma => exact absurd (isOf_of_piece? hp ▸ List.mem_cons_self) hm
      | closing => exact absurd (Option.some.inj (isOf_of_piece? hp) ▸ List.mem_cons_self) hc
  | case3 c cs hp ih =>
      have part : (readQuoted cs).2.getD [] ⊆ c :: cs := fun e he =>
        List.mem_cons_of_mem _ ((readQuoted_rest_suffix cs).subset he)
      rw [tokensFrom, ih (fun h => hm (part h)) (fun h => hc (part h))]

/-! ### Runs of quotes -/

theorem quotes_append_quote (n : Nat) : List.replicate n '"' ++ '"' :: rest =
    '"' :: (List.replicate n '"' ++ rest) := by
  rw [← List.cons_append, ← List.replicate_succ, List.replicate_succ', List.append_assoc,
    List.singleton_append]

theorem not_mem_quotes (n : Nat) (h : c ≠ '"') : c ∉ List.replicate n '"' :=
  fun hc => h (List.eq_of_mem_replicate hc)

/-- A run of quotes of even length is one segment. -/
theorem readFrom_quotes (n : Nat) (h : rest.head? ≠ some '"') :
    readFrom .row f ('"' :: (List.replicate (2 * n) '"' ++ '"' :: rest)) =
      readFrom .row (.replace (List.replicate n '"')) rest := by
  rw [readFrom_quote row_piece?_quote, readQuoted_quotes n h, Option.getD_some]

/-- A field in which no comma and no closing delimiter was collected. -/
structure Field.IsClean (f : Field) : Prop where
  isOpen : f.IsOpen
  comma : ∀ text ∈ f.collected, ',' ∉ text
  closing : ∀ text ∈ f.collected, ')' ∉ text

namespace Field.IsClean

theorem mark (h : f.IsClean) : f.mark.IsClean := ⟨isOpen_mark, h.comma, h.closing⟩

theorem add (h : f.IsClean) (hm : c ≠ ',') (hc : c ≠ ')') : (f.add c).IsClean := by
  refine ⟨isOpen_add, fun text ht => ?_, fun text ht => ?_⟩
  · obtain rfl := Option.some.inj ht
    cases hf : f.collected with
    | none => simpa using Ne.symm hm
    | some text => simpa using ⟨h.comma text hf, Ne.symm hm⟩
  · obtain rfl := Option.some.inj ht
    cases hf : f.collected with
    | none => simpa using Ne.symm hc
    | some text => simpa using ⟨h.closing text hf, Ne.symm hc⟩

theorem replace_quotes (n : Nat) : (Field.replace (List.replicate n '"')).IsClean := by
  refine ⟨isOpen_replace, fun text ht => ?_, fun text ht => ?_⟩
  · obtain rfl := Option.some.inj ht
    exact not_mem_quotes n (by decide)
  · obtain rfl := Option.some.inj ht
    exact not_mem_quotes n (by decide)

/-- The token of such a field has no comma and no closing delimiter. -/
theorem of_token (h : f.IsClean) {text : List Char} (e : f.token = some text) :
    ',' ∉ text ∧ ')' ∉ text := by
  rw [Field.token] at e
  split at e
  · cases e
  · exact ⟨h.comma text e, h.closing text e⟩

end Field.IsClean

/-- A run of quotes of even length, or none, leaves a field without comma and closing delimiter. -/
theorem exists_readFrom_quotes (hf : f.IsClean) (n : Nat) (h : rest.head? ≠ some '"') :
    ∃ g : Field, g.IsClean ∧
      readFrom .row f (List.replicate (2 * n) '"' ++ rest) = readFrom .row g rest := by
  cases n with
  | zero => exact ⟨f, hf, rfl⟩
  | succ n =>
      refine ⟨_, Field.IsClean.replace_quotes n, ?_⟩
      rw [← readFrom_quotes n h, quotes_append_quote, Nat.mul_succ, List.replicate_succ,
        List.replicate_succ]
      rfl

/-! ### Quoted tokens -/

theorem doubled_doubled_quote : doubled (doubled ('"' :: cs)) =
    '"' :: '"' :: '"' :: '"' :: doubled (doubled cs) := rfl

theorem doubled_doubled_backslash : doubled (doubled ('\\' :: cs)) =
    '\\' :: '\\' :: '\\' :: '\\' :: doubled (doubled cs) := rfl

theorem doubled_doubled_cons (h : isDoubled c = false) :
    doubled (doubled (c :: cs)) = c :: doubled (doubled cs) := by
  have single : ∀ ds, doubled (c :: ds) = c :: doubled ds := fun ds => by
    rw [doubled_cons, h, if_neg Bool.false_ne_true, List.singleton_append]
  rw [single, single]

theorem doubled_enquote : doubled (enquote cs) =
    '"' :: '"' :: (doubled (doubled cs) ++ ['"', '"']) := by
  rw [enquote, List.cons_append, doubled_cons, doubled_append]
  rfl

/-- The pairs of quotes that stand directly before the end of a text in which every quote stands
four times; `n` pairs stand before the text. -/
def closingQuotes : Nat → List Char → Nat
  | n, [] => n
  | n, '"' :: cs => closingQuotes (n + 2) cs
  | _, _ :: cs => closingQuotes 0 cs

theorem closingQuotes_cons (n : Nat) (h : c ≠ '"') :
    closingQuotes n (c :: cs) = closingQuotes 0 cs := by
  rw [closingQuotes]
  rintro rfl
  exact h rfl

/-- What a character other than a quote does to a field without comma and closing delimiter: it
leaves one, or it ends the field, or it ends the scan. -/
theorem Field.IsClean.readFrom_cons (hf : f.IsClean) (hq : c ≠ '"') :
    (∃ g : Field, g.IsClean ∧ readFrom .row f (c :: rest) = readFrom .row g rest) ∨
      ((c = ',' ∨ c = ')') ∧ (readFrom .row f (c :: rest)).head? = some f.token) ∨
      readFrom .row f (c :: rest) = [] := by
  cases hp : Delimiters.row.piece? c with
  | none => exact absurd (eq_quote_of_piece? hp) hq
  | some p =>
      have hc := isOf_of_piece? hp
      cases p with
      | opening => exact Or.inl ⟨_, hf.mark, readFrom_opening hp⟩
      | closing =>
          refine Or.inr (Or.inl ⟨Or.inr (Option.some.inj hc).symm, ?_⟩)
          rw [readFrom_closing hp, hf.isOpen.close, List.head?_cons]
      | comma =>
          refine Or.inr (Or.inl ⟨Or.inl hc, ?_⟩)
          rw [readFrom_comma hp, hf.isOpen.close, List.singleton_append, List.head?_cons]
      | blank => exact Or.inr (Or.inr (readFrom_blank hp))
      | bare d =>
          obtain rfl : d = c := hc
          have hm : d ≠ ',' := by rintro rfl; cases hp
          have hc : d ≠ ')' := by rintro rfl; cases hp
          exact Or.inl ⟨_, hf.add hm hc, readFrom_bare hp⟩
      | quoted => exact hc.elim

/-- Backslashes leave a field without comma and closing delimiter. -/
theorem Field.IsClean.readFrom_backslashes (hf : f.IsClean) : ∃ g : Field, g.IsClean ∧
    readFrom .row f ('\\' :: '\\' :: '\\' :: '\\' :: rest) = readFrom .row g rest := by
  have bare : Delimiters.row.piece? '\\' = some (.bare '\\') := rfl
  have step {g : Field} (hg : g.IsClean) : (g.add '\\').IsClean := hg.add (by decide) (by decide)
  refine ⟨_, step (step (step (step hf))), ?_⟩
  rw [readFrom_bare bare, readFrom_bare bare, readFrom_bare bare, readFrom_bare bare]

/-- **What is read between two pairs of quotes.**  Where a text stands with every quote and every
backslash four times, after `n` pairs of quotes and before one more, the token that is read has no
comma and no closing delimiter although the text has one, or it consists of quotes. -/
theorem token_between_quotes {w : List Char} (hr : EndsField rest) (hf : f.IsClean) (n : Nat)
    (h : (readFrom .row f (List.replicate (2 * n) '"' ++
      (doubled (doubled cs) ++ '"' :: '"' :: rest))).head?.join = some w) :
    ((',' ∈ cs ∨ ')' ∈ cs) ∧ ',' ∉ w ∧ ')' ∉ w) ∨
      w = List.replicate (closingQuotes n cs) '"' := by
  induction cs generalizing f n with
  | nil =>
      -- the last pair makes one segment with the pairs before it
      obtain ⟨us, hus⟩ := hr.exists_readFrom
      rw [doubled, doubled, List.flatMap_nil, List.flatMap_nil, List.nil_append,
        quotes_append_quote, readFrom_quotes n hr.head?_ne, hus] at h
      exact Or.inr (Option.some.inj h).symm
  | cons c cs ih =>
      have later : ∀ {k : Nat}, ((',' ∈ cs ∨ ')' ∈ cs) ∧ ',' ∉ w ∧ ')' ∉ w) ∨
          w = List.replicate (closingQuotes k cs) '"' →
          ((',' ∈ c :: cs ∨ ')' ∈ c :: cs) ∧ ',' ∉ w ∧ ')' ∉ w) ∨
          w = List.replicate (closingQuotes k cs) '"' := fun h =>
        h.imp_left (And.imp_left (Or.imp (List.mem_cons_of_mem c) (List.mem_cons_of_mem c)))
      by_cases hq : c = '"'
      · -- two more pairs
        subst hq
        rw [closingQuotes]
        refine later (ih hf (n + 2) ?_)
        rw [← h, doubled_doubled_quote, Nat.mul_add, ← List.replicate_append_replicate,
          List.append_assoc]
        rfl
      -- the pairs before any other character are a segment
      rw [closingQuotes_cons n hq]
      by_cases hb : c = '\\'
      · subst hb
        obtain ⟨g, hg, e⟩ := @exists_readFrom_quotes f
          (doubled (doubled ('\\' :: cs)) ++ '"' :: '"' :: rest) hf n (fun e => nomatch e)
        rw [doubled_doubled_backslash] at e h
        obtain ⟨g', hg', e'⟩ := @Field.IsClean.readFrom_backslashes g
          (doubled (doubled cs) ++ '"' :: '"' :: rest) hg
        rw [e] at h
        exact later (ih hg' 0 (e' ▸ h))
      · have hd : isDoubled c = false := by simp [isDoubled, hq, hb]
        rw [doubled_doubled_cons hd, List.cons_append] at h
        obtain ⟨g, hg, e⟩ := @exists_readFrom_quotes f
          (c :: (doubled (doubled cs) ++ '"' :: '"' :: rest)) hf n fun e => hq (Option.some.inj e)
        rw [e] at h
        obtain ⟨g', hg', e'⟩ | ⟨hc, e'⟩ | e' := @Field.IsClean.readFrom_cons g c
          (doubled (doubled cs) ++ '"' :: '"' :: rest) hg hq
        · exact later (ih hg' 0 (e' ▸ h))
        · rw [e', Option.join_some] at h
          refine Or.inl ⟨?_, hg.of_token h⟩
          rcases hc with rfl | rfl
          · exact Or.inl List.mem_cons_self
          · exact Or.inr List.mem_cons_self
        · rw [e'] at h
          cases h

/-! ### Written tokens -/

variable {t : Token} {w : List Char}

/-- A token that was written bare is read back also where it was doubled. -/
theorem readFrom_doubled_plain (h : ∀ cs ∈ t, IsLegible cs ∧ ∀ c ∈ cs, needsQuoting c = false)
    (hr : rest.head? ≠ some '"') :
    readFrom .row .start (doubled (writeToken t) ++ rest) = readFrom .row (.holding t) rest := by
  have same : doubled (writeToken t) = writeToken t := by
    cases t with
    | none => rfl
    | some cs =>
        have hq : ¬ cs.any needsQuoting = true := fun hq => by
          obtain ⟨c, hc, hq⟩ := List.any_eq_true.1 hq
          exact absurd hq (Bool.eq_false_iff.1 ((h cs rfl).2 c hc))
        rw [writeToken, if_neg hq, doubled_eq_self_of_plain (h cs rfl).2]
  rw [same, readFrom_writeToken (fun cs hcs => (h cs hcs).1) hr]

/-- The token that is read where a token was put between quotes and then doubled. -/
theorem token_of_doubled (hq : cs.any needsQuoting = true) (hr : EndsField rest)
    (h : (readFrom .row .start (doubled (writeToken (some cs)) ++ rest)).head?.join = some w) :
    ((',' ∈ cs ∨ ')' ∈ cs) ∧ ',' ∉ w ∧ ')' ∉ w) ∨
      w = List.replicate (closingQuotes 1 cs) '"' := by
  have start : Field.start.IsClean :=
    ⟨Field.isOpen_start, fun _ h => (nomatch h), fun _ h => (nomatch h)⟩
  rw [writeToken, if_pos hq, doubled_enquote, List.cons_append, List.cons_append,
    List.append_assoc] at h
  exact token_between_quotes hr start 1 h

/-- Such a token has no comma and no closing delimiter. -/
theorem not_mem_token_of_doubled (hq : cs.any needsQuoting = true) (hr : EndsField rest)
    (h : (readFrom .row .start (doubled (writeToken (some cs)) ++ rest)).head?.join = some w) :
    ',' ∉ w ∧ ')' ∉ w := by
  rcases token_of_doubled hq hr h with ⟨-, hw⟩ | rfl
  · exact hw
  · exact ⟨not_mem_quotes _ (by decide), not_mem_quotes _ (by decide)⟩

/-- The quotes before the closing pair are never the text itself. -/
theorem replicate_closingQuotes_ne (cs : List Char) :
    List.replicate (closingQuotes 1 cs) '"' ≠ cs := by
  have count : ∀ k n, closingQuotes n (List.replicate k '"') = n + 2 * k := by
    intro k
    induction k with
    | zero => exact fun n => rfl
    | succ k ih => intro n; rw [List.replicate_succ, closingQuotes, ih, Nat.mul_succ]; omega
  intro h
  have hc := count (closingQuotes 1 cs) 1
  rw [h] at hc
  omega

/-- A text is not read back where it was put between quotes and then doubled. -/
theorem token_of_doubled_ne (hq : cs.any needsQuoting = true) (hr : EndsField rest) :
    (readFrom .row .start (doubled (writeToken (some cs)) ++ rest)).head?.join ≠ some cs := by
  intro h
  rcases token_of_doubled hq hr h with ⟨hm | hc, hm', hc'⟩ | h
  · exact hm' hm
  · exact hc' hc
  · exact replicate_closingQuotes_ne cs h.symm

/-! ### Written rows -/

theorem endsField_doubled_writeEnd (ts : List Token) : EndsField (doubled (writeEnd ts)) := by
  cases ts with
  | nil => exact Or.inr rfl
  | cons t ts => exact Or.inl rfl

theorem readFrom_doubled_writeEnd_nil : readFrom .row f (doubled (writeEnd [])) = f.close :=
  readFrom_closing row_piece?_closing

theorem readFrom_doubled_writeEnd_cons (t : Token) (ts : List Token) :
    readFrom .row f (doubled (writeEnd (t :: ts))) =
      f.close ++ readFrom .row .start (doubled (writeToken t) ++ doubled (writeEnd ts)) := by
  rw [writeEnd, doubled_cons, doubled_append]
  exact readFrom_comma row_piece?_comma

theorem tokens_doubled_writeRow (t : Token) (ts : List Token) :
    tokens .row (doubled (writeRow (t :: ts))) =
      readFrom .row .start (doubled (writeToken t) ++ doubled (writeEnd ts)) := by
  rw [writeRow_cons, doubled_cons, doubled_append]
  exact readFrom_opening (f := .start) row_piece?_opening

/-! ### Texts with a backslash before each quote -/

theorem escapeQuotes_cons (c : Char) (cs : List Char) :
    escapeQuotes (c :: cs) = (if c == '"' then ['\\', '"'] else [c]) ++ escapeQuotes cs :=
  List.flatMap_cons

theorem mem_escapeQuotes_of_mem (h : c ∈ cs) : c ∈ escapeQuotes cs := by
  rw [escapeQuotes, List.mem_flatMap]
  refine ⟨c, h, ?_⟩
  split
  · next e => rw [beq_iff_eq.1 e]; decide
  · exact List.mem_singleton_self c

theorem mem_of_mem_escapeQuotes (hc : c ≠ '\\') (h : c ∈ escapeQuotes cs) : c ∈ cs := by
  obtain ⟨d, hd, h⟩ := List.mem_flatMap.1 h
  split at h
  · next e =>
    rcases List.mem_cons.1 h with rfl | h
    · exact absurd rfl hc
    · rwa [List.mem_singleton.1 h, ← beq_iff_eq.1 e]
  · rwa [List.mem_singleton.1 h]

/-- A backslash is put nowhere exactly where there is no quote. -/
theorem escapeQuotes_eq_self_iff : escapeQuotes cs = cs ↔ '"' ∉ cs := by
  constructor
  · induction cs with
    | nil => exact fun _ => List.not_mem_nil
    | cons c cs ih =>
        intro e
        rw [escapeQuotes_cons] at e
        split at e
        · next hc => exact absurd (List.cons.inj e).1 (by rw [beq_iff_eq.1 hc]; decide)
        · next hc =>
          refine fun h => (List.mem_cons.1 h).elim (fun h => hc (beq_iff_eq.2 h.symm)) ?_
          exact ih (List.cons.inj e).2
  · induction cs with
    | nil => exact fun _ => rfl
    | cons c cs ih =>
        intro h
        have hc : ¬ (c == '"') = true := fun e => h (beq_iff_eq.1 e ▸ List.mem_cons_self)
        rw [escapeQuotes_cons, if_neg hc, ih fun h' => h (List.mem_cons_of_mem _ h')]
        rfl

theorem closingQuotes_escapeQuotes (k : Nat) : ∀ n,
    closingQuotes n (escapeQuotes (List.replicate (k + 1) '"')) = 2 := by
  induction k with
  | zero => exact fun n => rfl
  | succ k ih => exact fun n => ih 2

/-- The quotes before the closing pair are the text itself only for the text of two quotes. -/
theorem eq_two_quotes (h : List.replicate (closingQuotes 1 (escapeQuotes cs)) '"' = cs) :
    cs = ['"', '"'] := by
  generalize hk : closingQuotes 1 (escapeQuotes cs) = k at h
  subst h
  cases k with
  | zero => cases hk
  | succ k => rw [← hk, closingQuotes_escapeQuotes]; rfl

/-- Where a text was written with a backslash before each quote, put between quotes and doubled, it
is read back only if it consists of two quotes. -/
theorem eq_two_quotes_of_token (hq : (escapeQuotes cs).any needsQuoting = true)
    (hr : EndsField rest) (h : (readFrom .row .start
      (doubled (writeToken (some (escapeQuotes cs))) ++ rest)).head?.join = some cs) :
    cs = ['"', '"'] := by
  rcases token_of_doubled hq hr h with ⟨hm | hc, hm', hc'⟩ | h
  · exact absurd (mem_of_mem_escapeQuotes (by decide) hm) hm'
  · exact absurd (mem_of_mem_escapeQuotes (by decide) hc) hc'
  · exact eq_two_quotes h.symm

/-- Two quotes, each with a backslash before it, are read as two quotes. -/
theorem readFrom_doubled_two_quotes (hr : rest.head? ≠ some '"') :
    readFrom .row .start (doubled (writeToken (some (escapeQuotes ['"', '"']))) ++ rest) =
      readFrom .row (.holding (some ['"', '"'])) rest := by
  have bare : ∀ c ∈ List.replicate 4 '\\', Delimiters.row.piece? c = some (.bare c) := by
    intro c hc
    rw [List.eq_of_mem_replicate hc]
    rfl
  -- an empty segment, backslashes, a segment of one quote, backslashes, a segment of two quotes
  show readFrom .row .start ('"' :: (List.replicate (2 * 0) '"' ++ '"' :: (List.replicate 4 '\\' ++
    '"' :: (List.replicate (2 * 1) '"' ++ '"' :: (List.replicate 4 '\\' ++
    '"' :: (List.replicate (2 * 2) '"' ++ '"' :: rest)))))) = _
  have backslash {rest : List Char} : (List.replicate 4 '\\' ++ rest).head? ≠ some '"' :=
    fun e => absurd (Option.some.inj e) (by decide)
  rw [readFrom_quotes 0 backslash, readFrom_append_bare (by decide) bare,
    readFrom_quotes 1 backslash, readFrom_append_bare (by decide) bare, readFrom_quotes 2 hr]
  rfl

/-! ### Rows in rows in rows -/

theorem exists_writeRow_nulls {ts : List Token} (h : ∀ t ∈ ts, t = none) :
    ∃ c more, writeRow ts = '(' :: c :: more ∧ (c = ',' ∨ c = ')') := by
  cases ts with
  | nil => exact ⟨_, _, rfl, Or.inr rfl⟩
  | cons t ts =>
      obtain rfl := h t List.mem_cons_self
      obtain ⟨c, more, e, hc⟩ := (endsField_writeEnd ts).exists_cons
      exact ⟨c, more, by rw [writeRow_cons, e]; rfl, hc⟩

/-- Of a row that holds NULLs only, put between quotes and doubled, no text is read. -/
theorem token_of_doubled_nulls {ts : List Token} (h : ∀ t ∈ ts, t = none) :
    (readFrom .row .start (doubled (writeToken (some (doubled (writeRow ts)))) ++ rest)).head?.join
      = none := by
  obtain ⟨c, more, e, hc⟩ := exists_writeRow_nulls h
  have hd : isDoubled c = false := by rcases hc with rfl | rfl <;> rfl
  have text : doubled (writeRow ts) = '(' :: c :: doubled more := by
    rw [e, doubled_cons, doubled_cons, hd]
    rfl
  have quoted : ('(' :: c :: doubled more).any needsQuoting = true := rfl
  have opened : readFrom .row .start (doubled (writeToken (some (doubled (writeRow ts)))) ++ rest) =
      readFrom .row (Field.replace []).mark
        (c :: (doubled (doubled (doubled more)) ++ ['"', '"'] ++ rest)) := by
    rw [text, writeToken, if_pos quoted, doubled_enquote, doubled_doubled_cons (c := '(') rfl,
      doubled_doubled_cons hd, ← readFrom_opening row_piece?_opening]
    exact readFrom_quotes 0 fun e => absurd (Option.some.inj e) (by decide)
  rw [opened]
  rcases hc with rfl | rfl
  · rw [readFrom_comma row_piece?_comma]; rfl
  · rw [readFrom_closing row_piece?_closing]; rfl

end RowLiteral.Literal
