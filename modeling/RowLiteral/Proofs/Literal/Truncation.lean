import RowLiteral.Proofs.Literal.Grammar

/-!
# Literal — cut texts

What the scan of a text has in common with the scan of its beginning.  A character outside quotes
either ends the scan or leaves the field to what follows, and which of the two it does depends on
that character only (`exists_readFrom_of_stops`, `exists_readFrom_of_goesOn`).  A segment between
quotes ends at the same place in every text, as long as no quote follows its closing one
(`exists_readQuoted_append`).

* `readFrom_cut`: a cut text has the first tokens of the whole text.  The field on the way is
  dropped wherever the cut is, also inside a segment or between two quotes that stand for one.
* `StopsAt.readFrom_append`: a scan that stops does not look beyond the character that stops it.
* `scan_truncated`: both facts about whole literals.
-/

namespace RowLiteral.Literal
open RowLiteral.Text

variable {d : Delimiters} {c : Char} {p : Piece} {cs ds rest text : List Char}

/-! ### Closed segments -/

/-- A segment that is closed is made of items, and no quote follows the closing one. -/
theorem exists_items_of_readQuoted (h : readQuoted cs = (text, some rest)) :
    ∃ items : List QuotedItem, cs = items.flatMap QuotedItem.written ++ '"' :: rest ∧
      text = items.map QuotedItem.char ∧ rest.head? ≠ some '"' := by
  fun_induction readQuoted cs generalizing text with
  | case1 => cases h
  | case2 cs text' rest' read ih =>
      cases h
      obtain ⟨items, rfl, rfl, last⟩ := ih read
      exact ⟨.quote :: items, rfl, rfl, last⟩
  | case3 cs single =>
      cases h
      refine ⟨[], rfl, rfl, fun quote => ?_⟩
      obtain ⟨ds, rfl⟩ := List.head?_eq_some_iff.1 quote
      exact single ds rfl
  | case4 c cs text' rest' read ih =>
      cases h
      obtain ⟨items, rfl, rfl, last⟩ := ih read
      exact ⟨.escaped c :: items, rfl, rfl, last⟩
  | case5 c cs _ notQuote notEscape text' rest' read ih =>
      cases h
      have plain : c ≠ '"' ∧ c ≠ '\\' := by
        refine ⟨notQuote, fun backslash => ?_⟩
        -- a backslash at the end of the text closes no segment
        cases cs with
        | nil => cases read
        | cons e cs => exact notEscape e cs backslash rfl
      obtain ⟨items, split, rfl, last⟩ := ih read
      exact ⟨.plain c plain :: items, by rw [split]; rfl, rfl, last⟩

/-- A closed segment stays as it is when what follows it changes, unless a quote comes next. -/
theorem exists_readQuoted_append (h : readQuoted cs = (text, some rest)) :
    ∃ segment, cs = segment ++ rest ∧ rest.head? ≠ some '"' ∧
      ∀ other : List Char, other.head? ≠ some '"' →
        readQuoted (segment ++ other) = (text, some other) := by
  obtain ⟨items, rfl, rfl, last⟩ := exists_items_of_readQuoted h
  refine ⟨items.flatMap QuotedItem.written ++ ['"'], by simp, last, fun other next => ?_⟩
  rw [List.append_assoc, List.singleton_append, readQuoted_items items next]

/-! ### One piece -/

/-- A piece that ends the scan. -/
def Piece.Stops (p : Piece) : Prop := p = .closing ∨ p = .blank

instance (p : Piece) : Decidable p.Stops := inferInstanceAs (Decidable (_ ∨ _))

/-- What is read from a character that ends the scan does not depend on what follows. -/
theorem exists_readFrom_of_stops (char : d.piece? c = some p) (stops : p.Stops) (f : Field) :
    ∃ ts, ∀ cs, readFrom d f (c :: cs) = ts := by
  rcases stops with rfl | rfl
  · exact ⟨f.close, fun cs => readFrom_closing char⟩
  · exact ⟨[], fun cs => readFrom_blank char⟩

/-- Any other character gives some tokens and leaves a field to what follows. -/
theorem exists_readFrom_of_goesOn (char : d.piece? c = some p) (goesOn : ¬ p.Stops) (f : Field) :
    ∃ ts g, ∀ cs, readFrom d f (c :: cs) = ts ++ readFrom d g cs := by
  cases p with
  | opening => exact ⟨[], f.mark, fun cs => readFrom_opening char⟩
  | comma => exact ⟨f.close, .start, fun cs => readFrom_comma char⟩
  | bare e =>
      obtain rfl : e = c := isOf_of_piece? char
      exact ⟨[], f.add e, fun cs => readFrom_bare char⟩
  | closing => exact absurd (.inl rfl) goesOn
  | blank => exact absurd (.inr rfl) goesOn
  | quoted text => exact (isOf_of_piece? char).elim

theorem readFrom_nil (f : Field) : readFrom d f [] = [] := by
  rw [readFrom, pieces, tokensFrom]

/-! ### The beginning of a text -/

/-- **The beginning of a text has the first tokens of the text,** read from within any field. -/
theorem readFrom_cut (f : Field) (cut : cs <+: ds) : readFrom d f cs <+: readFrom d f ds := by
  -- by induction on the length, as a segment takes many characters at once
  induction length : cs.length using Nat.strongRecOn generalizing cs ds f with
  | _ n ih =>
    subst length
    match cs, ds, cut with
    | [], ds, _ =>
        rw [readFrom_nil]
        exact List.nil_prefix
    | c :: cs, ds, cut =>
        obtain ⟨others, rfl⟩ := cut
        rw [List.cons_append]
        cases char : d.piece? c with
        | some p =>
            by_cases stops : p.Stops
            · obtain ⟨ts, read⟩ := exists_readFrom_of_stops char stops f
              simp only [read, List.prefix_rfl]
            · obtain ⟨ts, g, read⟩ := exists_readFrom_of_goesOn char stops f
              rw [read, read]
              exact List.prefix_append_right_inj ts |>.2
                (ih _ (by simp) g (List.prefix_append cs others) rfl)
        | none =>
            obtain rfl := eq_quote_of_piece? char
            rw [readFrom_quote char, readFrom_quote char]
            cases read : readQuoted cs with
            | mk text rest =>
                match rest with
                | none | some [] =>
                    -- nothing follows the segment, so nothing is read from it
                    simp only [Option.getD_none, Option.getD_some, readFrom_nil]
                    exact List.nil_prefix
                | some (e :: rest) =>
                    obtain ⟨segment, rfl, next, same⟩ := exists_readQuoted_append read
                    have whole := same (e :: rest ++ others) next
                    have shorter : (e :: rest).length < ('"' :: (segment ++ e :: rest)).length := by
                      simp only [List.length_cons, List.length_append]
                      omega
                    rw [List.append_assoc, whole]
                    exact ih _ shorter _ (List.prefix_append (e :: rest) others) rfl

/-! ### Where a scan stops -/

/-- A scan of a text stops at a character outside quotes, before the rest: it has passed over all
characters and segments that come first. -/
inductive StopsAt (d : Delimiters) : (text : List Char) → (c : Char) → (rest : List Char) → Prop
  /-- The closing delimiter or a blank stands first. -/
  | here {c : Char} {p : Piece} (rest : List Char) (char : d.piece? c = some p)
      (stops : p.Stops) : StopsAt d (c :: rest) c rest
  /-- An opening delimiter, a comma or a bare character is passed over. -/
  | piece {e c : Char} {p : Piece} {cs rest : List Char} (char : d.piece? e = some p)
      (goesOn : ¬ p.Stops) (later : StopsAt d cs c rest) : StopsAt d (e :: cs) c rest
  /-- A closed segment is passed over. -/
  | segment {e c : Char} {cs text after rest : List Char} (quote : d.piece? e = none)
      (closed : readQuoted cs = (text, some after)) (later : StopsAt d after c rest) :
      StopsAt d (e :: cs) c rest

/-- **A scan that stops does not look beyond the character that stops it.** -/
theorem StopsAt.readFrom_append (h : StopsAt d cs c rest) :
    ∃ before, cs = before ++ c :: rest ∧ ∀ (f : Field) (other : List Char),
      readFrom d f (before ++ c :: other) = readFrom d f cs := by
  induction h with
  | here rest char stops =>
      refine ⟨[], rfl, fun f other => ?_⟩
      obtain ⟨ts, read⟩ := exists_readFrom_of_stops char stops f
      rw [List.nil_append, read, read]
  | @piece e c p cs rest char goesOn later ih =>
      obtain ⟨before, rfl, same⟩ := ih
      refine ⟨e :: before, rfl, fun f other => ?_⟩
      obtain ⟨ts, g, read⟩ := exists_readFrom_of_goesOn char goesOn f
      rw [List.cons_append, read, read, same]
  | @segment e c cs text after rest quote closed later ih =>
      obtain ⟨before, rfl, same⟩ := ih
      obtain ⟨segment, rfl, next, whole⟩ := exists_readQuoted_append closed
      obtain rfl := eq_quote_of_piece? quote
      refine ⟨'"' :: segment ++ before, by simp, fun f other => ?_⟩
      -- the segment is followed by the same character as before
      have next' : (before ++ c :: other).head? ≠ some '"' := by
        cases before with
        | nil => exact next
        | cons b before => exact next
      rw [List.append_assoc, List.cons_append, readFrom_quote quote, readFrom_quote quote,
        whole _ next', whole _ next]
      exact same _ other

/-- A scan stops somewhere if and only if one of its pieces ends it. -/
theorem exists_stopsAt_iff : (∃ c rest, StopsAt d cs c rest) ↔ ∃ p ∈ pieces d cs, p.Stops := by
  constructor
  · rintro ⟨c, rest, h⟩
    induction h with
    | @here c p rest char stops =>
        exact ⟨p, by rw [pieces_cons_of_some char]; exact List.mem_cons_self, stops⟩
    | @piece e c p cs rest char goesOn later ih =>
        obtain ⟨q, mem, stops⟩ := ih
        exact ⟨q, by rw [pieces_cons_of_some char]; exact List.mem_cons_of_mem p mem, stops⟩
    | @segment e c cs text after rest quote closed later ih =>
        obtain ⟨q, mem, stops⟩ := ih
        obtain rfl := eq_quote_of_piece? quote
        rw [pieces_quote quote, closed]
        exact ⟨q, List.mem_cons_of_mem _ mem, stops⟩
  · rintro ⟨p, mem, stops⟩
    fun_induction pieces d cs with
    | case1 => exact absurd mem List.not_mem_nil
    | case2 c cs q char ih =>
        by_cases here : q.Stops
        · exact ⟨c, cs, .here cs char here⟩
        · rcases List.mem_cons.1 mem with rfl | mem
          · exact absurd stops here
          · obtain ⟨e, rest, later⟩ := ih mem
            exact ⟨e, rest, .piece char here later⟩
    | case3 c cs quote ih =>
        rcases List.mem_cons.1 mem with rfl | mem
        · exact absurd stops (by rintro (h | h) <;> cases h)
        · obtain ⟨e, rest, later⟩ := ih mem
          cases read : readQuoted cs with
          | mk text after =>
              rw [read] at later
              cases after with
              | none => cases later
              | some after => exact ⟨e, rest, .segment quote read later⟩

/-! ### Whole literals -/

/-- **Cutting a literal only drops tokens at its end.**  The tokens of the beginning of a text are
the first tokens of the text.  And where the scan stops at a character outside quotes, the text may
go on after that character in any way. -/
theorem scan_truncated (d : Delimiters) (text : String) :
    (∀ cut : String, cut.toList <+: text.toList → scan d cut <+: scan d text) ∧
    ∀ (upTo rest : String) (c : Char), text = upTo ++ rest → StopsAt d text.toList c rest.toList →
      ∀ suffix : String, scan d (upTo ++ suffix) = scan d text := by
  refine ⟨fun cut first => (readFrom_cut .start first).map _, ?_⟩
  rintro upTo rest c rfl stops suffix
  obtain ⟨before, split, same⟩ := stops.readFrom_append
  have upTo_eq : upTo.toList = before ++ [c] := by
    rw [String.toList_append, ← List.singleton_append, ← List.append_assoc] at split
    exact List.append_cancel_right split
  have tokens := same .start suffix.toList
  rw [← List.singleton_append, ← List.append_assoc, ← upTo_eq, ← String.toList_append] at tokens
  exact congrArg (List.map (Option.map String.ofList)) tokens

theorem scan_truncated_quotes :
    "(a,\"b\"".toList <+: "(a,\"b\"\"c\") d".toList ∧
      scan .row "(a,\"b\"" <+: scan .row "(a,\"b\"\"c\") d" ∧
      StopsAt .row "(a,\"b\"\"c\") d".toList ')' " d".toList ∧
      scan .row ("(a,\"b\"\"c\")" ++ ",e)") = scan .row "(a,\"b\"\"c\") d" := by
  have cut : "(a,\"b\"".toList <+: "(a,\"b\"\"c\") d".toList := by decide
  have stops : StopsAt .row "(a,\"b\"\"c\") d".toList ')' " d".toList :=
    .piece row_piece?_opening (by decide) <|
      .piece (row_piece?_bare rfl rfl) (by decide) <|
        .piece row_piece?_comma (by decide) <|
          .segment row_piece?_quote rfl <| .here _ row_piece?_closing (by decide)
  obtain ⟨first, after⟩ := scan_truncated .row "(a,\"b\"\"c\") d"
  exact ⟨cut, first _ cut, stops, after _ _ _ rfl stops ",e)"⟩

end RowLiteral.Literal
