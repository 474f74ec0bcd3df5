import RowLiteral.Proofs.Row.Materialize
import RowLiteral.Proofs.Row.Rendering

/-!
# Row — rows of texts

Rows that are materialized from texts and NULLs (`Session.rowOfTexts`), in columns that keep texts.

* `Session.scan_render_texts_iff`: the scan gives back the texts if and only if each is legible.
  The characters at which a scan stops or changes its state all ask for quotes, but for the
  information separators and the Unicode spaces beyond ASCII: a text in which one of these stands,
  and nothing that asks for quotes, is written bare, and the scan stops in it.
* `Session.render_texts_eq_iff`: the literal determines the texts up to empty ones.  An empty text
  is written like NULL; no other two rows share a literal.
-/

namespace RowLiteral
open Text Literal

/-- The row of a type that is materialized from texts and NULLs. -/
def Session.rowOfTexts (s : Session) (t : RowType) (texts : List (Option String)) : Row :=
  (s.materialize t (texts.map (Option.map Value.text))).value

/-! ### What such a row sends out -/

variable {s : Session} {t : RowType} {texts : List (Option String)}

theorem Session.attributesFor_texts : ∀ {cs : List Column} {texts : List (Option String)},
    (∀ c ∈ cs, c.KeepsTexts) → texts.length = cs.length →
    s.attributesFor cs (texts.map (Option.map Value.text)) = texts.map (Option.map Value.text)
  | [], [], _, _ => rfl
  | c :: cs, text :: texts, hc, hl => by
      rw [List.map_cons, attributesFor_cons, List.head?_cons, List.tail_cons,
        attributesFor_texts (fun c h => hc c (List.mem_cons_of_mem _ h)) (Nat.succ.inj hl)]
      cases text with
      | none => rfl
      | some text =>
          rw [Option.map_some, Option.join_some,
            s.resolve_text_of_keepsTexts (hc c List.mem_cons_self)]

theorem zipWith_sentText?_texts (machine : Zone) (h : RowHeader) :
    ∀ {cs : List Column} {texts : List (Option String)}, texts.length = cs.length →
      List.zipWith (sentText? machine h) cs (texts.map (Option.map Value.text)) = texts
  | [], [], _ => rfl
  | c :: cs, text :: texts, hl => by
      rw [List.map_cons, List.zipWith_cons_cons,
        zipWith_sentText?_texts machine h (Nat.succ.inj hl)]
      cases text <;> rfl

/-- A row of texts sends out these texts. -/
theorem Session.sentTexts_rowOfTexts (machine : Zone) (hc : ∀ c ∈ t.columns, c.KeepsTexts)
    (hl : texts.length = t.columns.length) : (s.rowOfTexts t texts).sentTexts machine = texts := by
  rw [Row.sentTexts, rowOfTexts, s.attributes_materialize, attributesFor_texts hc hl]
  exact zipWith_sentText?_texts machine _ hl

theorem Session.render_rowOfTexts (machine : Zone) (hc : ∀ c ∈ t.columns, c.KeepsTexts)
    (hl : texts.length = t.columns.length) : (s.rowOfTexts t texts).render machine =
      String.ofList (writeRow (texts.map (Option.map String.toList))) := by
  rw [Row.render, Row.tokens_eq_map_sentTexts, sentTexts_rowOfTexts machine hc hl]

/-! ### Scanning -/

/-- The scanner takes a character for something else than itself only if the character asks for
quotes or is a breaking blank. -/
theorem needsQuoting_or_isBreaking {c : Char} (h : Delimiters.row.piece? c ≠ some (.bare c)) :
    needsQuoting c = true ∨ isBreaking c = true := by
  cases hq : needsQuoting c with
  | true => exact Or.inl rfl
  | false =>
      cases hb : isBreaking c with
      | true => exact Or.inr rfl
      | false => exact absurd (row_piece?_bare hq hb) h

/-- The legible texts are those, except the empty one, that are put between quotes if there is a
character in them at which the scan would stop or change its state. -/
theorem isLegible_iff {cs : List Char} : IsLegible cs ↔ cs ≠ [] ∧
    ((∃ c ∈ cs, Delimiters.row.piece? c ≠ some (.bare c)) → cs.any needsQuoting = true) := by
  refine and_congr_right fun _ => ⟨?_, fun h => ?_⟩
  · rintro (h | h) ⟨c, hc, hp⟩
    · exact h
    · rcases needsQuoting_or_isBreaking hp with hq | hb
      · exact List.any_eq_true.2 ⟨c, hc, hq⟩
      · exact absurd hb (Bool.eq_false_iff.1 (h c hc))
  · cases hq : cs.any needsQuoting with
    | true => exact Or.inl rfl
    | false =>
        refine Or.inr fun c hc => Bool.eq_false_iff.2 fun hb => ?_
        have hqc : needsQuoting c = false := Bool.eq_false_iff.2 (List.any_eq_false.1 hq c hc)
        have hp := row_piece?_plain hqc
        rw [hb, if_pos rfl] at hp
        exact absurd (h ⟨c, hc, by rw [hp]; exact fun e => nomatch Option.some.inj e⟩)
          (by rw [hq]; exact Bool.false_ne_true)

/-- **Scanning a rendered row of texts.**  In columns that keep texts the scan gives back the texts
and NULLs that the row was made from if and only if each text is legible, which is to say that it is
not empty and is put between quotes if the scan would stop or change its state in it. -/
theorem Session.scan_render_texts_iff (s : Session) (machine : Zone) (t : RowType)
    (texts : List (Option String)) (hn : 1 ≤ t.columns.length)
    (hc : ∀ c ∈ t.columns, c.KeepsTexts) (hl : texts.length = t.columns.length) :
    (scanRow ((s.rowOfTexts t texts).render machine) = texts ↔
      ∀ text, some text ∈ texts → IsLegible text.toList) ∧
    ∀ text : String, IsLegible text.toList ↔ text ≠ "" ∧
      ((∃ c ∈ text.toList, Delimiters.row.piece? c ≠ some (.bare c)) →
        text.toList.any needsQuoting = true) := by
  refine ⟨?_, fun text => ?_⟩
  · rw [render_rowOfTexts machine hc hl]
    refine scanRow_writeRow_iff fun e => ?_
    rw [← hl, e] at hn
    exact absurd hn (by decide)
  · rw [isLegible_iff, ne_eq, String.toList_eq_nil_iff]

/-- A session in UTF-8 and UTC, on a machine in UTC. -/
def Session.utc : Session := ⟨.utf8, .utc, Temporal.reader 0, 0⟩

/-- A row type of two columns that keep texts. -/
def RowType.pair : RowType :=
  ⟨"pair",
    [⟨"left", "varchar", ColumnType.varchar.id⟩, ⟨"right", "varchar", ColumnType.varchar.id⟩]⟩

theorem RowType.keepsTexts_pair : ∀ c ∈ RowType.pair.columns, c.KeepsTexts :=
  fun c hc => Column.keepsTexts_of_unruled (by revert c; decide)

theorem Session.scan_render_texts_pair :
    1 ≤ RowType.pair.columns.length ∧ (∀ c ∈ RowType.pair.columns, c.KeepsTexts) ∧
      [some "a\\\"(b", none].length = RowType.pair.columns.length ∧
      scanRow ((Session.utc.rowOfTexts .pair [some "a\\\"(b", none]).render 0) =
        [some "a\\\"(b", none] := by
  refine ⟨by decide, RowType.keepsTexts_pair, rfl, ?_⟩
  have law := Session.scan_render_texts_iff .utc 0 .pair [some "a\\\"(b", none] (by decide)
    RowType.keepsTexts_pair rfl
  refine law.1.2 fun text h => ?_
  obtain rfl : text = "a\\\"(b" := by simpa using h
  decide

/-- Not every row of texts is scanned again, also if no text is empty: a line separator ends the
scan of a text that was written bare. -/
theorem Session.not_scan_render_texts :
    ¬ ∀ (s : Session) (machine : Zone) (t : RowType) (texts : List (Option String)),
      1 ≤ t.columns.length → (∀ c ∈ t.columns, c.KeepsTexts) → texts.length = t.columns.length →
      (∀ text, some text ∈ texts → text ≠ "") →
      scanRow ((s.rowOfTexts t texts).render machine) = texts := by
  intro h
  have scanned := h .utc 0 .pair [some "a\u2028b", some "c"] (by decide) RowType.keepsTexts_pair rfl
    (by simp)
  exact absurd scanned (by decide +kernel)

/-! ### What the literal determines -/

theorem filled_map_toList (text : Option String) :
    filled (text.map String.toList) = (text.filter fun text => text ≠ "").map String.toList := by
  cases text with
  | none => rfl
  | some text =>
      by_cases h : text = ""
      · subst h; rfl
      · have h' : text.toList ≠ [] := fun e => h (String.toList_eq_nil_iff.1 e)
        simp only [filled, Option.map_some, Option.filter_some, h, h', ne_eq, not_false_eq_true,
          decide_true, if_true]

/-- **What the literal of a row of texts determines.**  In columns that keep texts, two rows of
texts and NULLs have the same literal if and only if the texts and NULLs agree place by place, once
the empty text is taken for NULL. -/
theorem Session.render_texts_eq_iff (s : Session) (machine : Zone) (t : RowType)
    (xs ys : List (Option String)) (hc : ∀ c ∈ t.columns, c.KeepsTexts)
    (hx : xs.length = t.columns.length) (hy : ys.length = t.columns.length) :
    (s.rowOfTexts t xs).render machine = (s.rowOfTexts t ys).render machine ↔
      xs.map (fun x => x.filter fun text => text ≠ "") =
        ys.map (fun y => y.filter fun text => text ≠ "") := by
  rw [render_rowOfTexts machine hc hx, render_rowOfTexts machine hc hy, String.ofList_inj,
    writeRow_eq_iff (by rw [List.length_map, List.length_map, hx, hy]), List.map_map, List.map_map]
  have e : filled ∘ Option.map String.toList =
      Option.map String.toList ∘ fun text => text.filter fun text => text ≠ "" :=
    funext filled_map_toList
  rw [e, ← List.map_map, ← List.map_map]
  exact List.map_inj_right fun _ _ => (Option.map_inj_right fun _ _ => String.toList_injective).1

theorem Session.render_texts_eq_pair :
    (∀ c ∈ RowType.pair.columns, c.KeepsTexts) ∧
      [some "", some "a b"].length = RowType.pair.columns.length ∧
      [none, some "a b"].length = RowType.pair.columns.length ∧
      (Session.utc.rowOfTexts .pair [some "", some "a b"]).render 0 =
        (Session.utc.rowOfTexts .pair [none, some "a b"]).render 0 :=
  ⟨RowType.keepsTexts_pair, rfl, rfl, (Session.render_texts_eq_iff .utc 0 .pair
    [some "", some "a b"] [none, some "a b"] RowType.keepsTexts_pair rfl rfl).2 (by decide +kernel)⟩

/-- The literal does not determine texts and NULLs: an empty text is written like NULL. -/
theorem Session.not_render_texts_injective :
    ¬ ∀ (s : Session) (machine : Zone) (t : RowType) (xs ys : List (Option String)),
      1 ≤ t.columns.length → (∀ c ∈ t.columns, c.KeepsTexts) → xs.length = t.columns.length →
      ys.length = t.columns.length →
      (s.rowOfTexts t xs).render machine = (s.rowOfTexts t ys).render machine → xs = ys := by
  intro h
  have same := h .utc 0 .pair [some "", some "a"] [none, some "a"] (by decide)
    RowType.keepsTexts_pair rfl rfl (by decide +kernel)
  exact absurd same (by decide)

end RowLiteral
