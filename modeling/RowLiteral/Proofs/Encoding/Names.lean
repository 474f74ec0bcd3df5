import RowLiteral.Encoding.Listed
import RowLiteral.Proofs.Number.Digits
import RowLiteral.Proofs.Table

/-!
# Encoding — spellings of names

Two names are *spelled alike* when blanks around them, case, hyphens and underscores are all that
tells them apart (`Charset.SpelledAlike`).  The listed names stay distinct without their
underscores, so that names that are spelled alike never ask for two character sets.  But a name is
looked up as it stands and without any separator, and nowhere in between: a listed name that has
underscores is found under the spelling of the list only, while one without is found under every
spelling.

* `Charset.ofName?_eq_some_iff`: which names ask for a character set.
* `Charset.ofName?_of_spelledAlike`: what a name asks for that is spelled like a known one.
* `Charset.ofName?_spellings_iff`: which listed names are known under every spelling.
* `Encoding.ofName_spelledAlike_iff`: which spellings of a known name are known, and accepted.
-/

namespace RowLiteral
open Text

namespace Charset

/-! ### Names -/

@[simp] theorem joined_joined (name : String) : joined (joined name) = joined name := by
  simp [joined, List.filter_filter]

/-- A name without blanks whose characters are in upper case is left as it is. -/
theorem upperName_eq_self {name : String}
    (h : ∀ x ∈ name.toList, isMargin x = false ∧ upperChar x = x) : upperName name = name := by
  rw [upperName, trim, Number.trimChars_of_forall fun x hx => (h x hx).1, String.ofList_toList,
    upper, List.map_congr_left fun x hx => (h x hx).2, List.map_id', String.ofList_toList]

/-! ### The list -/

/-- The names of the server without the character sets. -/
def names : List String := named.map Prod.fst

/-- No two listed names become equal without their separators. -/
theorem nodup_joined_names : (names.map joined).Nodup := by decide +kernel

/-- There are no blanks and no small letters in the listed names. -/
theorem all_upper_names : (names.all fun name =>
    name.toList.all fun x => !isMargin x && upperChar x = x) = true := by decide +kernel

theorem upper_of_mem_names {name : String} (h : name ∈ names) {x : Char} (hx : x ∈ name.toList) :
    isMargin x = false ∧ upperChar x = x := by
  simpa using List.all_eq_true.1 (List.all_eq_true.1 all_upper_names name h) x hx

theorem mem_names_of_mem {e : String × Charset} (h : e ∈ named) : e.1 ∈ names :=
  List.mem_map_of_mem h

theorem upperName_of_mem {e : String × Charset} (h : e ∈ named) : upperName e.1 = e.1 :=
  upperName_eq_self fun _ hx => upper_of_mem_names (mem_names_of_mem h) hx

theorem upperName_joined_of_mem {e : String × Charset} (h : e ∈ named) :
    upperName (joined e.1) = joined e.1 := by
  refine upperName_eq_self fun x hx => upper_of_mem_names (mem_names_of_mem h) ?_
  rw [joined, String.toList_ofList] at hx
  exact (List.mem_filter.1 hx).1

/-- A listed name is known by what it is without separators. -/
theorem eq_of_joined_eq {e e' : String × Charset} (he : e ∈ named) (he' : e' ∈ named)
    (same : joined e.1 = joined e'.1) : e = e' := by
  have distinct : (named.map fun e => joined e.1).Nodup := by
    rw [← Function.comp_def, ← List.map_map]
    exact nodup_joined_names
  exact List.inj_on_of_nodup_map distinct he he' same

theorem lookup?_eq_some_iff {name : String} {c : Charset} :
    lookup? name = some c ↔ (name, c) ∈ named :=
  Table.get?_eq_some_iff (t := named) nodup_joined_names.of_map

/-! ### Looking names up -/

/-- Whether two names are the same but for blanks around them, case, hyphens and underscores. -/
def SpelledAlike (x y : String) : Prop := joined (upperName x) = joined (upperName y)

instance (x y : String) : Decidable (SpelledAlike x y) :=
  inferInstanceAs (Decidable (joined (upperName x) = joined (upperName y)))

/-- Whether the name `y` is found where `x` is known: it differs in blanks around it and in case
only, or the name is listed without separators. -/
def FindsSpelling (x y : String) : Prop :=
  upperName y = upperName x ∨ joined (upperName x) ∈ names

instance (x y : String) : Decidable (FindsSpelling x y) :=
  inferInstanceAs (Decidable (upperName y = upperName x ∨ joined (upperName x) ∈ names))

variable {name x y : String} {c : Charset}

theorem ofName?_congr (same : upperName y = upperName x) : ofName? y = ofName? x := by
  simp only [ofName?, same]

/-- **Which names ask for a character set**: those listed as they stand, or without separators. -/
theorem ofName?_eq_some_iff : ofName? name = some c ↔
    (upperName name, c) ∈ named ∨ (joined (upperName name), c) ∈ named := by
  rw [ofName?, Option.or_eq_some_iff, lookup?_eq_some_iff, lookup?_eq_some_iff]
  constructor
  · exact Or.imp_right And.right
  · rintro (listed | listed)
    · exact .inl listed
    · cases found : lookup? (upperName name) with
      | none => exact .inr ⟨rfl, listed⟩
      | some c' =>
          -- both are listed, which makes them one entry
          have listed' := lookup?_eq_some_iff.1 found
          have key : joined (upperName name) = joined (joined (upperName name)) :=
            (joined_joined _).symm
          have same := eq_of_joined_eq listed' listed key
          exact .inl (by rwa [(Prod.mk.inj same).2] at listed')

/-- A known name stands in the list up to its separators. -/
theorem exists_of_ofName? (known : ofName? name = some c) :
    ∃ e ∈ named, e.2 = c ∧ joined e.1 = joined (upperName name) ∧
      (upperName name = e.1 ∨ joined (upperName name) = e.1) := by
  rcases ofName?_eq_some_iff.1 known with listed | listed
  · exact ⟨_, listed, rfl, rfl, .inl rfl⟩
  · exact ⟨_, listed, rfl, joined_joined _, .inr rfl⟩

/-- **What a name asks for that is spelled like a known one**: the same character set where its
spelling is found, and else none. -/
theorem ofName?_of_spelledAlike (alike : SpelledAlike x y) (known : ofName? x = some c) :
    ofName? y = if FindsSpelling x y then some c else none := by
  obtain ⟨e, mem, rfl, same, asked⟩ := exists_of_ofName? known
  split
  · next found =>
    rcases found with case | listed
    · rw [ofName?_congr case, known]
    · obtain ⟨e', mem', key⟩ := List.mem_map.1 listed
      have one : e' = e := eq_of_joined_eq mem' mem (by rw [key, joined_joined, same])
      refine ofName?_eq_some_iff.2 (.inr ?_)
      rw [← alike, ← key, one]
      exact mem
  · next lost =>
    obtain ⟨other, unlisted⟩ := not_or.1 lost
    rw [← Option.not_isSome_iff_eq_none, Option.isSome_iff_exists]
    rintro ⟨c', known'⟩
    -- one entry of the list is meant by both, and neither joined name is in the list
    obtain ⟨e', mem', -, same', asked'⟩ := exists_of_ofName? known'
    obtain rfl : e' = e := eq_of_joined_eq mem' mem (by rw [same', same, alike])
    have listed := mem_names_of_mem mem
    rcases asked with whole | joint
    · rcases asked' with whole' | joint'
      · exact other (whole'.trans whole.symm)
      · rw [← joint', ← alike] at listed
        exact unlisted listed
    · rw [← joint] at listed
      exact unlisted listed

/-- **Which listed names are known under every spelling**: those without separators. -/
theorem ofName?_spellings_iff {e : String × Charset} (mem : e ∈ named) :
    (∀ y, SpelledAlike e.1 y → ofName? y = some e.2) ↔ joined e.1 = e.1 := by
  have upper := upperName_of_mem mem
  have upperJoined := upperName_joined_of_mem mem
  have known : ofName? e.1 = some e.2 := ofName?_eq_some_iff.2 (.inl (by rwa [upper]))
  constructor
  · intro every
    have alike : SpelledAlike e.1 (joined e.1) := by
      rw [SpelledAlike, upper, upperJoined, joined_joined]
    obtain ⟨e', mem', -, same, asked⟩ := exists_of_ofName? (every _ alike)
    rw [upperJoined, joined_joined] at same asked
    obtain rfl := eq_of_joined_eq mem' mem same
    exact asked.elim id id
  · intro plain y alike
    rw [ofName?_of_spelledAlike alike known]
    refine if_pos (.inr ?_)
    rw [upper, plain]
    exact mem_names_of_mem mem

end Charset

namespace Encoding
open Charset

variable {decoders : Decoders} {name x y : String} {e : Encoding}

/-- An encoding is a decoder of the character set of a name, under the name in upper case. -/
theorem ofName_eq_ok_iff : ofName decoders name = .ok e ↔
    (∃ c, ofName? name = some c ∧ decoders c = some e.decode) ∧ e.name = upperName name := by
  obtain ⟨shown, decode⟩ := e
  unfold ofName
  generalize ofName? name = found
  cases found with
  | none => exact ⟨nofun, fun ⟨⟨_, h, _⟩, _⟩ => nomatch h⟩
  | some c =>
      simp only [Option.some.injEq, exists_eq_left']
      split
      · next decode' decodable =>
        rw [Except.ok.injEq, mk.injEq, decodable, Option.some.injEq]
        constructor <;> rintro ⟨rfl, rfl⟩ <;> exact ⟨rfl, rfl⟩
      · next undecodable =>
        rw [undecodable]
        exact ⟨nofun, fun h => nomatch h.1⟩

theorem ofName_eq_unsupported_iff :
    ofName decoders name = .error (.unsupportedEncoding name) ↔ ofName? name = none := by
  unfold ofName
  generalize ofName? name = found
  cases found with
  | none => simp
  | some c => cases h : decoders c <;> simp [h]

/-- **Which spellings of a known name are known.**  A name that is spelled like a known one asks for
the same character set if and only if it differs in blanks around it and in case only, or the name
is listed without separators; otherwise it asks for none.  Where the known name is accepted as that
of an encoding, whatever the decoders are, the other is accepted under the same condition, with the
same decoder and under its own name in upper case, and else refused as unsupported. -/
theorem ofName_spelledAlike_iff (alike : SpelledAlike x y) {c : Charset}
    (known : ofName? x = some c) :
    (ofName? y = some c ↔ FindsSpelling x y) ∧ (ofName? y = none ↔ ¬ FindsSpelling x y) ∧
      ∀ decoders e, ofName decoders x = .ok e →
        (ofName decoders y = .ok ⟨upperName y, e.decode⟩ ↔ FindsSpelling x y) ∧
        (ofName decoders y = .error (.unsupportedEncoding y) ↔ ¬ FindsSpelling x y) := by
  have found := ofName?_of_spelledAlike alike known
  have same : ofName? y = some c ↔ FindsSpelling x y := by rw [found, ite_eq_left_iff]; simp
  have lost : ofName? y = none ↔ ¬ FindsSpelling x y := by rw [found, ite_eq_right_iff]; simp
  refine ⟨same, lost, fun decoders e accepted => ?_⟩
  obtain ⟨⟨c', known', decodable⟩, -⟩ := ofName_eq_ok_iff.1 accepted
  obtain rfl := Option.some.inj (known.symm.trans known')
  rw [ofName_eq_ok_iff, ofName_eq_unsupported_iff]
  refine ⟨⟨fun ⟨⟨c', asked, _⟩, _⟩ => ?_, fun h => ⟨⟨c, same.2 h, decodable⟩, rfl⟩⟩, lost⟩
  by_contra not
  cases (lost.2 not).symm.trans asked

theorem ofName_spelledAlike_iff_utf8 :
    SpelledAlike "utf-8" " U_t-f_8 " ∧ ofName? "utf-8" = some .utf8 ∧
      ofName? " U_t-f_8 " = some .utf8 ∧
      ofName .listed " U_t-f_8 " = .ok ⟨"U_T-F_8", Utf8.decode⟩ := by
  have alike : SpelledAlike "utf-8" " U_t-f_8 " := by decide +kernel
  have known : ofName? "utf-8" = some .utf8 := by decide +kernel
  obtain ⟨same, -, accepted⟩ := ofName_spelledAlike_iff alike known
  have listed : joined (upperName "utf-8") ∈ names := by decide +kernel
  refine ⟨alike, known, same.2 (.inr listed), ?_⟩
  have upper : upperName "utf-8" = "UTF-8" := by decide +kernel
  have upper' : upperName " U_t-f_8 " = "U_T-F_8" := by decide +kernel
  rw [← upper']
  have plain : ofName .listed "utf-8" = .ok ⟨"UTF-8", Utf8.decode⟩ :=
    ofName_eq_ok_iff.2 ⟨⟨.utf8, known, rfl⟩, upper.symm⟩
  exact (accepted .listed _ plain).1.2 (.inr listed)

/-- Not every spelling of a known name is known: an underscore of the list cannot be a hyphen, and
cannot be left out. -/
theorem not_ofName_spelledAlike :
    ¬ ∀ x y c, SpelledAlike x y → ofName? x = some c → ofName? y = some c := by
  intro h
  have known := h "EUC_JP" "EUC-JP" .eucjp (by decide +kernel) (by decide +kernel)
  exact absurd known (by decide +kernel)

end Encoding

end RowLiteral
