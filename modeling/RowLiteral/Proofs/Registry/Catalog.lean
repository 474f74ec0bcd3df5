import Mathlib.Data.List.Induction
import RowLiteral.Proofs.Registry.Define
import RowLiteral.Proofs.Table

/-!
# Registry — the two directions of a catalog

A catalog that is made from a list of types has a table for each of its directions.  The tables are
filled entry by entry, and one more entry decides for its own identifier and its own spellings and
for no others (`CatalogTables.name?_add`, `CatalogTables.id?_add`).  So what is found is told by the
last entry that has the identifier or the spelling, whichever of the two tables is asked
(`Catalog.tables_eq_some_iff`).

The two directions are inverse to each other where no two entries have an identifier or a spelling in
common (`Catalog.Unambiguous`).  A registry puts the names of its row types before those of the
catalog, so that a column whose type was given by number keeps its type under the name of that type,
unless the name is that of a row type.

* `Catalog.directions_agree`: what both directions answer, and how they and the columns agree.
-/

namespace RowLiteral

/-- Every spelling of the name of a type. -/
def CatalogEntry.spellings (e : CatalogEntry) : List String := e.name :: e.aliases

variable {es : List CatalogEntry} {e x : CatalogEntry} {t : TypeId} {s n : String}

/-! ### One more entry -/

namespace CatalogTables

theorem name?_add (ts : CatalogTables) (e : CatalogEntry) (t : TypeId) :
    (ts.add e).catalog.name? t = if e.id = t then some e.name else ts.catalog.name? t :=
  Table.get?_put ts.names e.id t e.name

theorem id?_add (ts : CatalogTables) (e : CatalogEntry) (s : String) :
    (ts.add e).catalog.id? s = if s ∈ e.spellings then some e.id else ts.catalog.id? s := by
  have others : (if s ∈ e.spellings.reverse then some e.id else none).or (ts.catalog.id? s) =
      if s ∈ e.spellings then some e.id else ts.catalog.id? s := by
    by_cases h : s ∈ e.spellings <;> simp [h]
  rw [← others, ← Table.get?_map_const, List.map_reverse]
  exact Table.get?_putAll ts.ids _ s

theorem ofEntries_concat (es : List CatalogEntry) (e : CatalogEntry) :
    ofEntries (es ++ [e]) = (ofEntries es).add e := by
  rw [ofEntries, List.foldl_append]
  rfl

end CatalogTables

namespace Catalog

/-! ### The last entry -/

/-- The last entry of a list of which something holds. -/
def IsLast (p : CatalogEntry → Prop) (es : List CatalogEntry) (e : CatalogEntry) : Prop :=
  ∃ before after, es = before ++ e :: after ∧ p e ∧ ∀ later ∈ after, ¬ p later

variable {p : CatalogEntry → Prop}

theorem IsLast.mem (h : IsLast p es e) : e ∈ es := by
  obtain ⟨before, after, rfl, -⟩ := h
  exact List.mem_append_right before List.mem_cons_self

theorem isLast_concat_iff :
    IsLast p (es ++ [e]) x ↔ (p e ∧ x = e) ∨ (¬ p e ∧ IsLast p es x) := by
  constructor
  · rintro ⟨before, after, parts, holds, none⟩
    rcases List.eq_nil_or_concat after with rfl | ⟨after, later, rfl⟩
    · obtain ⟨-, same⟩ := List.append_inj' parts rfl
      obtain rfl := List.head_eq_of_cons_eq same
      exact .inl ⟨holds, rfl⟩
    · rw [List.concat_eq_append, ← List.cons_append, ← List.append_assoc] at parts
      obtain ⟨rfl, same⟩ := List.append_inj' parts rfl
      obtain rfl := List.head_eq_of_cons_eq same
      rw [List.concat_eq_append] at none
      exact .inr ⟨none e (List.mem_append_right after List.mem_cons_self), before, after, rfl,
        holds, fun y mem => none y (List.mem_append_left [e] mem)⟩
  · rintro (⟨holds, rfl⟩ | ⟨not, before, after, rfl, holds, none⟩)
    · exact ⟨es, [], rfl, holds, nofun⟩
    · refine ⟨before, after ++ [e], by simp, holds, fun y mem => ?_⟩
      rcases List.mem_append.1 mem with mem | mem
      · exact none y mem
      · rw [List.mem_singleton.1 mem]
        exact not

/-- Where something holds of no two entries, it holds last of the one of which it holds. -/
theorem isLast_iff_mem (alone : es.Pairwise fun e e' => p e → ¬ p e') :
    IsLast p es e ↔ e ∈ es ∧ p e := by
  constructor
  · exact fun h => ⟨h.mem, have ⟨_, _, _, holds, _⟩ := h; holds⟩
  · rintro ⟨mem, holds⟩
    obtain ⟨before, after, rfl⟩ := List.append_of_mem mem
    have behind := (List.pairwise_cons.1 (List.pairwise_append.1 alone).2.1).1
    exact ⟨before, after, rfl, holds, fun later mem => behind later mem holds⟩

/-- **The last entry decides.**  If each entry decides what is read when something holds of it, and
leaves it alone otherwise, then the last one of which it holds decides. -/
theorem tables_eq_some_iff {α : Type} (read : CatalogTables → Option α) {value : CatalogEntry → α}
    [DecidablePred p] (start : read ⟨[], []⟩ = none)
    (step : ∀ ts e, read (ts.add e) = if p e then some (value e) else read ts) {y : α} :
    read (CatalogTables.ofEntries es) = some y ↔ ∃ e, IsLast p es e ∧ value e = y := by
  induction es using List.reverseRecOn with
  | nil =>
      rw [CatalogTables.ofEntries, List.foldl_nil, start]
      exact ⟨nofun, fun ⟨_, h, _⟩ => absurd h.mem List.not_mem_nil⟩
  | append_singleton es e ih =>
      simp only [CatalogTables.ofEntries_concat, step, isLast_concat_iff]
      split
      · next holds => simp [holds]
      · next not => simp [not, ih]

/-- The name of an identifier is that of the last entry with it. -/
theorem name?_ofEntries_iff : (ofEntries es).name? t = some n ↔
    ∃ e, IsLast (fun e => e.id = t) es e ∧ e.name = n :=
  tables_eq_some_iff (fun ts => ts.catalog.name? t) rfl fun ts e => ts.name?_add e t

/-- The identifier of a spelling is that of the last entry with it. -/
theorem id?_ofEntries_iff : (ofEntries es).id? s = some t ↔
    ∃ e, IsLast (fun e => s ∈ e.spellings) es e ∧ e.id = t :=
  tables_eq_some_iff (fun ts => ts.catalog.id? s) rfl fun ts e => ts.id?_add e s

/-! ### Entries that can be told apart -/

/-- Entries of which no two have an identifier or a spelling in common. -/
structure Unambiguous (es : List CatalogEntry) : Prop where
  distinct : (es.map CatalogEntry.id).Nodup
  apart : es.Pairwise fun e e' => ∀ s ∈ e.spellings, s ∉ e'.spellings

namespace Unambiguous

variable (h : Unambiguous es)

include h

theorem name?_iff : (ofEntries es).name? t = some n ↔ ∃ e ∈ es, e.id = t ∧ e.name = n := by
  have alone : es.Pairwise fun e e' => e.id = t → ¬ e'.id = t :=
    (List.pairwise_map.1 h.distinct).imp fun other here there => other (here.trans there.symm)
  simp only [name?_ofEntries_iff, isLast_iff_mem alone, and_assoc]

theorem id?_iff : (ofEntries es).id? s = some t ↔ ∃ e ∈ es, s ∈ e.spellings ∧ e.id = t := by
  have alone : es.Pairwise fun e e' => s ∈ e.spellings → s ∉ e'.spellings :=
    h.apart.imp fun apart here => apart s here
  simp only [id?_ofEntries_iff, isLast_iff_mem alone, and_assoc]

/-- The name of an identifier leads back to it. -/
theorem id?_of_name? (known : (ofEntries es).name? t = some n) :
    (ofEntries es).id? n = some t := by
  obtain ⟨e, mem, rfl, rfl⟩ := h.name?_iff.1 known
  exact h.id?_iff.2 ⟨e, mem, List.mem_cons_self, rfl⟩

/-- The identifier of a spelling leads to the name that it spells. -/
theorem name?_of_id? (known : (ofEntries es).id? s = some t) :
    ∃ e ∈ es, s ∈ e.spellings ∧ e.id = t ∧ (ofEntries es).name? t = some e.name := by
  obtain ⟨e, mem, spelled, rfl⟩ := h.id?_iff.1 known
  exact ⟨e, mem, spelled, rfl, h.name?_iff.2 ⟨e, mem, rfl, rfl⟩⟩

end Unambiguous

end Catalog

namespace Registry

/-- A column whose type was given by number, with the name of its type in place of the number: it is
the same column if that name leads back to the number, unless a row type has the name. -/
theorem column_of_numbered {r : Registry} {rowType name : String} {id : TypeId} {c : Column}
    (back : ∀ typeName, r.catalog.name? id = some typeName → r.catalog.id? typeName = some id)
    (numbered : r.column rowType ⟨name, none, some id⟩ = .ok c) :
    r.column rowType ⟨name, some c.typeName, none⟩ =
      .ok (if c.typeName ∈ r.names then { c with typeId := ColumnType.record.id } else c) := by
  cases column_eq_ok_iff.1 numbered with
  | numbered _ known =>
      rw [column_eq_ok_iff]
      split
      · next registered => exact .row name registered
      · next fresh => exact .builtin name fresh (back _ known)

end Registry

namespace Catalog

/-- **The two directions of a catalog agree.**  For every list of entries, the name of an identifier
is that of the last entry with this identifier, and the identifier of a text is that of the last
entry with this text among its spellings.  If no two entries have an identifier or a spelling in
common, then

* the name of every known identifier leads back to it;
* the identifier of every known text leads to the name of the one entry that has this spelling;
* in every registry with this catalog, a column whose type was given by its identifier alone is the
  same column when its type is given by the resulting name alone, unless a row type of that name is
  registered: then it has the type of rows. -/
theorem directions_agree (es : List CatalogEntry) :
    (∀ t n, (ofEntries es).name? t = some n ↔
      ∃ e, IsLast (fun e => e.id = t) es e ∧ e.name = n) ∧
    (∀ s t, (ofEntries es).id? s = some t ↔
      ∃ e, IsLast (fun e => s ∈ e.spellings) es e ∧ e.id = t) ∧
    (Unambiguous es →
      (∀ t n, (ofEntries es).name? t = some n → (ofEntries es).id? n = some t) ∧
      (∀ s t, (ofEntries es).id? s = some t →
        ∃ e ∈ es, s ∈ e.spellings ∧ e.id = t ∧ (ofEntries es).name? t = some e.name) ∧
      ∀ (r : Registry) (rowType name : String) (t : TypeId) (c : Column),
        r.catalog = ofEntries es → r.column rowType ⟨name, none, some t⟩ = .ok c →
        c.typeId = t ∧
        (c.typeName ∉ r.names → r.column rowType ⟨name, some c.typeName, none⟩ = .ok c) ∧
        (c.typeName ∈ r.names → r.column rowType ⟨name, some c.typeName, none⟩ =
          .ok { c with typeId := ColumnType.record.id })) := by
  refine ⟨fun t n => name?_ofEntries_iff, fun s t => id?_ofEntries_iff, fun unambiguous => ?_⟩
  refine ⟨fun t n => unambiguous.id?_of_name?, fun s t => unambiguous.name?_of_id?, ?_⟩
  rintro r rowType name t c catalog numbered
  have named := Registry.column_of_numbered (fun typeName known => by
    rw [catalog] at known ⊢
    exact unambiguous.id?_of_name? known) numbered
  refine ⟨?_, fun fresh => by rw [named, if_neg fresh], fun registered => by
    rw [named, if_pos registered]⟩
  cases Registry.column_eq_ok_iff.1 numbered
  rfl

/-- The types that the server brings along can be told apart. -/
theorem exists_unambiguous_builtin : ∃ es, builtin = ofEntries es ∧ Unambiguous es :=
  ⟨_, rfl, by decide +kernel, by decide +kernel⟩

/-- A registry with a row type that has the name of a built-in type. -/
def shadowing : Registry := ⟨builtin, [⟨"box", [⟨"label", "text", ColumnType.text.id⟩]⟩]⟩

theorem directions_agree_builtin : ∃ es, builtin = ofEntries es ∧ Unambiguous es ∧
    (∀ t n, builtin.name? t = some n → builtin.id? n = some t) ∧
    (∃ e ∈ es, "char" ∈ e.spellings ∧ e.id = 1042 ∧ builtin.name? 1042 = some e.name) ∧
    shadowing.column "shelf" ⟨"code", none, some 1042⟩ = .ok ⟨"code", "character", 1042⟩ ∧
    shadowing.column "shelf" ⟨"code", some "character", none⟩ = .ok ⟨"code", "character", 1042⟩ ∧
    shadowing.column "shelf" ⟨"area", none, some 603⟩ = .ok ⟨"area", "box", 603⟩ ∧
    shadowing.column "shelf" ⟨"area", some "box", none⟩ =
      .ok ⟨"area", "box", ColumnType.record.id⟩ := by
  obtain ⟨es, catalog, unambiguous⟩ := exists_unambiguous_builtin
  obtain ⟨-, -, agree⟩ := directions_agree es
  obtain ⟨back, forth, columns⟩ := agree unambiguous
  rw [← catalog] at back forth
  have spelled : builtin.id? "char" = some 1042 := by decide +kernel
  have code : shadowing.column "shelf" ⟨"code", none, some 1042⟩ =
      .ok ⟨"code", "character", 1042⟩ := by decide +kernel
  have area : shadowing.column "shelf" ⟨"area", none, some 603⟩ = .ok ⟨"area", "box", 603⟩ := by
    decide +kernel
  exact ⟨es, catalog, unambiguous, back, forth _ _ spelled,
    code, (columns _ _ _ _ _ catalog code).2.1 (by decide),
    area, (columns _ _ _ _ _ catalog area).2.2 (by decide)⟩

end Catalog

end RowLiteral
