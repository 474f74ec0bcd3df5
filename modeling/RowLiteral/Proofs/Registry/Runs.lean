import Mathlib.Data.List.Induction
import Mathlib.Data.List.Nodup
import RowLiteral.Proofs.Registry.Define

/-!
# Registry — runs of definitions

Definitions that are made one after the other, starting from an empty registry; some succeed, some
repeat a name, and some fail, which changes nothing (`Registry.run`).  A step is one of three things
(`Registry.after_cases`): it fails, it finds its name defined, or it adds a row type behind all
others.  So row types are never moved or replaced, and the place of a row type stands for the row
type itself: asking for a name again gives what stands at the same place.

* `Registry.run_invariants`: what holds after every run, of the order of the names, of names that
  are defined, of definitions that fail, and of the row types and how they came about.
-/

namespace RowLiteral
namespace Registry

/-- What a definition is answered. -/
def answer (r : Registry) (d : RowTypeDefinition) : Except CodecError RowType :=
  (r.define d.name d.columns).1

/-- The registry after a definition. -/
def after (r : Registry) (d : RowTypeDefinition) : Registry := (r.define d.name d.columns).2

/-- The registry after definitions that are made one after the other. -/
def run (catalog : Catalog) (ds : List RowTypeDefinition) : Registry :=
  ds.foldl after (empty catalog)

/-- The names of the definitions that succeed one after the other. -/
def granted (r : Registry) : List RowTypeDefinition → List String
  | [] => []
  | d :: ds =>
    match r.answer d with
    | .ok _ => d.name :: (r.after d).granted ds
    | .error _ => (r.after d).granted ds

/-! ### One step -/

variable {r : Registry} {d : RowTypeDefinition} {t : RowType}

/-- **What a definition does**: it fails, it finds its name, or it adds a row type. -/
theorem after_cases (r : Registry) (d : RowTypeDefinition) :
    (∃ e, r.answer d = .error e ∧ r.after d = r) ∨
      (∃ t, r.answer d = .ok t ∧ r.get? d.name = some t ∧ r.after d = r) ∨
      (∃ t, r.answer d = .ok t ∧ r.Adds d.name d.columns t ∧ r.after d = r.add t) := by
  cases answered : r.answer d with
  | error e => exact .inl ⟨e, rfl, define_of_error answered⟩
  | ok t =>
      rcases define_eq_ok_iff.1 (Prod.ext answered rfl) with ⟨found, same⟩ | ⟨adds, added⟩
      · exact .inr (.inl ⟨t, rfl, found, same⟩)
      · exact .inr (.inr ⟨t, rfl, adds, added⟩)

theorem catalog_after (r : Registry) (d : RowTypeDefinition) :
    (r.after d).catalog = r.catalog := by
  rcases r.after_cases d with ⟨_, _, same⟩ | ⟨_, _, _, same⟩ | ⟨_, _, _, added⟩
  · rw [same]
  · rw [same]
  · rw [added, catalog_add]

theorem types_prefix_after (r : Registry) (d : RowTypeDefinition) :
    r.types <+: (r.after d).types := by
  rcases r.after_cases d with ⟨_, _, same⟩ | ⟨_, _, _, same⟩ | ⟨t, _, _, added⟩
  · exact ⟨[], by rw [same, List.append_nil]⟩
  · exact ⟨[], by rw [same, List.append_nil]⟩
  · rw [added]; exact List.prefix_append r.types [t]

/-- Distinct names stay distinct. -/
theorem nodup_names_after (h : r.names.Nodup) (d : RowTypeDefinition) :
    (r.after d).names.Nodup := by
  rcases r.after_cases d with ⟨_, _, same⟩ | ⟨_, _, _, same⟩ | ⟨t, _, adds, added⟩
  · rwa [same]
  · rwa [same]
  · rw [added, names_add, List.nodup_append]
    refine ⟨h, List.nodup_singleton _, fun n mem m hm => ?_⟩
    rw [List.mem_singleton.1 hm, adds.name_eq]
    exact fun e => adds.fresh (e ▸ mem)

/-- The names of a registry are those of the definitions that succeeded, each at its first place. -/
theorem names_after_eq {given : List String} (h : r.names = given.eraseDups)
    (d : RowTypeDefinition) : (r.after d).names = (given ++ r.granted [d]).eraseDups := by
  have mem : ∀ n, n ∈ r.names ↔ n ∈ given := fun n => by rw [h, List.mem_eraseDups]
  rw [List.eraseDups_append, ← h, granted]
  rcases r.after_cases d with ⟨e, refused, same⟩ | ⟨t, answered, found, same⟩ |
      ⟨t, answered, adds, added⟩
  · simp [refused, same, granted, List.removeAll]
  -- a name that is given again has its first place before
  · have seen : d.name ∈ given := by
      rw [← mem]
      by_contra fresh
      rw [get?_eq_none_iff.2 fresh] at found
      cases found
    simp [answered, same, granted, List.removeAll, seen]
  · have unseen : d.name ∉ given := fun seen => adds.fresh ((mem d.name).2 seen)
    simp [answered, added, granted, List.removeAll, unseen, adds.name_eq, List.eraseDups_cons]

/-! ### Registries that keep row types -/

variable {r' : Registry} {name : String}

theorem get?_mono (kept : r.types <+: r'.types) (h : r.get? name = some t) :
    r'.get? name = some t := by
  obtain ⟨more, e⟩ := kept
  rw [get?, ← e, List.find?_append]
  rw [get?] at h
  rw [h, Option.some_or]

/-- A row type keeps its place. -/
theorem place?_mono (kept : r.types <+: r'.types) {i : Nat} (h : r.place? name = some i) :
    r'.place? name = some i := by
  obtain ⟨more, e⟩ := kept
  rw [place?, names] at h
  rw [place?, names, ← e, List.map_append, List.findIdx?_append, h, Option.some_or]

theorem define_of_get? (h : r.get? name = some t) (columns : List ColumnDefinition) :
    r.define name columns = (.ok t, r) := define_eq_ok_iff.2 (.inl ⟨h, rfl⟩)

/-! ### Runs -/

variable {catalog : Catalog} {ds : List RowTypeDefinition}

theorem run_concat (catalog : Catalog) (ds : List RowTypeDefinition) (d : RowTypeDefinition) :
    run catalog (ds ++ [d]) = (run catalog ds).after d := by
  rw [run, List.foldl_append]
  rfl

theorem granted_concat (r : Registry) (ds : List RowTypeDefinition) (d : RowTypeDefinition) :
    r.granted (ds ++ [d]) = r.granted ds ++ (ds.foldl after r).granted [d] := by
  induction ds generalizing r with
  | nil => rfl
  | cons d' ds ih =>
      rw [List.cons_append, granted, granted, List.foldl_cons]
      cases r.answer d' with
      | ok t => exact congrArg (d'.name :: ·) (ih (r.after d'))
      | error e => exact ih (r.after d')

theorem catalog_run (catalog : Catalog) (ds : List RowTypeDefinition) :
    (run catalog ds).catalog = catalog := by
  induction ds using List.reverseRecOn with
  | nil => rfl
  | append_singleton ds d ih => rw [run_concat, catalog_after, ih]

theorem nodup_names_run (catalog : Catalog) (ds : List RowTypeDefinition) :
    (run catalog ds).names.Nodup := by
  induction ds using List.reverseRecOn with
  | nil => exact List.nodup_nil
  | append_singleton ds d ih => rw [run_concat]; exact nodup_names_after ih d

theorem names_run (catalog : Catalog) (ds : List RowTypeDefinition) :
    (run catalog ds).names = ((empty catalog).granted ds).eraseDups := by
  induction ds using List.reverseRecOn with
  | nil => rfl
  | append_singleton ds d ih =>
      rw [run_concat, granted_concat]
      exact names_after_eq ih d

/-- A longer run keeps the row types and goes on behind them. -/
theorem types_prefix_run (catalog : Catalog) (ds more : List RowTypeDefinition) :
    (run catalog ds).types <+: (run catalog (ds ++ more)).types := by
  induction more using List.reverseRecOn with
  | nil => exact ⟨[], by simp only [List.append_nil]⟩
  | append_singleton more d ih =>
      rw [← List.append_assoc, run_concat]
      exact ih.trans (types_prefix_after _ d)

/-- A definition that succeeds leaves its answer under its name. -/
theorem get?_after_of_answer (h : r.answer d = .ok t) : (r.after d).get? d.name = some t := by
  rcases r.after_cases d with ⟨e, refused, _⟩ | ⟨u, answered, found, same⟩ |
      ⟨u, answered, adds, added⟩
  · exact nomatch h.symm.trans refused
  · obtain rfl := Except.ok.inj (h.symm.trans answered)
    rwa [same]
  · obtain rfl := Except.ok.inj (h.symm.trans answered)
    have unfound := get?_eq_none_iff.2 adds.fresh
    rw [get?] at unfound
    rw [added, get?, add, List.find?_append, unfound, Option.none_or, ← adds.name_eq]
    exact List.find?_cons_of_pos (by simp)

/-- Every row type of a run was added by one of its definitions. -/
theorem exists_adds_of_mem_run (h : t ∈ (run catalog ds).types) :
    ∃ before d after, ds = before ++ d :: after ∧ (run catalog before).answer d = .ok t ∧
      (run catalog before).Adds d.name d.columns t := by
  induction ds using List.reverseRecOn with
  | nil => exact absurd h List.not_mem_nil
  | append_singleton ds d ih =>
      have earlier : t ∈ (run catalog ds).types → ∃ before d' after,
          ds ++ [d] = before ++ d' :: after ∧ (run catalog before).answer d' = .ok t ∧
            (run catalog before).Adds d'.name d'.columns t := fun mem => by
        obtain ⟨before, d', after, rfl, made⟩ := ih mem
        exact ⟨before, d', after ++ [d], by simp, made⟩
      rw [run_concat] at h
      rcases (run catalog ds).after_cases d with ⟨_, _, same⟩ | ⟨_, _, _, same⟩ |
          ⟨u, answered, adds, added⟩
      · exact earlier (same ▸ h)
      · exact earlier (same ▸ h)
      · rw [added] at h
        rcases List.mem_append.1 h with mem | mem
        · exact earlier mem
        · obtain rfl := List.mem_singleton.1 mem
          exact ⟨ds, d, [], rfl, answered, adds⟩

/-- **What holds after every run.**  For every catalog and all definitions, made one after the other
on an empty registry:

* the names are distinct, and they are those of the definitions that succeeded, in the order in
  which each first did;
* a name for which a definition succeeded is found from then on, with the row type that it was
  answered and at the place where that stood at once; and defining it again, with whatever columns,
  gives that row type and changes nothing;
* a definition that fails leaves what is found, what is there and the names as they were;
* every row type was added by one of the definitions, under a name that was new then; it has at
  least one column, the names of its columns are those of the definition in order, and their types
  are resolved by the catalog and the names that were registered before it. -/
theorem run_invariants (catalog : Catalog) (ds : List RowTypeDefinition) :
    ((run catalog ds).names.Nodup ∧
      (run catalog ds).names = ((empty catalog).granted ds).eraseDups) ∧
    (∀ before d after t, ds = before ++ d :: after → (run catalog before).answer d = .ok t →
      (run catalog ds).get? d.name = some t ∧
      (∃ i, (run catalog (before ++ [d])).place? d.name = some i ∧
        (run catalog ds).place? d.name = some i ∧ (run catalog ds).types[i]? = some t) ∧
      ∀ columns, (run catalog ds).define d.name columns = (.ok t, run catalog ds)) ∧
    (∀ d e, (run catalog ds).answer d = .error e →
      (run catalog (ds ++ [d])).names = (run catalog ds).names ∧
      ∀ name, (run catalog (ds ++ [d])).get? name = (run catalog ds).get? name ∧
        (run catalog (ds ++ [d])).has name = (run catalog ds).has name) ∧
    ∀ t ∈ (run catalog ds).types, ∃ before d after, ds = before ++ d :: after ∧
      (run catalog before).answer d = .ok t ∧
      t.name = d.name ∧ t.name ∉ (run catalog before).names ∧
      1 ≤ t.columns.length ∧
      t.columns.map Column.name = d.columns.map ColumnDefinition.name ∧
      List.Forall₂ (Resolves catalog (run catalog before).names) d.columns t.columns := by
  refine ⟨⟨nodup_names_run catalog ds, names_run catalog ds⟩, ?_, ?_, ?_⟩
  · rintro before d after t rfl answered
    have found : (run catalog (before ++ [d])).get? d.name = some t := by
      rw [run_concat]
      exact get?_after_of_answer answered
    have kept : (run catalog (before ++ [d])).types <+:
        (run catalog (before ++ d :: after)).types := by
      rw [List.append_cons before d after]
      exact types_prefix_run catalog (before ++ [d]) after
    obtain ⟨i, place, entry⟩ := exists_place?_of_get? found
    refine ⟨get?_mono kept found, ⟨i, place, place?_mono kept place, ?_⟩,
      define_of_get? (get?_mono kept found)⟩
    obtain ⟨more, e⟩ := kept
    rw [← e, List.getElem?_append_left (List.getElem?_eq_some_iff.1 entry).1, entry]
  · intro d e refused
    have same : run catalog (ds ++ [d]) = run catalog ds := by
      rw [run_concat]
      rcases (run catalog ds).after_cases d with ⟨_, _, same⟩ | ⟨_, answered, _⟩ |
          ⟨_, answered, _⟩
      · exact same
      · exact nomatch refused.symm.trans answered
      · exact nomatch refused.symm.trans answered
    exact ⟨by rw [same], fun name => by rw [same]; exact ⟨rfl, rfl⟩⟩
  · intro t mem
    obtain ⟨before, d, after, split, answered, adds⟩ := exists_adds_of_mem_run mem
    have columns := adds.columns
    rw [catalog_run] at columns
    have names : t.columns.map Column.name = d.columns.map ColumnDefinition.name :=
      (map_eq_map_of_forall₂ columns fun _ _ h => h.name_eq.symm).symm
    have length : 1 ≤ t.columns.length := by
      rw [← columns.length_eq]
      exact List.length_pos_iff.2 adds.nonempty
    exact ⟨before, d, after, split, answered, adds.name_eq, adds.name_eq ▸ adds.fresh, length,
      names, columns⟩

/-- A row type with one column of text. -/
def itemDefinition : RowTypeDefinition := ⟨"item", [⟨"name", some "text", none⟩]⟩

/-- A row type with a column whose type is not known. -/
def lostDefinition : RowTypeDefinition :=
  ⟨"lost", [⟨"name", some "text", none⟩, ⟨"place", some "absent", none⟩]⟩

/-- Definitions of which one repeats a name, one fails, and one takes the name of a built-in type
that its own column and then the column of another row type have. -/
def shelfDefinitions : List RowTypeDefinition :=
  [itemDefinition, ⟨"item", []⟩, lostDefinition, ⟨"box", [⟨"corners", some "box", none⟩]⟩,
    ⟨"shelf", [⟨"item", some "item", none⟩, ⟨"box", some "box", none⟩]⟩]

/-- The row types that these definitions add. -/
def shelfTypes : List RowType :=
  [⟨"item", [⟨"name", "text", ColumnType.text.id⟩]⟩,
    ⟨"box", [⟨"corners", "box", ColumnType.box.id⟩]⟩,
    ⟨"shelf", [⟨"item", "item", ColumnType.record.id⟩, ⟨"box", "box", ColumnType.record.id⟩]⟩]

theorem run_shelfDefinitions : run .builtin shelfDefinitions = ⟨.builtin, shelfTypes⟩ := by
  have types : (run .builtin shelfDefinitions).types = shelfTypes := by decide +kernel
  exact congrArg₂ Registry.mk (catalog_run .builtin shelfDefinitions) types

theorem run_invariants_shelf :
    (run .builtin []).answer itemDefinition = .ok shelfTypes[0] ∧
      (run .builtin shelfDefinitions).define "item" [] =
        (.ok shelfTypes[0], run .builtin shelfDefinitions) ∧
      (run .builtin shelfDefinitions).answer lostDefinition =
        .error (.unknownTypeName "absent" "place" "lost") ∧
      (run .builtin (shelfDefinitions ++ [lostDefinition])).names = ["item", "box", "shelf"] ∧
      shelfTypes[2] ∈ (run .builtin shelfDefinitions).types ∧
      ∃ before d after, shelfDefinitions = before ++ d :: after ∧
        List.Forall₂ (Resolves .builtin (run .builtin before).names) d.columns
          shelfTypes[2].columns := by
  have answered : (run .builtin []).answer itemDefinition = .ok shelfTypes[0] := by rfl
  have refused : (run .builtin shelfDefinitions).answer lostDefinition =
      .error (.unknownTypeName "absent" "place" "lost") := by
    rw [run_shelfDefinitions]; rfl
  have mem : shelfTypes[2] ∈ (run .builtin shelfDefinitions).types := by
    rw [run_shelfDefinitions]; decide
  obtain ⟨-, kept, unchanged, added⟩ := run_invariants .builtin shelfDefinitions
  obtain ⟨before, d, after, split, -, -, -, -, -, resolved⟩ := added _ mem
  refine ⟨answered, (kept [] itemDefinition _ _ rfl answered).2.2 [], refused, ?_, mem,
    before, d, after, split, resolved⟩
  rw [(unchanged lostDefinition _ refused).1, run_shelfDefinitions]
  rfl

end Registry

end RowLiteral
