import RowLiteral.Proofs.Traversal
import RowLiteral.Registry

/-!
# Registry — one definition

What a definition does to a registry, said once.  A column is *resolved* by a catalog and the names
that are registered (`Registry.Resolves`): its type is taken as it is given, or it is that of rows
where its name is registered, or it is looked up in the catalog.  A definition either finds a row
type under its name and changes nothing, or it adds one with its own columns, resolved in order
(`Registry.Adds`), behind all others.

* `Registry.column_eq_ok_iff`: a column is accepted when it is resolved.
* `Registry.define_eq_ok_iff`: the two ways in which a definition succeeds.
* `Registry.define_of_error`: one that fails leaves the registry as it was.
-/

namespace RowLiteral
namespace Registry

variable {r r' : Registry} {name : String} {t : RowType}

/-! ### Names -/

theorem name_of_get? (h : r.get? name = some t) : t.name = name := by
  simpa using List.find?_some h

theorem get?_eq_none_iff : r.get? name = none ↔ name ∉ r.names := by
  rw [get?, List.find?_eq_none, names, List.mem_map]
  simp only [decide_eq_true_eq, not_exists, not_and]

theorem has_eq_true_iff : r.has name = true ↔ name ∈ r.names := by
  rw [has, Option.isSome_iff_ne_none, ne_eq, get?_eq_none_iff, not_not]

@[simp] theorem names_add (r : Registry) (t : RowType) : (r.add t).names = r.names ++ [t.name] := by
  rw [names, add, List.map_append]
  rfl

@[simp] theorem catalog_add (r : Registry) (t : RowType) : (r.add t).catalog = r.catalog := rfl

/-- A row type that is found stands at the place of its name. -/
theorem exists_place?_of_get? (h : r.get? name = some t) :
    ∃ i, r.place? name = some i ∧ r.types[i]? = some t := by
  obtain ⟨is, i, hi, rfl, first⟩ := List.find?_eq_some_iff_getElem.1 h
  refine ⟨i, ?_, List.getElem?_eq_getElem hi⟩
  rw [place?, names, List.findIdx?_map, List.findIdx?_eq_some_iff_getElem]
  refine ⟨hi, is, fun j hj => ?_⟩
  simpa using first j hj

/-! ### Columns -/

/-- How a catalog and the registered names resolve the definition of a column. -/
inductive Resolves (catalog : Catalog) (registered : List String) :
    ColumnDefinition → Column → Prop where
  /-- Name and identifier are both given. -/
  | given (name typeName : String) (id : TypeId) :
      Resolves catalog registered ⟨name, some typeName, some id⟩ ⟨name, typeName, id⟩
  /-- A registered name has the type of rows. -/
  | row {typeName : String} (name : String) (mem : typeName ∈ registered) :
      Resolves catalog registered ⟨name, some typeName, none⟩
        ⟨name, typeName, ColumnType.record.id⟩
  /-- Any other name is that of a type of the catalog. -/
  | builtin {typeName : String} {id : TypeId} (name : String) (fresh : typeName ∉ registered)
      (known : catalog.id? typeName = some id) :
      Resolves catalog registered ⟨name, some typeName, none⟩ ⟨name, typeName, id⟩
  /-- An identifier alone is named by the catalog. -/
  | numbered {typeName : String} {id : TypeId} (name : String)
      (known : catalog.name? id = some typeName) :
      Resolves catalog registered ⟨name, none, some id⟩ ⟨name, typeName, id⟩

theorem Resolves.name_eq {catalog : Catalog} {registered : List String} {d : ColumnDefinition}
    {c : Column} (h : Resolves catalog registered d c) : c.name = d.name := by
  cases h <;> rfl

/-- The type of a name is that of rows if it is registered, and else that of the catalog. -/
theorem typeId?_eq_some_iff {typeName : String} {id : TypeId} :
    r.typeId? typeName = some id ↔
      (typeName ∈ r.names ∧ id = ColumnType.record.id) ∨
        (typeName ∉ r.names ∧ r.catalog.id? typeName = some id) := by
  rw [typeId?]
  by_cases mem : typeName ∈ r.names
  · simp [has_eq_true_iff.2 mem, mem, eq_comm]
  · simp [Bool.eq_false_iff.2 (mt has_eq_true_iff.1 mem), mem]

/-- **A column is accepted when it is resolved.** -/
theorem column_eq_ok_iff {rowType : String} {d : ColumnDefinition} {c : Column} :
    r.column rowType d = .ok c ↔ Resolves r.catalog r.names d c := by
  obtain ⟨name, typeName, id⟩ := d
  constructor
  · intro h
    match typeName, id with
    | some typeName, some id =>
        obtain rfl := Except.ok.inj h
        exact .given name typeName id
    | some typeName, none =>
        simp only [column] at h
        cases found : r.typeId? typeName with
        | none => rw [found] at h; cases h
        | some id =>
            rw [found] at h
            obtain rfl := Except.ok.inj h
            rcases typeId?_eq_some_iff.1 found with ⟨mem, rfl⟩ | ⟨fresh, known⟩
            · exact .row name mem
            · exact .builtin name fresh known
    | none, some id =>
        simp only [column] at h
        cases known : r.catalog.name? id with
        | none => rw [known] at h; cases h
        | some typeName =>
            rw [known] at h
            obtain rfl := Except.ok.inj h
            exact .numbered name known
    | none, none => cases h
  · intro h
    cases h with
    | given => rfl
    | row _ mem => simp only [column, typeId?_eq_some_iff.2 (.inl ⟨mem, rfl⟩)]
    | builtin _ fresh known => simp only [column, typeId?_eq_some_iff.2 (.inr ⟨fresh, known⟩)]
    | numbered _ known => simp only [column, known]

/-! ### Row types -/

/-- A row type that a definition adds to a registry. -/
structure Adds (r : Registry) (name : String) (ds : List ColumnDefinition) (t : RowType) : Prop where
  name_eq : t.name = name
  fresh : name ∉ r.names
  nonempty : ds ≠ []
  columns : List.Forall₂ (Resolves r.catalog r.names) ds t.columns

variable {ds : List ColumnDefinition}

theorem rowType_eq_ok_iff : r.rowType name ds = .ok t ↔
    t.name = name ∧ ds ≠ [] ∧ List.Forall₂ (Resolves r.catalog r.names) ds t.columns := by
  have resolved : ∀ cs, ds.mapM (r.column name) = .ok cs ↔
      List.Forall₂ (Resolves r.catalog r.names) ds cs := fun cs => by
    simp only [mapM_eq_ok_iff, column_eq_ok_iff]
  rw [rowType]
  split
  · next empty => exact ⟨nofun, fun ⟨_, nonempty, _⟩ => absurd empty nonempty⟩
  · next nonempty =>
    rw [map_eq_ok_iff]
    constructor
    · rintro ⟨cs, all, rfl⟩
      exact ⟨rfl, nonempty, (resolved cs).1 all⟩
    · rintro ⟨rfl, -, all⟩
      exact ⟨t.columns, (resolved t.columns).2 all, rfl⟩

/-- **A definition succeeds in two ways**: the name is there and nothing changes, or the name is new
and a row type is added. -/
theorem define_eq_ok_iff : r.define name ds = (.ok t, r') ↔
    (r.get? name = some t ∧ r' = r) ∨ (r.Adds name ds t ∧ r' = r.add t) := by
  rw [define]
  cases found : r.get? name with
  | some u =>
      have mem : ¬ name ∉ r.names := fun fresh => by
        rw [get?_eq_none_iff.2 fresh] at found
        cases found
      simp only [Except.ok.injEq, Prod.mk.injEq, Option.some.injEq]
      exact ⟨fun ⟨ht, hr⟩ => .inl ⟨ht, hr.symm⟩, fun h => h.elim (fun ⟨ht, hr⟩ => ⟨ht, hr.symm⟩)
        fun ⟨adds, _⟩ => absurd adds.fresh mem⟩
  | none =>
      have fresh := get?_eq_none_iff.1 found
      have adds_iff : r.rowType name ds = .ok t ↔ r.Adds name ds t :=
        rowType_eq_ok_iff.trans ⟨fun ⟨name_eq, nonempty, columns⟩ =>
          ⟨name_eq, fresh, nonempty, columns⟩, fun adds =>
          ⟨adds.name_eq, adds.nonempty, adds.columns⟩⟩
      rw [← adds_iff]
      cases r.rowType name ds with
      | ok u =>
          constructor
          · rintro ⟨⟩
            exact .inr ⟨rfl, rfl⟩
          · rintro (⟨h, -⟩ | ⟨h, rfl⟩)
            · cases h
            · rw [Except.ok.inj h]
      | error e => exact ⟨nofun, fun h => h.elim (fun h => nomatch h.1) fun h => nomatch h.1⟩

/-- **A definition that fails leaves the registry as it was.** -/
theorem define_of_error {e : CodecError} (h : (r.define name ds).1 = .error e) :
    (r.define name ds).2 = r := by
  rw [define] at h ⊢
  split at h
  · cases h
  · split at h
    · cases h
    · rfl

end Registry

end RowLiteral
