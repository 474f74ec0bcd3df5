import RowLiteral.Proofs.Traversal
import RowLiteral.Types.File

/-!
# Types — what a document declares

The row types that a document declares, said without the loader.  A column is declared by a text
that is not blank and names a row type of the same document or, failing that, a built-in type
(`TypesFile.DeclaresColumn`); a row type by a mapping with at least one column; and the document by
a mapping under `types` with at least one row type (`TypesFile.Declares`).  The definitions that are
loaded are those of the declared row types, with nothing left to look up (`RowType.definition`).

* `TypesFile.definitions_eq_ok_iff`: what is loaded is what the document declares.
* `TypesFile.exists_definitions_iff`: which documents are loaded.
-/

namespace RowLiteral
open Text

/-- The definition that gives a column with its type. -/
def Column.definition (c : Column) : ColumnDefinition := ⟨c.name, some c.typeName, some c.typeId⟩

/-- The definition that gives a row type with the types of its columns. -/
def RowType.definition (t : RowType) : RowTypeDefinition :=
  ⟨t.name, t.columns.map Column.definition⟩

theorem Column.definition_injective : Function.Injective Column.definition := by
  rintro ⟨_, _, _⟩ ⟨_, _, _⟩ h
  cases h
  rfl

theorem RowType.definition_injective : Function.Injective RowType.definition := by
  rintro ⟨_, cs⟩ ⟨_, cs'⟩ h
  obtain ⟨rfl, columns⟩ := RowTypeDefinition.mk.inj h
  obtain rfl : cs = cs' := List.map_injective_iff.2 Column.definition_injective columns
  rfl

namespace TypesFile

/-! ### Columns -/

/-- How an entry declares a column, where `names` are those of the row types of the document. -/
inductive DeclaresColumn (names : List String) : String × Document → Column → Prop where
  /-- A row type of the document, whether or not it has the name of a built-in type. -/
  | ofFile {type : String} (name : String) (legible : isBlank type = false) (mem : type ∈ names) :
      DeclaresColumn names (name, .text type) ⟨name, type, ColumnType.record.id⟩
  /-- A built-in type. -/
  | builtin {type : String} {id : TypeId} (name : String) (legible : isBlank type = false)
      (other : type ∉ names) (known : Catalog.builtin.id? type = some id) :
      DeclaresColumn names (name, .text type) ⟨name, type, id⟩

/-- A document that names a type. -/
def NamesType (names : List String) (d : Document) : Prop :=
  ∃ type, d = .text type ∧ isBlank type = false ∧
    (type ∈ names ∨ ∃ id, Catalog.builtin.id? type = some id)

variable {names : List String} {rowType : String}

theorem column_eq_ok_iff {e : String × Document} {c : ColumnDefinition} :
    column names rowType e.1 e.2 = .ok c ↔ ∃ c', c = c'.definition ∧ DeclaresColumn names e c' := by
  obtain ⟨name, d⟩ := e
  constructor
  · intro h
    cases d with
    | text type =>
        simp only [column] at h
        split at h
        · cases h
        · next legible =>
          have legible := Bool.eq_false_iff.2 legible
          split at h
          · next mem =>
            exact ⟨⟨name, type, _⟩, (Except.ok.inj h).symm, .ofFile name legible mem⟩
          · next other =>
            cases known : Catalog.builtin.id? type with
            | none => rw [known] at h; cases h
            | some id =>
                rw [known] at h
                exact ⟨⟨name, type, id⟩, (Except.ok.inj h).symm,
                  .builtin name legible other known⟩
    | _ => cases h
  · rintro ⟨c', rfl, declared⟩
    cases declared with
    | ofFile _ legible mem => simp only [column, legible, mem, if_true]; rfl
    | builtin _ legible other known => simp only [column, legible, other, if_false, known]; rfl

theorem exists_column_iff {e : String × Document} :
    (∃ c, column names rowType e.1 e.2 = .ok c) ↔ NamesType names e.2 := by
  simp only [column_eq_ok_iff]
  constructor
  · rintro ⟨_, c', -, declared⟩
    cases declared with
    | ofFile _ legible mem => exact ⟨_, rfl, legible, .inl mem⟩
    | builtin _ legible _ known => exact ⟨_, rfl, legible, .inr ⟨_, known⟩⟩
  · obtain ⟨name, d⟩ := e
    rintro ⟨type, rfl, legible, known⟩
    by_cases mem : type ∈ names
    · exact ⟨_, _, rfl, .ofFile name legible mem⟩
    · obtain ⟨id, known⟩ := known.resolve_left mem
      exact ⟨_, _, rfl, .builtin name legible mem known⟩

/-! ### Row types -/

/-- How an entry declares a row type. -/
structure DeclaresRowType (names : List String) (e : String × Document) (t : RowType) : Prop where
  name_eq : t.name = e.1
  columns : ∃ columns, e.2 = .mapping columns ∧ columns ≠ [] ∧
    List.Forall₂ (DeclaresColumn names) columns t.columns

/-- A document that names a type for each of its columns, of which there is one at least. -/
def NamesColumns (names : List String) (d : Document) : Prop :=
  ∃ columns, d = .mapping columns ∧ columns ≠ [] ∧ ∀ e ∈ columns, NamesType names e.2

/-- A row type is loaded from a mapping that is not empty, column by column. -/
theorem rowType_mapping {columns : List (String × Document)} (nonempty : columns ≠ [])
    (name : String) : TypesFile.rowType names name (.mapping columns) =
      (columns.mapM fun e => column names name e.1 e.2).map fun cs => ⟨name, cs⟩ := by
  cases columns with
  | nil => exact absurd rfl nonempty
  | cons e es => rfl

/-- A row type is loaded from nothing else. -/
theorem mapping_of_rowType {name : String} {d : Document} {t : RowTypeDefinition}
    (h : TypesFile.rowType names name d = .ok t) :
    ∃ columns, d = .mapping columns ∧ columns ≠ [] := by
  cases d with
  | mapping columns =>
      cases columns with
      | nil => cases h
      | cons e es => exact ⟨_, rfl, List.cons_ne_nil e es⟩
  | _ => cases h

theorem rowType_eq_ok_iff {e : String × Document} {t : RowTypeDefinition} :
    TypesFile.rowType names e.1 e.2 = .ok t ↔
      ∃ t', t = t'.definition ∧ DeclaresRowType names e t' := by
  obtain ⟨name, d⟩ := e
  constructor
  · intro h
    obtain ⟨columns, rfl, nonempty⟩ := mapping_of_rowType h
    rw [rowType_mapping nonempty, map_eq_ok_iff] at h
    obtain ⟨cs, all, rfl⟩ := h
    obtain ⟨cs', rfl, declared⟩ := (mapM_eq_ok_map_iff fun _ _ => column_eq_ok_iff).1 all
    exact ⟨⟨name, cs'⟩, rfl, rfl, columns, rfl, nonempty, declared⟩
  · rintro ⟨⟨_, cs'⟩, rfl, rfl, columns, rfl, nonempty, declared⟩
    rw [rowType_mapping nonempty, map_eq_ok_iff]
    exact ⟨_, (mapM_eq_ok_map_iff fun _ _ => column_eq_ok_iff).2 ⟨cs', rfl, declared⟩, rfl⟩

theorem exists_rowType_iff {e : String × Document} :
    (∃ t, TypesFile.rowType names e.1 e.2 = .ok t) ↔ NamesColumns names e.2 := by
  obtain ⟨name, d⟩ := e
  have each : ∀ columns : List (String × Document),
      (∃ cs, (columns.mapM fun e => column names name e.1 e.2) = .ok cs) ↔
        ∀ e ∈ columns, NamesType names e.2 := fun columns => by
    simp only [exists_mapM_eq_ok_iff, exists_column_iff]
  constructor
  · rintro ⟨t, h⟩
    obtain ⟨columns, rfl, nonempty⟩ := mapping_of_rowType h
    rw [rowType_mapping nonempty, map_eq_ok_iff] at h
    obtain ⟨cs, all, -⟩ := h
    exact ⟨columns, rfl, nonempty, (each columns).1 ⟨cs, all⟩⟩
  · rintro ⟨columns, rfl, nonempty, named⟩
    obtain ⟨cs, all⟩ := (each columns).2 named
    exact ⟨⟨name, cs⟩, by rw [rowType_mapping nonempty, all]; rfl⟩

/-! ### Documents -/

/-- The row types that a document has under `types`. -/
def Lists (doc : Option Document) (types : List (String × Document)) : Prop :=
  ∃ entries, doc = some (.mapping entries) ∧ Table.get? entries "types" = some (.mapping types)

/-- The row types that a document declares. -/
def Declares (doc : Option Document) (ts : List RowType) : Prop :=
  ∃ types, Lists doc types ∧ types ≠ [] ∧
    List.Forall₂ (DeclaresRowType (types.map Prod.fst)) types ts

/-- A document that names a type for each column of each of its row types. -/
def NamesAllTypes (doc : Option Document) : Prop :=
  ∃ types, Lists doc types ∧ types ≠ [] ∧ ∀ e ∈ types, NamesColumns (types.map Prod.fst) e.2

variable {doc : Option Document}

theorem lists_iff {types : List (String × Document)} :
    Lists doc types ↔ (doc.bind (Document.get? "types")).bind Document.entries? = some types := by
  constructor
  · rintro ⟨entries, rfl, found⟩
    simp only [Option.bind_some, Document.get?, Document.entries?, found]
  · intro h
    obtain ⟨under, found, typed⟩ := Option.bind_eq_some_iff.1 h
    obtain ⟨d, rfl, reached⟩ := Option.bind_eq_some_iff.1 found
    obtain ⟨entries, mapped, entry⟩ := Option.bind_eq_some_iff.1 reached
    cases d with
    | mapping all =>
        obtain rfl := Option.some.inj mapped
        cases under with
        | mapping _ =>
            obtain rfl := Option.some.inj typed
            exact ⟨all, rfl, entry⟩
        | _ => cases typed
    | _ => cases mapped

/-- A document is loaded row type by row type. -/
theorem definitions_of_lists {types : List (String × Document)} (listed : Lists doc types)
    (nonempty : types ≠ []) : definitions doc =
      types.mapM fun e => TypesFile.rowType (types.map Prod.fst) e.1 e.2 := by
  rw [definitions, lists_iff.1 listed]
  cases types with
  | nil => exact absurd rfl nonempty
  | cons e es => rfl

/-- Nothing is loaded from another document. -/
theorem lists_of_definitions {ds : List RowTypeDefinition} (h : definitions doc = .ok ds) :
    ∃ types, Lists doc types ∧ types ≠ [] := by
  rw [definitions] at h
  split at h
  · cases h
  · cases h
  · next types nonempty listed => exact ⟨types, lists_iff.2 listed, fun e => nonempty e⟩

/-- **What is loaded is what the document declares.** -/
theorem definitions_eq_ok_iff {ds : List RowTypeDefinition} :
    definitions doc = .ok ds ↔ ∃ ts, ds = ts.map RowType.definition ∧ Declares doc ts := by
  constructor
  · intro h
    obtain ⟨types, listed, nonempty⟩ := lists_of_definitions h
    rw [definitions_of_lists listed nonempty] at h
    obtain ⟨ts, e, declared⟩ := (mapM_eq_ok_map_iff fun _ _ => rowType_eq_ok_iff).1 h
    exact ⟨ts, e, types, listed, nonempty, declared⟩
  · rintro ⟨ts, rfl, types, listed, nonempty, declared⟩
    rw [definitions_of_lists listed nonempty]
    exact (mapM_eq_ok_map_iff fun _ _ => rowType_eq_ok_iff).2 ⟨ts, rfl, declared⟩

/-- **Which documents are loaded.** -/
theorem exists_definitions_iff : (∃ ds, definitions doc = .ok ds) ↔ NamesAllTypes doc := by
  have each : ∀ types, Lists doc types → types ≠ [] → ((∃ ds, definitions doc = .ok ds) ↔
      ∀ e ∈ types, NamesColumns (types.map Prod.fst) e.2) := fun types listed nonempty => by
    simp only [definitions_of_lists listed nonempty, exists_mapM_eq_ok_iff, exists_rowType_iff]
  constructor
  · rintro ⟨ds, h⟩
    obtain ⟨types, listed, nonempty⟩ := lists_of_definitions h
    exact ⟨types, listed, nonempty, (each types listed nonempty).1 ⟨ds, h⟩⟩
  · rintro ⟨types, listed, nonempty, named⟩
    exact (each types listed nonempty).2 named

end TypesFile

end RowLiteral
