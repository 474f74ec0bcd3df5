import RowLiteral.Codec
import RowLiteral.Encoding.Listed
import RowLiteral.Proofs.Registry.Define
import RowLiteral.Proofs.Types.Definitions
import RowLiteral.Proofs.Types.Keys

/-!
# Codec — opening with the types of a document

The loader of types and the registry look up the types of columns in two ways.  The loader knows
all names of its document before it looks at a column, so that row types may name themselves, each
other and later ones, and take the names of built-in types; the registry knows only what was defined
before.  They agree because what is loaded leaves the registry nothing to look up: it takes over the
row types that the document declares as they are (`Registry.value_defineAll_definition`).

* `Codec.opens_definitions`: which documents are loaded, and that a codec opens with what was loaded
  whenever its settings have a session.
-/

namespace RowLiteral

/-! ### Definitions with nothing to look up -/

namespace Registry

theorem value_defineLogged (r : Registry) (name : String) (ds : List ColumnDefinition) :
    (r.defineLogged name ds).value = r.define name ds := rfl

/-- A definition with all types is taken as it is, whatever is registered. -/
theorem adds_definition {r : Registry} {t : RowType} (fresh : t.name ∉ r.names)
    (nonempty : t.columns ≠ []) : r.Adds t.name t.definition.columns t where
  name_eq := rfl
  fresh := fresh
  nonempty := fun e => nonempty (List.map_eq_nil_iff.1 e)
  columns := List.forall₂_map_left_iff.2
    (List.forall₂_same.2 fun c _ => .given c.name c.typeName c.typeId)

/-- **Row types with distinct new names are taken over in their order.** -/
theorem value_defineAll_definition (r : Registry) (ts : List RowType)
    (distinct : (r.names ++ ts.map RowType.name).Nodup) (nonempty : ∀ t ∈ ts, t.columns ≠ []) :
    (r.defineAll (ts.map RowType.definition)).value = .ok ⟨r.catalog, r.types ++ ts⟩ := by
  induction ts generalizing r with
  | nil => rw [List.append_nil]; rfl
  | cons t ts ih =>
      have fresh : t.name ∉ r.names := fun mem =>
        (List.nodup_append.1 distinct).2.2 _ mem _ List.mem_cons_self rfl
      have defined : r.define t.name t.definition.columns = (.ok t, r.add t) :=
        define_eq_ok_iff.2 (.inr ⟨adds_definition fresh (nonempty t List.mem_cons_self), rfl⟩)
      -- the others have names that are not that of `t` either
      have rest := ih (r.add t) (by rwa [names_add, List.append_assoc])
        fun u mem => nonempty u (List.mem_cons_of_mem t mem)
      rw [List.map_cons, defineAll]
      simp only [value_defineLogged]
      rw [show t.definition.name = t.name from rfl, defined]
      simp only [rest, catalog_add]
      rw [add, List.append_assoc]
      rfl

end Registry

/-! ### What a document declares -/

namespace TypesFile

variable {doc : Option Document} {ts : List RowType}

/-- The row types have the names under which they stand in the document, in the same order. -/
theorem map_name_eq {names : List String} {types : List (String × Document)}
    (h : List.Forall₂ (DeclaresRowType names) types ts) :
    ts.map RowType.name = types.map Prod.fst :=
  (map_eq_map_of_forall₂ h fun _ _ declared => declared.name_eq.symm).symm

/-- The names of the row types are distinct. -/
theorem Declares.nodup_names (h : Declares doc ts) (keyed : ∀ d ∈ doc, d.Keyed) :
    (ts.map RowType.name).Nodup := by
  obtain ⟨types, ⟨entries, rfl, found⟩, -, declared⟩ := h
  rw [map_name_eq declared]
  have typesKeyed := (Document.keyed_mapping_iff.1 (keyed _ rfl)).2 _ (Table.mem_of_get? found)
  exact (Document.keyed_mapping_iff.1 typesKeyed).1

/-- Every row type has a column. -/
theorem Declares.columns_ne_nil (h : Declares doc ts) : ∀ t ∈ ts, t.columns ≠ [] := by
  obtain ⟨types, -, -, declared⟩ := h
  intro t mem none
  obtain ⟨-, -, -, columns, -, nonempty, each⟩ := exists_of_forall₂_of_mem declared mem
  exact nonempty (List.length_eq_zero_iff.1 (by rw [each.length_eq]; exact congrArg _ none))

end TypesFile

namespace Codec

theorem rowType_eq_ok_iff {c : Codec} {name : String} {t : RowType} :
    c.rowType name = .ok t ↔ c.registry.get? name = some t := by
  rw [rowType]
  cases c.registry.get? name with
  | none => exact ⟨nofun, nofun⟩
  | some t' =>
      exact ⟨fun h => congrArg some (Except.ok.inj h),
        fun h => congrArg Except.ok (Option.some.inj h)⟩

/-- A registered name is the name of a row type of the codec. -/
theorem exists_rowType_of_mem {c : Codec} {name : String} (h : name ∈ c.registry.names) :
    ∃ t ∈ c.registry.types, c.rowType name = .ok t ∧ t.name = name := by
  cases found : c.registry.get? name with
  | none => exact absurd h (Registry.get?_eq_none_iff.1 found)
  | some t =>
      exact ⟨t, List.mem_of_find?_eq_some found, rowType_eq_ok_iff.2 found,
        Registry.name_of_get? found⟩

theorem value_ofSession (session : Session) (types : List RowTypeDefinition) :
    (ofSession session types).value =
      ((Registry.empty .builtin).defineAll types).value.map (Codec.mk · session) := by
  unfold ofSession
  generalize (Registry.empty .builtin).defineAll types = defined
  obtain ⟨_ | _, _⟩ := defined <;> rfl

theorem value_ofSettings (machine : Zone) (decoders : Decoders) (settings : Settings)
    (types : List RowTypeDefinition) :
    (ofSettings machine decoders (some settings) types).value =
      (sessionOf machine decoders settings).bind fun session =>
        (ofSession session types).value := by
  unfold ofSettings
  dsimp only
  -- with a name for the session, `rfl` does not look the encoding up in the tables of the charsets
  generalize sessionOf machine decoders settings = opened
  cases opened <;> rfl

/-- A codec opens with row types of distinct names as far as its settings have a session. -/
theorem value_ofSettings_definition (machine : Zone) (decoders : Decoders) (settings : Settings)
    {ts : List RowType} (distinct : (ts.map RowType.name).Nodup)
    (nonempty : ∀ t ∈ ts, t.columns ≠ []) :
    (ofSettings machine decoders (some settings) (ts.map RowType.definition)).value =
      (sessionOf machine decoders settings).map (Codec.mk ⟨.builtin, ts⟩) := by
  have taken := (Registry.empty .builtin).value_defineAll_definition ts distinct nonempty
  rw [value_ofSettings]
  cases sessionOf machine decoders settings with
  | error e => rfl
  | ok session =>
      rw [Except.bind, value_ofSession, taken]
      rfl

/-- **A codec opens with whatever is loaded.**  A document is loaded if and only if it names a type
for each column of each of its row types.  The definitions that are loaded are those of the row
types that it declares: a column has the type of rows if its type is one of the document, and the
built-in type of that name otherwise.  With these definitions a codec opens whenever its settings
have a session, which is when the machine has a decoder of their encoding.  Its registry then holds
exactly the declared row types in their order, and it finds the row type of every column whose type
is one of the document. -/
theorem opens_definitions (doc : Option Document) (keyed : ∀ d ∈ doc, d.Keyed) :
    ((∃ ds, TypesFile.definitions doc = .ok ds) ↔ TypesFile.NamesAllTypes doc) ∧
    ∀ ds, TypesFile.definitions doc = .ok ds →
      ∃ ts, TypesFile.Declares doc ts ∧ ds = ts.map RowType.definition ∧
        ∀ machine decoders settings,
          (ofSettings machine decoders (some settings) ds).value =
            (sessionOf machine decoders settings).map (Codec.mk ⟨.builtin, ts⟩) ∧
          ∀ c, (ofSettings machine decoders (some settings) ds).value = .ok c →
            ∀ t ∈ ts, ∀ column ∈ t.columns, column.typeName ∈ ds.map RowTypeDefinition.name →
              ∃ t' ∈ ts, c.rowType column.typeName = .ok t' ∧ t'.name = column.typeName := by
  refine ⟨TypesFile.exists_definitions_iff, fun ds loaded => ?_⟩
  obtain ⟨ts, rfl, declared⟩ := TypesFile.definitions_eq_ok_iff.1 loaded
  refine ⟨ts, declared, rfl, fun machine decoders settings => ?_⟩
  have opened := value_ofSettings_definition machine decoders settings
    (declared.nodup_names keyed) declared.columns_ne_nil
  refine ⟨opened, fun c hc t _ column _ mem => ?_⟩
  rw [opened] at hc
  cases session : sessionOf machine decoders settings with
  | error e => rw [session] at hc; cases hc
  | ok s =>
      rw [session] at hc
      obtain rfl := Except.ok.inj hc
      rw [List.map_map] at mem
      have registered : column.typeName ∈ (Codec.mk ⟨.builtin, ts⟩ s).registry.names := mem
      exact exists_rowType_of_mem registered

/-- Two row types that name each other.  One names itself, and one has the name of a built-in
type. -/
def nodeTypes : List RowType :=
  [⟨"node", [⟨"next", "node", ColumnType.record.id⟩, ⟨"area", "box", ColumnType.record.id⟩]⟩,
    ⟨"box", [⟨"inner", "node", ColumnType.record.id⟩, ⟨"label", "text", ColumnType.text.id⟩]⟩]

/-- The document that declares them. -/
def nodeFile : Document :=
  .mapping [("types", .mapping
    [("node", .mapping [("next", .text "node"), ("area", .text "box")]),
      ("box", .mapping [("inner", .text "node"), ("label", .text "text")])])]

theorem opens_definitions_nodes :
    (∀ d ∈ some nodeFile, d.Keyed) ∧ TypesFile.NamesAllTypes (some nodeFile) ∧
      TypesFile.definitions (some nodeFile) = .ok (nodeTypes.map RowType.definition) ∧
      ∃ c, (ofSettings 0 .listed (some ⟨"UTF8", .utc⟩)
          (nodeTypes.map RowType.definition)).value = .ok c ∧
        c.registry.types = nodeTypes ∧ ∃ t ∈ nodeTypes, c.rowType "box" = .ok t := by
  have keyed : ∀ d ∈ some nodeFile, d.Keyed := by simp [nodeFile, Table.keys]
  have loaded : TypesFile.definitions (some nodeFile) =
      .ok (nodeTypes.map RowType.definition) := by decide
  obtain ⟨session, valid⟩ : ∃ session, sessionOf 0 .listed ⟨"UTF8", .utc⟩ = .ok session :=
    ⟨_, rfl⟩
  obtain ⟨named, opened⟩ := opens_definitions (some nodeFile) keyed
  obtain ⟨ts, -, same, opens⟩ := opened _ loaded
  obtain rfl := List.map_injective_iff.2 RowType.definition_injective same
  obtain ⟨value, found⟩ := opens 0 .listed ⟨"UTF8", .utc⟩
  rw [valid] at value
  obtain ⟨t, mem, rowType, -⟩ := found _ value nodeTypes[0] (by decide)
    ⟨"area", "box", ColumnType.record.id⟩ (by decide) (by decide)
  exact ⟨keyed, named.1 ⟨_, loaded⟩, loaded, _, value, rfl, t, mem, rowType⟩

end Codec

end RowLiteral
