import RowLiteral.Error
import RowLiteral.Log
import RowLiteral.RowType

/-!
# Registry

The row types that have been defined, each under its name, in the order of their definition.  A name
is defined once: a later definition of it changes nothing and gives the row type that is there.  The
type of a column is looked up among the row types first, which all have the type `record`, and in
the catalog of built-in types after that.
-/

namespace RowLiteral

/-- The identifier of the type that goes by a name in a catalog. -/
def Catalog.typeId (c : Catalog) (name : String) : Except CodecError TypeId :=
  match c.id? name with
  | some id => .ok id
  | none => .error (.unsupportedTypeName name)

/-- Row types in the order of their definition, and the catalog for their columns. -/
structure Registry where
  catalog : Catalog
  types : List RowType

namespace Registry

/-- A registry without row types. -/
def empty (catalog : Catalog) : Registry := ⟨catalog, []⟩

/-- The row type of a name. -/
def get? (r : Registry) (name : String) : Option RowType := r.types.find? fun t => t.name = name

/-- Whether a name is defined. -/
def has (r : Registry) (name : String) : Bool := (r.get? name).isSome

/-- The names in the order of their definition. -/
def names (r : Registry) : List String := r.types.map RowType.name

/-- The place of a name among those defined. -/
def place? (r : Registry) (name : String) : Option Nat := r.names.findIdx? fun n => n = name

/-- The identifier of a type given by name. -/
def typeId? (r : Registry) (typeName : String) : Option TypeId :=
  if r.has typeName then some ColumnType.record.id else r.catalog.id? typeName

/-- The column of a definition, as part of a row type of some name. -/
def column (r : Registry) (rowType : String) (d : ColumnDefinition) : Except CodecError Column :=
  match d.typeName, d.typeId with
  | some typeName, some id => .ok ⟨d.name, typeName, id⟩
  | some typeName, none =>
    match r.typeId? typeName with
    | some id => .ok ⟨d.name, typeName, id⟩
    | none => .error (.unknownTypeName typeName d.name rowType)
  | none, some id =>
    match r.catalog.name? id with
    | some typeName => .ok ⟨d.name, typeName, id⟩
    | none => .error (.unknownTypeId id d.name rowType)
  | none, none => .error (.untypedColumn d.name rowType)

/-- The row type of a definition. -/
def rowType (r : Registry) (name : String) (ds : List ColumnDefinition) :
    Except CodecError RowType :=
  if ds = [] then .error (.noColumns name)
  else (ds.mapM (r.column name)).map fun columns => ⟨name, columns⟩

/-- The registry with one more row type. -/
def add (r : Registry) (t : RowType) : Registry := { r with types := r.types ++ [t] }

/-- Defines a row type: that of the name, or why there is none, and the registry after it. -/
def define (r : Registry) (name : String) (ds : List ColumnDefinition) :
    Except CodecError RowType × Registry :=
  match r.get? name with
  | some t => (.ok t, r)
  | none =>
    match r.rowType name ds with
    | .ok t => (.ok t, r.add t)
    | .error e => (.error e, r)

/-- What is reported of a definition: a row type that is new. -/
def defineReport (r : Registry) : Except CodecError RowType → List Entry
  | .ok t =>
    if r.has t.name then []
    else [⟨.debug, .registry, s!"Registered composite type {t.name} ({t.summary})", none⟩]
  | .error _ => []

/-- Defines a row type and reports it, if it is new. -/
def defineLogged (r : Registry) (name : String) (ds : List ColumnDefinition) :
    Logged (Except CodecError RowType × Registry) :=
  let result := r.define name ds
  ⟨result, r.defineReport result.1⟩

/-- Defines row types one after the other, up to the first that fails. -/
def defineAll (r : Registry) : List RowTypeDefinition → Logged (Except CodecError Registry)
  | [] => .quiet (.ok r)
  | d :: ds =>
    let first := r.defineLogged d.name d.columns
    match first.value with
    | (.ok _, r') =>
      let rest := r'.defineAll ds
      ⟨rest.value, first.entries ++ rest.entries⟩
    | (.error e, _) => ⟨.error e, first.entries⟩

end Registry

end RowLiteral
