import RowLiteral.ColumnType

/-!
# Row types

The shape that the values of one row type share: its name and its columns in order.  A column has a
name, the name of its type as it was declared, and the identifier of its type.
-/

namespace RowLiteral

/-- One position of a row type. -/
structure Column where
  name : String
  typeName : String
  typeId : TypeId
deriving DecidableEq, Repr

/-- A name and columns. -/
structure RowType where
  name : String
  columns : List Column
deriving DecidableEq, Repr

/-- A column before its type is looked up: its type is given by name, by identifier or by both. -/
structure ColumnDefinition where
  name : String
  typeName : Option String
  typeId : Option TypeId
deriving DecidableEq, Repr

/-- A row type before the types of its columns are looked up. -/
structure RowTypeDefinition where
  name : String
  columns : List ColumnDefinition
deriving DecidableEq, Repr

/-- The columns as a report lists them. -/
def RowType.summary (t : RowType) : String :=
  String.intercalate ", " (t.columns.map fun c => s!"{c.name} {c.typeName}")

end RowLiteral
