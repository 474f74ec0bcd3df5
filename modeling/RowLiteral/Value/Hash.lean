import RowLiteral.Text.Hash
import RowLiteral.Value.Text

/-!
# Value — hash

The hash of a value mixes the hash of the name of its kind with that of its contents; NULL has the
hash zero.  The contents of most scalars are hashed by their text.  A temporal value is hashed by
its instant, and a row by the name of its type and the hashes of its attributes, so that the hash
depends on no zone and no calendar.
-/

namespace RowLiteral
open Text

/-- The hash of the contents of a scalar. -/
def Scalar.contentHash : Scalar → Int
  | .bool b => hashText (boolText b)
  | .int2 x | .int4 x | .float4 x | .float8 x => hashText x.toText
  | .int8 n => hashText (toString n)
  | .decimal d => hashText d.toText
  | .char s | .text s => hashText s
  | .bytes bs => hashBytes bs
  | .point p => hashText p.toText
  | .box b => hashText b.toText
  | .object label content => hashText (label ++ ":" ++ content.getD "")
  | .temporal _ m => hashText (Temporal.fieldText m)

/-- The hash of a row from the name of its type and the hashes of its attributes. -/
def rowHash (typeName : String) (attributeHashes : List Int) : Int :=
  mix (31 + hashText typeName) (hashFrom 1 attributeHashes)

mutual
/-- The hash of a value. -/
def Value.hash : Value → Int
  | .scalar s => mix (hashText s.kind.name) s.contentHash
  | .row h attributes =>
    mix (hashText Kind.composite.name) (rowHash h.type.name (attributeHashes attributes))

/-- The hashes of attributes. -/
def attributeHashes : List (Option Value) → List Int
  | [] => []
  | none :: as => 0 :: attributeHashes as
  | some a :: as => a.hash :: attributeHashes as
end

/-- The hash of an attribute. -/
def attributeHash : Attribute → Int
  | none => 0
  | some v => v.hash

/-- The hash of a row. -/
def Row.hash (r : Row) : Int := rowHash r.type.name (attributeHashes r.attributes)

end RowLiteral
