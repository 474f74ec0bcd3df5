import RowLiteral.Value.Basic

/-!
# Value — equality

Two values are equal when they have the same kind and the same contents.  Doubles are compared as
doubles, so that a NaN equals itself and the two zeros differ; decimals are compared as numbers, so
that a NaN equals nothing.  Rows are equal when their types have the same name and their attributes
are equal one by one; their encodings, calendars and columns do not count.  A row with an identity
also equals itself.  Two rows are taken as one and the same if they have one identity and all that
can be compared of them is the same: a decoder of bytes is known by its name only.
-/

namespace RowLiteral

/-- Equality of scalars. -/
def Scalar.equals : Scalar → Scalar → Bool
  | .decimal d, .decimal e => d.equals e
  | s, t => s = t

/-! ### One and the same -/

/-- Whether two headers are the same, as far as they can be compared. -/
def RowHeader.isSame (h h' : RowHeader) : Bool :=
  h.type = h'.type && h.encoding.name = h'.encoding.name && h.calendar = h'.calendar &&
    h.identity = h'.identity

mutual
/-- Whether two values are the same, as far as they can be compared. -/
def Value.isSame : Value → Value → Bool
  | .scalar s, .scalar t => s = t
  | .row h as, .row h' bs => h.isSame h' && areSame as bs
  | .scalar _, .row _ _ | .row _ _, .scalar _ => false

/-- Whether two lists of attributes are the same, as far as they can be compared. -/
def areSame : List (Option Value) → List (Option Value) → Bool
  | [], [] => true
  | none :: as, none :: bs => areSame as bs
  | some a :: as, some b :: bs => a.isSame b && areSame as bs
  | _, _ => false
end

/-- Whether two rows are one and the same kept row. -/
def RowHeader.isSameKept (h h' : RowHeader) (as bs : List (Option Value)) : Bool :=
  h.identity.isSome && (Value.row h as).isSame (.row h' bs)

/-! ### Equality -/

mutual
/-- Equality of values. -/
def Value.equals : Value → Value → Bool
  | .scalar s, .scalar t => s.equals t
  | .row h as, .row h' bs =>
    h.isSameKept h' as bs || (h.type.name = h'.type.name && attributesEqual as bs)
  | .scalar _, .row _ _ | .row _ _, .scalar _ => false

/-- Equality of attributes, one by one. -/
def attributesEqual : List (Option Value) → List (Option Value) → Bool
  | [], [] => true
  | none :: as, none :: bs => attributesEqual as bs
  | some a :: as, some b :: bs => a.equals b && attributesEqual as bs
  | _, _ => false
end

/-- Equality of attributes: NULL equals NULL. -/
def attributeEquals : Attribute → Attribute → Bool
  | none, none => true
  | some a, some b => a.equals b
  | _, _ => false

/-- Equality of rows. -/
def Row.equals (r s : Row) : Bool := (Value.ofRow r).equals (Value.ofRow s)

end RowLiteral
