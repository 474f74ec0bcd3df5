import RowLiteral.Double.Text

/-!
# Geometry — points and boxes

A point is two coordinates and a box two opposite corners.  Their text has parentheses and commas:
`(1,2)` and `(1,2),(3,4)`.  It is read by splitting at the commas that stand outside all brackets;
the parentheses of a point may be left out.
-/

namespace RowLiteral
open Text

/-- A point of the plane. -/
structure Point where
  x : Double
  y : Double
deriving DecidableEq, Repr

/-- A rectangle, by two opposite corners. -/
structure Box where
  first : Point
  second : Point
deriving DecidableEq, Repr

namespace Geometry

/-- How deep the text is in brackets after a character; a closing bracket may go below zero. -/
def depthAfter (depth : Int) (c : Char) : Int :=
  if c = '(' || c = '[' || c = '<' then depth + 1
  else if c = ')' || c = ']' || c = '>' then depth - 1
  else depth

/-- The first part of a text, up to a comma at depth zero, and the parts after it. -/
def splitFrom (depth : Int) : List Char → List Char × List (List Char)
  | [] => ([], [])
  | c :: cs =>
    if c = ',' && depth = 0 then
      let (part, parts) := splitFrom 0 cs
      ([], part :: parts)
    else
      let (part, parts) := splitFrom (depthAfter depth c) cs
      (c :: part, parts)

/-- The parts of a text between its commas at depth zero. -/
def splitTop (cs : List Char) : List (List Char) :=
  let (part, parts) := splitFrom 0 cs
  part :: parts

/-- A text without the parentheses around it, if it has both. -/
def unwrap (cs : List Char) : List Char :=
  if cs.head? = some '(' && cs.getLast? = some ')' then cs.tail.dropLast else cs

/-- The double that a list of characters spells, with blanks around it. -/
def coordinate? (cs : List Char) : Option Double := Double.ofChars? (trimChars cs)

/-- The point that a list of characters spells, with blanks around it. -/
def pointOfChars? (cs : List Char) : Option Point :=
  match splitTop (unwrap (trimChars cs)) with
  | [x, y] => do return ⟨← coordinate? x, ← coordinate? y⟩
  | _ => none

end Geometry

open RowLiteral.Geometry

/-- The point that a text spells. -/
def Point.ofText? (s : String) : Option Point := pointOfChars? s.toList

/-- The box that a text spells. -/
def Box.ofText? (s : String) : Option Box :=
  match splitTop (trimChars s.toList) with
  | [p, q] => do return ⟨← pointOfChars? p, ← pointOfChars? q⟩
  | _ => none

/-- The text of a point. -/
def Point.toText (p : Point) : String := s!"({p.x.toText},{p.y.toText})"

/-- The text of a box. -/
def Box.toText (b : Box) : String := s!"{b.first.toText},{b.second.toText}"

end RowLiteral
