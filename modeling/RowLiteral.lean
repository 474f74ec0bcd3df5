import RowLiteral.Main
import RowLiteral.Value.Hash
import RowLiteral.Proofs.Literal.Pieces
import RowLiteral.Proofs.Literal.Written
import RowLiteral.Proofs.Literal.Doubled
import RowLiteral.Proofs.Row.Materialize
import RowLiteral.Proofs.Row.Rendering
import RowLiteral.Proofs.Row.Texts
import RowLiteral.Proofs.Codec.Leaves
import RowLiteral.Proofs.Codec.Parse
import RowLiteral.Proofs.Codec.Reparse
import RowLiteral.Proofs.Codec.Recursion
import RowLiteral.Proofs.Literal.Grammar
import RowLiteral.Proofs.Value.Hash
import RowLiteral.Proofs.Codec.Normal
import RowLiteral.Proofs.Row.Settled
import RowLiteral.Proofs.Registry.Define
import RowLiteral.Proofs.Registry.Runs
import RowLiteral.Proofs.Types.Definitions
import RowLiteral.Proofs.Types.Keys
import RowLiteral.Proofs.Codec.Opening
import RowLiteral.Proofs.Row.Request
import RowLiteral.Proofs.Traversal
import RowLiteral.Proofs.Value.Coercion
import RowLiteral.Proofs.Value.Conversion
import RowLiteral.Proofs.Calendar.Civil
import RowLiteral.Proofs.Calendar.Instants
import RowLiteral.Proofs.Number.Digits
import RowLiteral.Proofs.Calendar.Spelling
import RowLiteral.Proofs.Calendar.Reading
import RowLiteral.Proofs.Calendar.Misread
import RowLiteral.Proofs.Calendar.Zones
import RowLiteral.Proofs.Row.Machines
import RowLiteral.Proofs.Number.Value
import RowLiteral.Proofs.Number.Reading
import RowLiteral.Proofs.Double.Shortest
import RowLiteral.Proofs.Double.Whole
import RowLiteral.Proofs.Double.Text
import RowLiteral.Proofs.Row.Numbers
import RowLiteral.Proofs.Literal.Truncation
import RowLiteral.Proofs.Command.Status
import RowLiteral.Proofs.Types.Order
import RowLiteral.Proofs.Codec.Order
import RowLiteral.Proofs.Calendar.Spelled
import RowLiteral.Proofs.Calendar.Machines
import RowLiteral.Proofs.Literal.Progress
import RowLiteral.Proofs.Value.Equivalence
import RowLiteral.Proofs.Value.Shared
import RowLiteral.Proofs.Row.Local
import RowLiteral.Proofs.Row.Open
import RowLiteral.Proofs.Number.Grammar
import RowLiteral.Proofs.Calendar.Written
import RowLiteral.Proofs.Calendar.Colonless
import RowLiteral.Proofs.Row.Times
import RowLiteral.Proofs.Calendar.Answers
import RowLiteral.Proofs.Double.Span
import RowLiteral.Proofs.Double.Rounding
import RowLiteral.Proofs.Value.Truth
import RowLiteral.Proofs.Value.Integers
import RowLiteral.Proofs.Geometry
import RowLiteral.Proofs.Codec.Kept
import RowLiteral.Proofs.Encoding.Names
import RowLiteral.Proofs.Codec.Reach
import RowLiteral.Proofs.Registry.Catalog
import RowLiteral.Proofs.Value.Polynomial
import RowLiteral.Proofs.Literal.Segment
