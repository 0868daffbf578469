import TypeBridge.Catalogue
import TypeBridge.Json.Decode
import TypeBridge.Main
import TypeBridge.Nesting.Position
import TypeBridge.Proofs.Nesting.Commas
import TypeBridge.Proofs.Text.Strip
import TypeBridge.Proofs.Wrapper.Arguments
import TypeBridge.Proofs.Wrapper.Recognition
import TypeBridge.Proofs.Wrapper.Compositional
import TypeBridge.Proofs.Text.Ident
import TypeBridge.Proofs.TypeExpr.Name
import TypeBridge.Proofs.TypeExpr.Peel
import TypeBridge.Proofs.TypeExpr.Read
import TypeBridge.Proofs.TypeExpr.Layout
import TypeBridge.Proofs.TypeExpr.Spelling
import TypeBridge.Proofs.TypeExpr.SpelledList
import TypeBridge.Proofs.TypeExpr.SpelledReading
import TypeBridge.Proofs.TypeExpr.SpelledPrint
import TypeBridge.Proofs.Nesting.Bracketed
import TypeBridge.Proofs.TypeExpr.LastSegment
import TypeBridge.Proofs.Wrapper.Rendered
import TypeBridge.Proofs.Wrapper.Structural
import TypeBridge.Proofs.Text.Collapse
import TypeBridge.Proofs.TypeExpr.Squeezed
import TypeBridge.Proofs.Nesting.Boundaries
import TypeBridge.Proofs.TypeExpr.Mirror
import TypeBridge.Proofs.Nesting.Padded
import TypeBridge.Proofs.TypeExpr.Reread
import TypeBridge.Proofs.TypeExpr.Faithful
import TypeBridge.Proofs.Nesting.Enclosed
import TypeBridge.Proofs.TypeExpr.Unread
import TypeBridge.Proofs.TypeExpr.Nested
import TypeBridge.Proofs.TypeExpr.Settled
import TypeBridge.Proofs.TypeExpr.Kept
import TypeBridge.Proofs.Wrapper.Captured
import TypeBridge.Proofs.Wrapper.Printed
import TypeBridge.Proofs.Text.Dense
import TypeBridge.Proofs.TypeExpr.Dense
import TypeBridge.Proofs.Json.RoundTrip
import TypeBridge.Proofs.CommandLine.Outcome
import TypeBridge.Proofs.Wrapper.Canonical
import TypeBridge.Proofs.Convert.Nested
import TypeBridge.Proofs.Convert.ReturnFlag
import TypeBridge.Proofs.Convert.Consulted
import TypeBridge.Proofs.Convert.Erased
import TypeBridge.Proofs.Wrapper.Closing
import TypeBridge.Proofs.TypeExpr.Rejected
import TypeBridge.Proofs.Convert.Reported
import TypeBridge.Proofs.TypeExpr.WellFormed
import TypeBridge.Proofs.Convert.StrSlice
import TypeBridge.Proofs.CommandLine.Report
import TypeBridge.Proofs.TypeExpr.Square
import TypeBridge.Proofs.Convert.Calls
import TypeBridge.Proofs.Config.Ordered
import TypeBridge.Proofs.Nesting.Closing
import TypeBridge.Proofs.Nesting.Depth
import TypeBridge.Proofs.Nesting.Normal
import TypeBridge.Proofs.TypeExpr.Calls
