import DocSchema.Main
import DocSchema.Report.Table
import DocSchema.Proofs.Position
import DocSchema.Proofs.Number.Range
import DocSchema.Proofs.Number.Shortest
import DocSchema.Proofs.Number.Multiple
import DocSchema.Proofs.Json.Same
import DocSchema.Proofs.Json.Canonical
import DocSchema.Proofs.Json.NumberText
import DocSchema.Proofs.Json.StringText
import DocSchema.Proofs.Json.ReadBack
import DocSchema.Proofs.Json.Regular
import DocSchema.Proofs.Constraint.Operand
import DocSchema.Proofs.Constraint.Verdict
import DocSchema.Proofs.Constraint.Ending
import DocSchema.Proofs.Constraint.Invariance
import DocSchema.Proofs.Constraint.Unique
import DocSchema.Proofs.Schema.Form
import DocSchema.Proofs.Schema.RoundTrip
import DocSchema.Proofs.Schema.Breaks
import DocSchema.Proofs.Schema.Longhand
import DocSchema.Proofs.Walk.Outcome
import DocSchema.Proofs.Walk.Step
import DocSchema.Proofs.Walk.Calls
import DocSchema.Proofs.Walk.Fuel
import DocSchema.Proofs.Walk.Equivariance
import DocSchema.Proofs.Walk.Conformance
import DocSchema.Proofs.Walk.Everywhere
import DocSchema.Proofs.Walk.Location
import DocSchema.Proofs.Walk.Answers
import DocSchema.Proofs.Walk.Locality
import DocSchema.Proofs.Walk.Termination
import DocSchema.Proofs.Walk.Preorder
import DocSchema.Proofs.Walk.Invariance
import DocSchema.Proofs.Walk.Context
import DocSchema.Proofs.Walk.Longhand
import DocSchema.Proofs.Walk.Widening
import DocSchema.Proofs.Walk.Missing
import DocSchema.Proofs.CommandLine.Exit
import DocSchema.Proofs.Constraint.Chain
import DocSchema.Proofs.Literal
import DocSchema.Proofs.Constraint.Affix
import DocSchema.Proofs.Expression.Rule
import DocSchema.Proofs.Expression.Parameter
import DocSchema.Proofs.Expression.Guard
import DocSchema.Proofs.Pattern.Token
import DocSchema.Proofs.Pattern.Region
import DocSchema.Proofs.Pattern.Sharpened
import DocSchema.Proofs.Pattern.Passage
import DocSchema.Proofs.Pattern.Opening
import DocSchema.Proofs.Pattern.Descent
import DocSchema.Proofs.Pattern.Anchored
import DocSchema.Proofs.Pattern.Verbatim
import DocSchema.Proofs.Expression.Matching
import DocSchema.Proofs.Number.Exact
import DocSchema.Proofs.Expression.Order
import DocSchema.Proofs.Walk.Equation
import DocSchema.Proofs.Walk.OpenRecord
import DocSchema.Proofs.Walk.Flat
import DocSchema.Proofs.Walk.Negation
import DocSchema.Proofs.Literal.RoundTrip
import DocSchema.Proofs.Constraint.Between
import DocSchema.Proofs.Report.Card
import DocSchema.Proofs.Calendar
import DocSchema.Proofs.Pattern.Dollar
import DocSchema.Proofs.Walk.Path
