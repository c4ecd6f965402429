import TraceRepair.Alignment
import TraceRepair.CommandLine
import TraceRepair.CommandLine.Arguments
import TraceRepair.Divergence
import TraceRepair.Evaluation
import TraceRepair.Execution
import TraceRepair.Expr
import TraceRepair.Expr.Pretty
import TraceRepair.Failure
import TraceRepair.FlowGraph
import TraceRepair.Format
import TraceRepair.Json
import TraceRepair.Json.Decoder
import TraceRepair.Json.Fault
import TraceRepair.Json.Reader
import TraceRepair.Json.Scanner
import TraceRepair.Localisation
import TraceRepair.Main
import TraceRepair.Mapping.Bijection
import TraceRepair.Mapping.Structural
import TraceRepair.Mapping.Variables
import TraceRepair.ModelError
import TraceRepair.Notice
import TraceRepair.Number.Binary
import TraceRepair.Number.Decimal
import TraceRepair.Number.Reading
import TraceRepair.Number.Rounded
import TraceRepair.Number.Shortest
import TraceRepair.Operator
import TraceRepair.Operator.Arithmetic
import TraceRepair.Operator.Arrays
import TraceRepair.Operator.Comparison
import TraceRepair.Operator.MathFunction
import TraceRepair.Persisted.Expr
import TraceRepair.Persisted.Program
import TraceRepair.Persisted.Structural
import TraceRepair.Persisted.Variable
import TraceRepair.Pipeline
import TraceRepair.Program
import TraceRepair.Proofs.Budget
import TraceRepair.Proofs.Calls
import TraceRepair.Proofs.Coupling
import TraceRepair.Proofs.CursorView
import TraceRepair.Proofs.Explained
import TraceRepair.Proofs.Failures
import TraceRepair.Proofs.Lookup
import TraceRepair.Proofs.Mirror
import TraceRepair.Proofs.OperationForm
import TraceRepair.Proofs.Pairing
import TraceRepair.Proofs.Results
import TraceRepair.Proofs.Rules
import TraceRepair.Proofs.TransferMeaning
import TraceRepair.Proofs.WellNested
import TraceRepair.Repair
import TraceRepair.Repair.Distance
import TraceRepair.Repair.Transfer
import TraceRepair.Reserved
import TraceRepair.RunInput
import TraceRepair.RuntimeError
import TraceRepair.SortedMap
import TraceRepair.Text.Alphanumeric
import TraceRepair.Text.Blank
import TraceRepair.Text.CharSet
import TraceRepair.Text.Quoted
import TraceRepair.Text.Unprintable
import TraceRepair.Trace
import TraceRepair.Value
import TraceRepair.Value.Literal
import TraceRepair.Variable
import TraceRepair.Proofs.Edits
import TraceRepair.Proofs.Renaming
import TraceRepair.Proofs.Equivariance
import TraceRepair.Proofs.SameRuns
import TraceRepair.Proofs.RenamedPrograms
import TraceRepair.Proofs.SameCode
import TraceRepair.Proofs.JsonText
import TraceRepair.Proofs.JsonReads
import TraceRepair.Proofs.JsonShapes
import TraceRepair.Proofs.JsonValues
import TraceRepair.Proofs.StoredExpr
import TraceRepair.Proofs.StoredProgram
import TraceRepair.Proofs.Accounts
import TraceRepair.Proofs.Histories
import TraceRepair.Proofs.EscapingErrors
import TraceRepair.Proofs.NarrowFormats
import TraceRepair.Proofs.WellFormed
import TraceRepair.Proofs.OpenCalls
import TraceRepair.Proofs.Clock
import TraceRepair.Proofs.BlockMemory
import TraceRepair.Proofs.LastAssignments
import TraceRepair.Proofs.LocalisedRuns
import TraceRepair.Proofs.StreamFrame
import TraceRepair.Proofs.LongerRuns
import TraceRepair.Proofs.AlignedLocations
import TraceRepair.Proofs.SynthesisFailures
import TraceRepair.Proofs.EditOrder
import TraceRepair.Proofs.InputOrder
import TraceRepair.Proofs.ArraySizes
import TraceRepair.Proofs.Attribution
import TraceRepair.Proofs.StoredMappings
import TraceRepair.Proofs.RepairedOnce
import TraceRepair.Proofs.AlikeExprs
import TraceRepair.Proofs.CursorCalls
import TraceRepair.Proofs.DistanceLaws
import TraceRepair.Proofs.ArrayPaths
import TraceRepair.Proofs.TransferBack
import TraceRepair.Proofs.Substitution
import TraceRepair.Proofs.Directives
import TraceRepair.Proofs.Numerals
import TraceRepair.Proofs.GraphEdits
import TraceRepair.Proofs.Numbering
import TraceRepair.Proofs.TrailingPrimes
import TraceRepair.Proofs.IntegerLaws
import TraceRepair.Proofs.DeepEquality
import TraceRepair.Proofs.EqualValues
import TraceRepair.Proofs.SameShape
import TraceRepair.Proofs.PrettyForms
import TraceRepair.Proofs.VariablePlaces
import TraceRepair.Proofs.FallibleRewriting
import TraceRepair.Proofs.LongNumbers
