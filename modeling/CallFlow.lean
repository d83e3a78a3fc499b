import CallFlow.Assembly
import CallFlow.Attempt
import CallFlow.Branch.Expansion
import CallFlow.Branch.Rule
import CallFlow.CommandLine.Arguments
import CallFlow.CommandLine.Run
import CallFlow.Compiler
import CallFlow.Decimal.Binary
import CallFlow.Decimal.Shortest
import CallFlow.Endpoint
import CallFlow.Failure
import CallFlow.Flow.Basic
import CallFlow.Flow.Category
import CallFlow.Flow.Entry
import CallFlow.Flow.Payload
import CallFlow.Form.Enrichment
import CallFlow.Form.Field
import CallFlow.Json.Display
import CallFlow.Json.Number
import CallFlow.Json.Printer
import CallFlow.Json.Reader
import CallFlow.Json.Value
import CallFlow.Main
import CallFlow.Prompt
import CallFlow.Proofs.Accounting
import CallFlow.Proofs.Assembling
import CallFlow.Proofs.BlankConditions
import CallFlow.Proofs.BranchElimination
import CallFlow.Proofs.Calls
import CallFlow.Proofs.ChainPieces
import CallFlow.Proofs.Chains
import CallFlow.Proofs.Compiling
import CallFlow.Proofs.CompletionPhrases
import CallFlow.Proofs.Connections
import CallFlow.Proofs.Dangling
import CallFlow.Proofs.DeclarationOrder
import CallFlow.Proofs.Declared
import CallFlow.Proofs.DocumentNumbers
import CallFlow.Proofs.EdgeIds
import CallFlow.Proofs.Enriched
import CallFlow.Proofs.Entering
import CallFlow.Proofs.EntryChoice
import CallFlow.Proofs.Failing
import CallFlow.Proofs.FlowArgument
import CallFlow.Proofs.FormCopies
import CallFlow.Proofs.FreshEdgeIds
import CallFlow.Proofs.FrontEnds
import CallFlow.Proofs.HopConditions
import CallFlow.Proofs.Inertness
import CallFlow.Proofs.Integrity
import CallFlow.Proofs.ListedFields
import CallFlow.Proofs.Muted
import CallFlow.Proofs.NullMembers
import CallFlow.Proofs.Outcome
import CallFlow.Proofs.PayloadRoundTrip
import CallFlow.Proofs.Plan
import CallFlow.Proofs.PrintedLines
import CallFlow.Proofs.Questions
import CallFlow.Proofs.Quotations
import CallFlow.Proofs.Reachability
import CallFlow.Proofs.ReadingBack
import CallFlow.Proofs.Readings
import CallFlow.Proofs.Registration
import CallFlow.Proofs.Repeated
import CallFlow.Proofs.Reports
import CallFlow.Proofs.Routes
import CallFlow.Proofs.RuleTexts
import CallFlow.Proofs.SameRoads
import CallFlow.Proofs.Scripts
import CallFlow.Proofs.Shapes
import CallFlow.Proofs.StartNode
import CallFlow.Proofs.StepFacts
import CallFlow.Proofs.StepNodes
import CallFlow.Proofs.StoredForms
import CallFlow.Proofs.Strictness
import CallFlow.Proofs.Tables
import CallFlow.Proofs.Tolerance
import CallFlow.Proofs.ToolIds
import CallFlow.Proofs.TracedRuns
import CallFlow.Proofs.Traces
import CallFlow.Proofs.Validity
import CallFlow.Proofs.Warnings
import CallFlow.Proofs.WholeNumbers
import CallFlow.Proofs.WithoutDangling
import CallFlow.Proofs.WrittenTraces
import CallFlow.Schema.Record
import CallFlow.Schema.Scalar
import CallFlow.Schema.Violation
import CallFlow.Service
import CallFlow.Settings
import CallFlow.Step.Compile
import CallFlow.Step.Compiled
import CallFlow.Table
import CallFlow.Text.Blank
import CallFlow.Text.Case
import CallFlow.Text.Digit
import CallFlow.Text.Integer
import CallFlow.Text.Lines
import CallFlow.Text.Printable
import CallFlow.Text.Quoted
import CallFlow.Text.Slice
import CallFlow.Trace
import CallFlow.Transition
import CallFlow.Workflow.Basic
import CallFlow.Workflow.Payload
import CallFlow.Workflow.Report
