import FlowDiagram.Text.CodePoint
import FlowDiagram.Text.Basic
import FlowDiagram.Text.Range
import FlowDiagram.Text.Blank
import FlowDiagram.Text.Word
import FlowDiagram.Text.Digit
import FlowDiagram.Text.Numeral
import FlowDiagram.Text.Printable
import FlowDiagram.Text.Quoted
import FlowDiagram.Text.Upper
import FlowDiagram.Text.Line
import FlowDiagram.Text.Scanner
import FlowDiagram.Text.Substitution
import FlowDiagram.Decimal.Double
import FlowDiagram.Decimal.Shortest
import FlowDiagram.Json.Basic
import FlowDiagram.Json.Reader
import FlowDiagram.Json.Display
import FlowDiagram.Settings
import FlowDiagram.Label.Basic
import FlowDiagram.Label.Fragment
import FlowDiagram.Code.Fence
import FlowDiagram.Code.Cleaning
import FlowDiagram.Code.Markup
import FlowDiagram.Code.Violation
import FlowDiagram.Code.Issue
import FlowDiagram.Code.Definition
import FlowDiagram.Code.Rule
import FlowDiagram.Code.Verdict
import FlowDiagram.Graph.Basic
import FlowDiagram.Graph.Names
import FlowDiagram.Graph.Render
import FlowDiagram.Graph.Schema
import FlowDiagram.Graph.Payload
import FlowDiagram.Repair.Prompt
import FlowDiagram.Repair.Failure
import FlowDiagram.Repair.Chat
import FlowDiagram.Repair.Improvement
import FlowDiagram.Repair.Session
import FlowDiagram.Workflow
import FlowDiagram.Proofs.Text.Class
import FlowDiagram.Proofs.Text.Trim
import FlowDiagram.Proofs.Text.Lines
import FlowDiagram.Proofs.Text.Cut
import FlowDiagram.Proofs.Text.Scanner
import FlowDiagram.Proofs.Text.Substitution
import FlowDiagram.Proofs.Text.Words
import FlowDiagram.Proofs.Graph.Names
import FlowDiagram.Proofs.Label.Written
import FlowDiagram.Proofs.Label.Fallback
import FlowDiagram.Proofs.Label.Normal
import FlowDiagram.Proofs.Label.Segment
import FlowDiagram.Proofs.Label.Bullet
import FlowDiagram.Proofs.Label.Decoration
import FlowDiagram.Proofs.Label.Limit
import FlowDiagram.Proofs.Code.Fence
import FlowDiagram.Proofs.Graph.Growth
import FlowDiagram.Proofs.Graph.Diagram
import FlowDiagram.Proofs.Code.Definition
import FlowDiagram.Proofs.Code.Rule
import FlowDiagram.Proofs.Code.Duplicate
import FlowDiagram.Proofs.Code.Verdict
import FlowDiagram.Proofs.Code.FirstTag
import FlowDiagram.Proofs.Code.Level
import FlowDiagram.Proofs.Code.Header
import FlowDiagram.Proofs.Graph.Agreement
import FlowDiagram.Proofs.Graph.Topology
import FlowDiagram.Proofs.Graph.Fallback
import FlowDiagram.Proofs.Code.Cleaning
import FlowDiagram.Proofs.Code.Labelled
import FlowDiagram.Proofs.Code.Steps
import FlowDiagram.Proofs.Code.Content
import FlowDiagram.Proofs.Code.Locality
import FlowDiagram.Proofs.Code.Stability
import FlowDiagram.Proofs.Code.Arrow
import FlowDiagram.Proofs.Code.Iteration
import FlowDiagram.Proofs.Code.Report
import FlowDiagram.Proofs.Graph.FixedPoint
import FlowDiagram.Proofs.Graph.Fault
import FlowDiagram.Proofs.Graph.Schema
import FlowDiagram.Proofs.Graph.Payload
import FlowDiagram.Proofs.Graph.Answers
import FlowDiagram.Proofs.Code.Leftover
import FlowDiagram.Proofs.Code.Block
import FlowDiagram.Proofs.Code.Fencing
import FlowDiagram.Proofs.Code.Tag
import FlowDiagram.Proofs.Repair.Stages
import FlowDiagram.Proofs.Repair.Miss
import FlowDiagram.Proofs.Repair.Coherence
import FlowDiagram.Proofs.Repair.Reply
import FlowDiagram.Proofs.Repair.Fence
import FlowDiagram.Proofs.Repair.Content
import FlowDiagram.Proofs.Repair.Run
import FlowDiagram.Proofs.Repair.Prompt
