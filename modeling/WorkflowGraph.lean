import WorkflowGraph.File.Tree
import WorkflowGraph.Log
import WorkflowGraph.Main
import WorkflowGraph.Proofs.Connections.Canonical
import WorkflowGraph.Proofs.Connections.RoundTrip
import WorkflowGraph.Proofs.Connections.Reading
import WorkflowGraph.Proofs.Connections.NormalForm
import WorkflowGraph.Proofs.Connections.Loading
import WorkflowGraph.Proofs.Connections.Ports
import WorkflowGraph.Proofs.Connections.Rename
import WorkflowGraph.Proofs.Graph
import WorkflowGraph.Proofs.Validation.Issues
import WorkflowGraph.Proofs.Schema
import WorkflowGraph.Proofs.Validation.Soundness
import WorkflowGraph.Proofs.NameRegistry
import WorkflowGraph.Proofs.Rows
import WorkflowGraph.Proofs.Repair.Moves
import WorkflowGraph.Proofs.Repair.FirstStep
import WorkflowGraph.Proofs.Connections.Extension
import WorkflowGraph.Proofs.Connections.Heads
import WorkflowGraph.Proofs.Repair.Conservation
import WorkflowGraph.Proofs.Repair.Completion
import WorkflowGraph.Proofs.Repair.Growth
import WorkflowGraph.Proofs.Validation.Concerns
import WorkflowGraph.Proofs.Repair.Improvement
import WorkflowGraph.Proofs.Node
import WorkflowGraph.Proofs.Validation.Invariance
import WorkflowGraph.Proofs.Connections.Shape
import WorkflowGraph.Proofs.PostProcessor
import WorkflowGraph.Proofs.Document
import WorkflowGraph.Proofs.Repair.Built
import WorkflowGraph.Proofs.Repair.Repetition
import WorkflowGraph.Proofs.Draft.Node
import WorkflowGraph.Proofs.Draft.Build
import WorkflowGraph.Proofs.Draft.NodeSet
import WorkflowGraph.Proofs.Text.Case
import WorkflowGraph.Proofs.Parameters.Canonical
import WorkflowGraph.Proofs.Parameters.Shape
import WorkflowGraph.Proofs.Draft.Settled
import WorkflowGraph.Proofs.Draft.References
import WorkflowGraph.Proofs.Draft.Preservation
import WorkflowGraph.Proofs.Value.Reading
import WorkflowGraph.Proofs.Synthesis.Steps
import WorkflowGraph.Proofs.Synthesis.Motifs
import WorkflowGraph.Proofs.Synthesis.Layout
import WorkflowGraph.Proofs.Synthesis.Build
import WorkflowGraph.Proofs.Synthesis.Order
import WorkflowGraph.Proofs.Synthesis.Requirements
import WorkflowGraph.Proofs.Synthesis.Switches
import WorkflowGraph.Proofs.Synthesis.Clean
import WorkflowGraph.Proofs.Delivery
import WorkflowGraph.Proofs.Number.Double
import WorkflowGraph.Proofs.Repair.Direction
import WorkflowGraph.Proofs.Repair.Stranded
import WorkflowGraph.Proofs.Repair.Turns
import WorkflowGraph.Proofs.Repair.EmptyPorts
import WorkflowGraph.Proofs.Connections.Descriptors
import WorkflowGraph.Proofs.Validation.Totality
import WorkflowGraph.Proofs.Repair.Totality
import WorkflowGraph.Proofs.Connections.Lines
import WorkflowGraph.Proofs.Repair.Score
import WorkflowGraph.Proofs.Validation.Counts
import WorkflowGraph.Proofs.Connections.Changes
import WorkflowGraph.Proofs.Draft.Meaning
import WorkflowGraph.Proofs.Draft.Identity
import WorkflowGraph.Proofs.Draft.Repeats
import WorkflowGraph.Proofs.Repair.Steps
import WorkflowGraph.Proofs.Repair.Ends
import WorkflowGraph.Proofs.Synthesis.Closed
import WorkflowGraph.Proofs.Repair.LaidOut
import WorkflowGraph.Proofs.Text.Search
import WorkflowGraph.Proofs.Plan.Line
import WorkflowGraph.Proofs.Plan.Sections
import WorkflowGraph.Proofs.Synthesis.Routes
import WorkflowGraph.Proofs.Connections.Written
import WorkflowGraph.Proofs.Validation.Targets
import WorkflowGraph.Proofs.Input
import WorkflowGraph.Proofs.Draft.Totality
import WorkflowGraph.Proofs.Delivery.Totality
import WorkflowGraph.Proofs.Plan.Steps
import WorkflowGraph.Proofs.Prompt
import WorkflowGraph.Proofs.Synthesis.Sinks
import WorkflowGraph.Proofs.Synthesis.Positions
import WorkflowGraph.Proofs.Prompt.Paragraphs
import WorkflowGraph.Proofs.Validation.Isolation
import WorkflowGraph.Proofs.Config
import WorkflowGraph.Proofs.Connections.PortOrder
import WorkflowGraph.Proofs.Delivery.Ambiguities
import WorkflowGraph.Proofs.Branch
import WorkflowGraph.Proofs.Schedule
