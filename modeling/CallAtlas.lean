import CallAtlas.Artifact
import CallAtlas.Command.Argument
import CallAtlas.Command.Invocation
import CallAtlas.Command.Run
import CallAtlas.Command.Usage
import CallAtlas.Command.Words
import CallAtlas.Console.Elapsed
import CallAtlas.Console.Line
import CallAtlas.Console.Style
import CallAtlas.Console.Table
import CallAtlas.Console.Width
import CallAtlas.Decimal.Shortest
import CallAtlas.Diagram.Dot
import CallAtlas.Diagram.Drawing
import CallAtlas.Diagram.Layout
import CallAtlas.Diagram.Mermaid
import CallAtlas.Document
import CallAtlas.Failure
import CallAtlas.Files.Fault
import CallAtlas.Files.FileTree
import CallAtlas.Graph.Cycle
import CallAtlas.Graph.Digraph
import CallAtlas.Graph.Statistics
import CallAtlas.Ignore.Directory
import CallAtlas.Ignore.Glob
import CallAtlas.Ignore.Rules
import CallAtlas.Json.Decode
import CallAtlas.Json.Reader
import CallAtlas.Json.Value
import CallAtlas.Language
import CallAtlas.Main
import CallAtlas.Ordered.Map
import CallAtlas.Ordered.Set
import CallAtlas.Outline
import CallAtlas.Path
import CallAtlas.Pipeline
import CallAtlas.Python.Grammar.Basic
import CallAtlas.Python.Grammar.Definition
import CallAtlas.Python.Grammar.Expression
import CallAtlas.Python.Grammar.Statement
import CallAtlas.Python.Kind
import CallAtlas.Python.Outline
import CallAtlas.Python.Read
import CallAtlas.Python.Scan.Basic
import CallAtlas.Python.Scan.Literal
import CallAtlas.Python.Tree
import CallAtlas.Scope.Context
import CallAtlas.Scope.Walk
import CallAtlas.Settings
import CallAtlas.Settings.File
import CallAtlas.Survey.Aggregation
import CallAtlas.Survey.Discovery
import CallAtlas.Survey.Progress
import CallAtlas.Survey.Report
import CallAtlas.Survey.Workers
import CallAtlas.Survey.Watched
import CallAtlas.Text.Blank
import CallAtlas.Text.CodeRange
import CallAtlas.Text.Hexadecimal
import CallAtlas.Text.Identifier
import CallAtlas.Text.Quoted
import CallAtlas.Toml.Number
import CallAtlas.Toml.Read
import CallAtlas.Toml.Scan
import CallAtlas.Toml.Text
import CallAtlas.Toml.Tree
import CallAtlas.Toml.Value
import CallAtlas.Proofs.Lists
import CallAtlas.Proofs.Ordered.Lookup
import CallAtlas.Proofs.Ordered.Extensionality
import CallAtlas.Proofs.Ordered.Grouping
import CallAtlas.Proofs.Graph.Search
import CallAtlas.Proofs.Graph.ClosedPath
import CallAtlas.Proofs.Graph.ElementaryCycles
import CallAtlas.Proofs.Graph.ClosingEdges
import CallAtlas.Proofs.Graph.Acyclic
import CallAtlas.Proofs.Graph.Edges
import CallAtlas.Proofs.Graph.Additions
import CallAtlas.Proofs.Diagram.Scanning
import CallAtlas.Proofs.Diagram.Reading
import CallAtlas.Proofs.Outline.Arena
import CallAtlas.Proofs.Outline.Preorder
import CallAtlas.Proofs.Python.Preorder
import CallAtlas.Proofs.Scope.Enclosing
import CallAtlas.Proofs.Scope.Schedule
import CallAtlas.Proofs.Scope.DepthLimit
import CallAtlas.Proofs.Scope.Recorded
import CallAtlas.Proofs.Scope.ImportReach
import CallAtlas.Proofs.Scope.WithinModule
import CallAtlas.Proofs.Graph.ChildlessNodes
import CallAtlas.Proofs.Graph.DepthFirst
import CallAtlas.Proofs.Graph.Rotations
import CallAtlas.Proofs.Scope.ClassBody
import CallAtlas.Proofs.Survey.ReportOrder
import CallAtlas.Proofs.Survey.Contributions
import CallAtlas.Proofs.Python.RelativeImports
import CallAtlas.Proofs.Survey.Isolation
import CallAtlas.Proofs.Survey.SharedScopes
import CallAtlas.Proofs.Survey.Interleaving
import CallAtlas.Proofs.Json.Reading
import CallAtlas.Proofs.Json.RoundTrip
import CallAtlas.Proofs.Files.Paths
import CallAtlas.Proofs.Files.Resolution
import CallAtlas.Proofs.Files.Operations
import CallAtlas.Proofs.Files.Writing
import CallAtlas.Proofs.Files.Growth
import CallAtlas.Proofs.Files.Trees
import CallAtlas.Proofs.Survey.Unaffected
import CallAtlas.Proofs.Survey.SourceFiles
import CallAtlas.Proofs.Pipeline.Documents
import CallAtlas.Proofs.Pipeline.Artifacts
import CallAtlas.Proofs.Pipeline.Staged
import CallAtlas.Proofs.Pipeline.AcceptedCycles
import CallAtlas.Proofs.Pipeline.Saving
import CallAtlas.Proofs.Pipeline.Rerun
import CallAtlas.Proofs.Pipeline.FatalFailures
import CallAtlas.Proofs.Diagram.Mermaid
import CallAtlas.Proofs.Diagram.Dot
import CallAtlas.Proofs.Diagram.CycleStyling
import CallAtlas.Proofs.Diagram.Faithful
import CallAtlas.Proofs.Diagram.Highlighting
import CallAtlas.Proofs.Diagram.Placement
import CallAtlas.Proofs.Diagram.ModuleClusters
import CallAtlas.Proofs.Command.Quiet
import CallAtlas.Proofs.Graph.Iterations
import CallAtlas.Proofs.Toml.Reading
import CallAtlas.Proofs.Toml.Texts
import CallAtlas.Proofs.Toml.Values
import CallAtlas.Proofs.Toml.Documents
import CallAtlas.Proofs.Settings.RoundTrip
import CallAtlas.Proofs.Survey.ProgressStream
import CallAtlas.Proofs.Pipeline.Messages
import CallAtlas.Proofs.Scope.Actions
import CallAtlas.Proofs.Scope.SingleVisits
import CallAtlas.Proofs.Python.FirstFault
