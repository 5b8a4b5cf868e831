import Restyle.Command.Arguments
import Restyle.Command.Fix
import Restyle.Command.Run
import Restyle.Files.Path
import Restyle.Files.Store
import Restyle.Finality.AddFinal
import Restyle.Finality.Writes
import Restyle.Interchange.Nodes
import Restyle.Interchange.Types
import Restyle.Json.Decode
import Restyle.Json.Printer
import Restyle.Json.Reader
import Restyle.Json.Record
import Restyle.Json.Token
import Restyle.Json.Value
import Restyle.Main
import Restyle.Naming.Fresh
import Restyle.Naming.Rename
import Restyle.Naming.Scope
import Restyle.Naming.Shadow
import Restyle.Pattern.Basic
import Restyle.Pattern.Layout
import Restyle.Pattern.Match
import Restyle.Pattern.NamedClass
import Restyle.Pattern.Parser
import Restyle.Pattern.Shape
import Restyle.Pattern.Size
import Restyle.Report.Fault
import Restyle.Report.File
import Restyle.Report.Response
import Restyle.Report.Sha256
import Restyle.Rule.Basic
import Restyle.Rule.Builtin
import Restyle.Rule.Options
import Restyle.Rule.Pipeline
import Restyle.Rule.Registry
import Restyle.Spacing.ForHeader
import Restyle.Spacing.TypeParameterList
import Restyle.Text.ByteRanges
import Restyle.Text.CharSet
import Restyle.Text.Quote
import Restyle.Text.Unicode.Age
import Restyle.Text.Unicode.Case
import Restyle.Text.Unicode.Category
import Restyle.Text.Unicode.Edition
import Restyle.Text.Unicode.Property
import Restyle.Text.Unicode.Script
import Restyle.Text.Unicode.Segmentation
import Restyle.Text.Unicode.Table
import Restyle.Tree.Blueprint
import Restyle.Tree.Builder
import Restyle.Tree.Cursor
import Restyle.Tree.Edit
import Restyle.Tree.Formatting
import Restyle.Tree.Kind
import Restyle.Tree.Node
import Restyle.Tree.Print
import Restyle.Tree.Repeats
import Restyle.Tree.Types
import Restyle.Tree.Walk
import Restyle.Proofs.Tree.Children
import Restyle.Proofs.Tree.Cursors
import Restyle.Proofs.Tree.Editing
import Restyle.Proofs.Tree.Sketch
import Restyle.Proofs.Rule.Passes
import Restyle.Proofs.Rule.Run
import Restyle.Proofs.Naming.Scopes
import Restyle.Proofs.Naming.Renamed
import Restyle.Proofs.Naming.Resolution
import Restyle.Proofs.Naming.Collision
import Restyle.Proofs.Naming.Shadows
import Restyle.Proofs.Naming.Scheduling
import Restyle.Proofs.Spacing.ForHeader
import Restyle.Proofs.Spacing.TypeParameterList
import Restyle.Proofs.Finality.AddFinal
import Restyle.Proofs.Naming.Signatures
import Restyle.Proofs.Naming.HiddenField
import Restyle.Proofs.Rule.WellFormed
import Restyle.Proofs.Rule.Ids
import Restyle.Proofs.Tree.Runs
import Restyle.Proofs.Tree.MapChildren
import Restyle.Proofs.Tree.Building
import Restyle.Proofs.Rule.Idempotence
import Restyle.Proofs.Json.Reading
import Restyle.Proofs.Json.Records
import Restyle.Proofs.Interchange.Types
import Restyle.Proofs.Interchange.Nodes
import Restyle.Proofs.Finality.Marked
import Restyle.Proofs.Rule.Log
import Restyle.Proofs.Rule.Shape
import Restyle.Proofs.Spacing.Padded
import Restyle.Proofs.Spacing.Trimmed
import Restyle.Proofs.Spacing.Erased
import Restyle.Proofs.Spacing.Headers
import Restyle.Proofs.Naming.Plan
import Restyle.Proofs.Rule.Changes
import Restyle.Proofs.Rule.Order
import Restyle.Proofs.Rule.Worklist
import Restyle.Proofs.Naming.Footprint
import Restyle.Proofs.Command.Outputs
import Restyle.Proofs.Naming.Capture
import Restyle.Proofs.Tree.Postorder
import Restyle.Proofs.Tree.Paths
import Restyle.Proofs.Tree.Context
import Restyle.Proofs.Naming.Successors
import Restyle.Proofs.Finality.Decision
import Restyle.Proofs.Finality.Insertion
import Restyle.Proofs.Finality.Source
import Restyle.Proofs.Tree.Members
import Restyle.Proofs.Tree.Walks
import Restyle.Proofs.Files.OutputPath
import Restyle.Proofs.Json.Pretty
import Restyle.Proofs.Report.Responses
import Restyle.Proofs.Pattern.Progress
import Restyle.Proofs.Pattern.SideBySide
import Restyle.Proofs.Pattern.EnclosedClass
import Restyle.Proofs.Pattern.Enclosed
import Restyle.Proofs.Pattern.Matching
import Restyle.Proofs.Pattern.WholeName
