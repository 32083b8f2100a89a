import TreeSmith.Grammar.Display
import TreeSmith.Main
import TreeSmith.Proofs.Lexical.Agreement
import TreeSmith.Proofs.Lexical.Order
import TreeSmith.Proofs.Written.Basic
import TreeSmith.Proofs.Written.Walk
import TreeSmith.Proofs.Written.Reading
import TreeSmith.Proofs.Written.Text
import TreeSmith.Proofs.Image
import TreeSmith.Proofs.Written.Places
import TreeSmith.Proofs.Nesting
import TreeSmith.Proofs.Leaves
import TreeSmith.Proofs.Display.Glyphs
import TreeSmith.Proofs.Display.Reading
import TreeSmith.Proofs.Display.RoundTrip
import TreeSmith.Proofs.Preorder
import TreeSmith.Proofs.Comments.Blocks
import TreeSmith.Proofs.Comments.Owners
import TreeSmith.Proofs.Generation.Outcome
import TreeSmith.Proofs.Parentheses
import TreeSmith.Proofs.Generation.Memory
import TreeSmith.Proofs.Generation.Units
import TreeSmith.Proofs.Generation.Operations
import TreeSmith.Proofs.Generation.Locality
import TreeSmith.Proofs.Generation.Decoration
import TreeSmith.Proofs.Generation.FromText
import TreeSmith.Proofs.Code.Comments
import TreeSmith.Proofs.Code.Deletion
import TreeSmith.Proofs.Code.Members
import TreeSmith.Proofs.Code.Implementation
import TreeSmith.Proofs.Code.Classes
import TreeSmith.Proofs.Code.Closure
import TreeSmith.Proofs.Disk.Growth
import TreeSmith.Proofs.Output.Convergence
import TreeSmith.Proofs.Disk.Tree
import TreeSmith.Proofs.Disk.Way
import TreeSmith.Proofs.Output.Frame
import TreeSmith.Proofs.Output.DryRun
import TreeSmith.Proofs.Generation.UnitNames
import TreeSmith.Proofs.Text.Position
import TreeSmith.Proofs.Lexical.Boundaries
import TreeSmith.Proofs.Program.Status
import TreeSmith.Proofs.Code.Constructors
import TreeSmith.Proofs.Code.Visits
import TreeSmith.Proofs.Generation.CapturedNames
import TreeSmith.Proofs.Text.Closing
import TreeSmith.Proofs.Code.DocBlocks
import TreeSmith.Proofs.Code.Documentation
import TreeSmith.Proofs.Generation.DocumentedOutput
import TreeSmith.Proofs.Lexical.Progress
import TreeSmith.Proofs.Lexical.Concatenation
import TreeSmith.Proofs.Generation.ParentPointer
import TreeSmith.Proofs.Display.Literals
import TreeSmith.Proofs.Java.StringLiteral
import TreeSmith.Proofs.CommandLine.Settings
import TreeSmith.Proofs.Text.Locating
import TreeSmith.Proofs.Indentation
