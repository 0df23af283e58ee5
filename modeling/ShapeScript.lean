import ShapeScript.Main
import ShapeScript.Editor
import ShapeScript.Json.Reader
import ShapeScript.Node.Difference
import ShapeScript.Problem.Report
import ShapeScript.Proofs.Expr.Flattening
import ShapeScript.Proofs.Expr.Names
import ShapeScript.Proofs.Reading
import ShapeScript.Proofs.Fallible
import ShapeScript.Proofs.Problem
import ShapeScript.Proofs.Problem.Rendering
import ShapeScript.Proofs.Registry
import ShapeScript.Proofs.Expr.Precedence
import ShapeScript.Proofs.Expr.Grammar
import ShapeScript.Proofs.Program.Grammar
import ShapeScript.Proofs.Program.Recognition
import ShapeScript.Proofs.Program.Rereading
import ShapeScript.Proofs.Session.Reference
import ShapeScript.Proofs.Session.Outcomes
import ShapeScript.Proofs.Expr.BigStep
import ShapeScript.Proofs.Token.LongestMatch
import ShapeScript.Proofs.Token.Scanning
import ShapeScript.Proofs.Token.Layout
import ShapeScript.Proofs.Token.Writing
import ShapeScript.Proofs.Token.LineEnds
import ShapeScript.Proofs.Alike
import ShapeScript.Proofs.Alike.Parsing
import ShapeScript.Proofs.Alike.Evaluation
import ShapeScript.Proofs.Library.Builtin
import ShapeScript.Proofs.Library.Elements
import ShapeScript.Proofs.Document
import ShapeScript.Proofs.Document.CallGraph
import ShapeScript.Proofs.Document.Layout
import ShapeScript.Proofs.Document.Literals
import ShapeScript.Proofs.Document.Positions
import ShapeScript.Proofs.Document.Totality
import ShapeScript.Proofs.Document.WellFormed
import ShapeScript.Proofs.Blame
import ShapeScript.Proofs.Blame.Expressions
import ShapeScript.Proofs.Blame.Programs
import ShapeScript.Proofs.Session.Binding
import ShapeScript.Proofs.Session.Scoping
import ShapeScript.Proofs.Session.Limit
import ShapeScript.Proofs.Session.Moments
import ShapeScript.Proofs.Document.Drawing
import ShapeScript.Proofs.Document.Groupings
import ShapeScript.Proofs.Session.Simulation
import ShapeScript.Proofs.Document.ArgumentOrder
import ShapeScript.Proofs.Document.Reachable
import ShapeScript.Proofs.Session.Declarations
import ShapeScript.Proofs.Session.Arguments
import ShapeScript.Proofs.Registry.Runs
import ShapeScript.Proofs.Token.Places
import ShapeScript.Proofs.Token.Spans
import ShapeScript.Proofs.Node.Derivation
import ShapeScript.Proofs.Program.Spans
import ShapeScript.Proofs.Program.Texts
import ShapeScript.Proofs.Disk
import ShapeScript.Proofs.Pipeline
import ShapeScript.Proofs.Document.LineEnds
import ShapeScript.Proofs.CommandLine
import ShapeScript.Proofs.Number.Rounding
import ShapeScript.Proofs.Number.Shortest
import ShapeScript.Proofs.Number.Binary64
import ShapeScript.Proofs.Number.Negation
import ShapeScript.Proofs.Number.Canonical
import ShapeScript.Proofs.Json.Strings
import ShapeScript.Proofs.Json.Numbers
import ShapeScript.Proofs.Json.Scalars
import ShapeScript.Proofs.Number.Display
import ShapeScript.Proofs.Json.Encoding
import ShapeScript.Proofs.Json.RoundTrip
import ShapeScript.Proofs.Artifact
import ShapeScript.Proofs.Program.Neighbours
import ShapeScript.Proofs.Editor.Lines
import ShapeScript.Proofs.Editor.Word
import ShapeScript.Proofs.Editor.KnownShapes
import ShapeScript.Proofs.Editor.Runs
import ShapeScript.Proofs.Editor.Diagnostics
import ShapeScript.Proofs.Program.Names
import ShapeScript.Proofs.Editor.Snippet
import ShapeScript.Proofs.Editor.Completion
import ShapeScript.Proofs.Editor.Signature
import ShapeScript.Proofs.Expr.Spine
import ShapeScript.Proofs.Library.Loading
import ShapeScript.Proofs.Number.Equality
import ShapeScript.Proofs.Node.Matching
import ShapeScript.Proofs.Node.Places
import ShapeScript.Proofs.Node.Comparison
import ShapeScript.Proofs.Path
import ShapeScript.Proofs.Disk.Frame
import ShapeScript.Proofs.CommandLine.Output
import ShapeScript.Proofs.Program.Progress
