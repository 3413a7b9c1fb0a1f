import StructuredBasic.Config.Calendar
import StructuredBasic.Config.Document
import StructuredBasic.Config.Scalar
import StructuredBasic.Config.Settings
import StructuredBasic.Config.Table
import StructuredBasic.Decimal.Layout
import StructuredBasic.Decimal.Read
import StructuredBasic.Decimal.Shortest
import StructuredBasic.Json
import StructuredBasic.Json.Access
import StructuredBasic.Json.Read
import StructuredBasic.Lowering.Bodies
import StructuredBasic.Lowering.Branches
import StructuredBasic.Lowering.Env
import StructuredBasic.Lowering.Error
import StructuredBasic.Lowering.Exprs
import StructuredBasic.Lowering.File
import StructuredBasic.Lowering.Fresh
import StructuredBasic.Lowering.Loops
import StructuredBasic.Lowering.Members
import StructuredBasic.Lowering.Methods
import StructuredBasic.Lowering.Operators
import StructuredBasic.Lowering.Routine
import StructuredBasic.Lowering.Stmts
import StructuredBasic.Lowering.Types
import StructuredBasic.Lowering.Variables
import StructuredBasic.Machine.Eval
import StructuredBasic.Machine.Exec
import StructuredBasic.Machine.Operate
import StructuredBasic.Machine.Value
import StructuredBasic.Named
import StructuredBasic.Pipeline
import StructuredBasic.Position
import StructuredBasic.Sketch.Basic
import StructuredBasic.Sketch.Code
import StructuredBasic.Sketch.Members
import StructuredBasic.Syntax.Builder
import StructuredBasic.Syntax.Decode
import StructuredBasic.Syntax.Diagnostic
import StructuredBasic.Syntax.Dump
import StructuredBasic.Syntax.Forest
import StructuredBasic.Syntax.Kind
import StructuredBasic.Syntax.Lookup
import StructuredBasic.Syntax.Payload
import StructuredBasic.Syntax.Shape
import StructuredBasic.Syntax.Vocabulary
import StructuredBasic.Target.Code
import StructuredBasic.Target.Decode
import StructuredBasic.Target.Encode
import StructuredBasic.Target.Print
import StructuredBasic.Target.Program
import StructuredBasic.Target.Type
import StructuredBasic.Text.Markup
import StructuredBasic.Text.Printable
import StructuredBasic.Text.Quoted
import StructuredBasic.Word
import StructuredBasic.Proofs.Forest.Links
import StructuredBasic.Proofs.Forest.Walks
import StructuredBasic.Proofs.Forest.Shapes
import StructuredBasic.Proofs.Forest.Accepted
import StructuredBasic.Proofs.Lowering.Derivation
import StructuredBasic.Proofs.Forest.Gather
import StructuredBasic.Proofs.Lowering.Declarations
import StructuredBasic.Proofs.Lowering.Support
import StructuredBasic.Proofs.Machine.Faults
import StructuredBasic.Proofs.Machine.Triples
import StructuredBasic.Proofs.Machine.Coverage
import StructuredBasic.Proofs.Lowering.Fresh
import StructuredBasic.Proofs.Lowering.Names
import StructuredBasic.Proofs.Lowering.Synthesized
import StructuredBasic.Proofs.Lowering.Routines
import StructuredBasic.Proofs.Machine.Jumps
import StructuredBasic.Proofs.Lowering.Jumps
import StructuredBasic.Proofs.Lowering.Scope
import StructuredBasic.Proofs.Lowering.ReturnPoints
import StructuredBasic.Proofs.Target.Comments
import StructuredBasic.Proofs.Lowering.Comments
import StructuredBasic.Proofs.Machine.Breaks
import StructuredBasic.Proofs.Lowering.Exits
import StructuredBasic.Proofs.Lowering.Locals
import StructuredBasic.Proofs.Lowering.Independence
import StructuredBasic.Proofs.Forest.WellFormed
import StructuredBasic.Proofs.Lowering.Labels
import StructuredBasic.Proofs.Machine.Sites
import StructuredBasic.Proofs.Lowering.Sites
import StructuredBasic.Proofs.Lowering.Malformed
import StructuredBasic.Proofs.Lowering.Enclosing
import StructuredBasic.Proofs.Lowering.Refusals
import StructuredBasic.Proofs.Forest.Preorder
import StructuredBasic.Proofs.Machine.Termination
import StructuredBasic.Proofs.Pipeline
import StructuredBasic.Proofs.Lowering.EmittedComments
import StructuredBasic.Proofs.Lowering.KeptComments
import StructuredBasic.Proofs.Machine.Statements
import StructuredBasic.Proofs.Lowering.Branches
import StructuredBasic.Proofs.Machine.Apart
import StructuredBasic.Proofs.Machine.PostTest
import StructuredBasic.Proofs.Lowering.Reach
import StructuredBasic.Proofs.Lowering.PostTest
import StructuredBasic.Proofs.Text.Words
import StructuredBasic.Proofs.Json.RoundTrip
import StructuredBasic.Proofs.Json.Access
import StructuredBasic.Proofs.Target.Storable
import StructuredBasic.Proofs.Target.RoundTrip
import StructuredBasic.Proofs.Text.Markup
import StructuredBasic.Proofs.Forest.Dump
import StructuredBasic.Proofs.Lowering.Lookup
import StructuredBasic.Proofs.Machine.Departures
import StructuredBasic.Proofs.Lowering.Census
import StructuredBasic.Proofs.Lowering.Results
import StructuredBasic.Proofs.Lowering.ResultWrites
import StructuredBasic.Proofs.Machine.Rounding
import StructuredBasic.Proofs.Machine.Numbers
import StructuredBasic.Proofs.Lowering.Bounds
import StructuredBasic.Proofs.Machine.Counted
import StructuredBasic.Proofs.Lowering.Counted
import StructuredBasic.Proofs.Lowering.Visits
import StructuredBasic.Proofs.Lowering.Accounts
import StructuredBasic.Proofs.Target.Occurrences
import StructuredBasic.Proofs.Lowering.Accesses
import StructuredBasic.Proofs.Lowering.Subjects
import StructuredBasic.Proofs.Lowering.Accessors
import StructuredBasic.Proofs.Lowering.Applications
import StructuredBasic.Proofs.Lowering.Compound
import StructuredBasic.Proofs.Target.Ranks
import StructuredBasic.Proofs.Lowering.ExprRanks
import StructuredBasic.Proofs.Lowering.Ranks
import StructuredBasic.Proofs.Lowering.Arrays
import StructuredBasic.Proofs.Machine.Comparisons
import StructuredBasic.Proofs.Machine.Strictness
import StructuredBasic.Proofs.Lowering.Outline
import StructuredBasic.Proofs.Target.Grouping
import StructuredBasic.Proofs.Position
import StructuredBasic.Proofs.Machine.Frame
import StructuredBasic.Proofs.Lowering.Suffixes
import StructuredBasic.Proofs.Sketch.Lines
