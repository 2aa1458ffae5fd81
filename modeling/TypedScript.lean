import TypedScript.Check.Mismatch
import TypedScript.Check.Scan
import TypedScript.CommandLine.Invocation
import TypedScript.CommandLine.Option
import TypedScript.CommandLine.Run
import TypedScript.Decimal.Binary
import TypedScript.Decimal.Display
import TypedScript.Decimal.Reader
import TypedScript.Files.Path
import TypedScript.Files.Tree
import TypedScript.Journal.Configuration
import TypedScript.Journal.Event
import TypedScript.Journal.Level
import TypedScript.Line.Classify
import TypedScript.Line.Record
import TypedScript.Literal.Grammar
import TypedScript.Literal.Number
import TypedScript.Literal.Quoted
import TypedScript.Literal.Reading
import TypedScript.Literal.Term
import TypedScript.Literal.Token
import TypedScript.Lowering.Lower
import TypedScript.Lowering.Rule
import TypedScript.Main
import TypedScript.Session.Basic
import TypedScript.Session.Build
import TypedScript.Session.Failure
import TypedScript.Session.Script
import TypedScript.Settings.Basic
import TypedScript.Settings.Override
import TypedScript.Text.Base64
import TypedScript.Text.Basic
import TypedScript.Text.Blank
import TypedScript.Text.Digit
import TypedScript.Text.Encoding
import TypedScript.Text.Letter
import TypedScript.Text.Lines
import TypedScript.Text.Name
import TypedScript.Text.Printable
import TypedScript.Text.Quoted
import TypedScript.Text.Ranges
import TypedScript.Token
import TypedScript.Types
import TypedScript.Value.Basic
import TypedScript.Value.Display
import TypedScript.Value.Merge
import TypedScript.Yaml.Content
import TypedScript.Yaml.Document
import TypedScript.Yaml.Fault
import TypedScript.Yaml.Node
import TypedScript.Yaml.Property
import TypedScript.Yaml.Scalar
import TypedScript.Yaml.Scanner
import TypedScript.Yaml.Tag
import TypedScript.Yaml.Token
import TypedScript.Proofs.Check.Active
import TypedScript.Proofs.Text.Classes
import TypedScript.Proofs.Text.Lines
import TypedScript.Proofs.Text.Margin
import TypedScript.Proofs.Token.Layout
import TypedScript.Proofs.Token.Partition
import TypedScript.Proofs.Token.Strings
import TypedScript.Proofs.Line.Grammar
import TypedScript.Proofs.Line.Recognition
import TypedScript.Proofs.Line.Numbering
import TypedScript.Proofs.Check.Faults
import TypedScript.Proofs.Check.Isolation
import TypedScript.Proofs.Files.Path
import TypedScript.Proofs.Files.Tree
import TypedScript.Proofs.Session.Action
import TypedScript.Proofs.Value.Display
import TypedScript.Proofs.Value.Lookup
import TypedScript.Proofs.Settings.Leaf
import TypedScript.Proofs.Settings.Reachable
import TypedScript.Proofs.Settings.Merge
import TypedScript.Proofs.Lowering.Walk
import TypedScript.Proofs.Lowering.Word
import TypedScript.Proofs.Lowering.Annotation
import TypedScript.Proofs.Lowering.Passes
import TypedScript.Proofs.Session.Compilation
import TypedScript.Proofs.Lowering.Idempotence
import TypedScript.Proofs.Line.Layout
import TypedScript.Proofs.Line.WellFormed
import TypedScript.Proofs.Line.RoundTrip
import TypedScript.Proofs.Lowering.Erasure
import TypedScript.Proofs.Lowering.Linewise
import TypedScript.Proofs.Lowering.Newlines
import TypedScript.Proofs.Lowering.Strings
import TypedScript.Proofs.Lowering.Colon
import TypedScript.Proofs.Lowering.Declaration
import TypedScript.Proofs.Session.Running
import TypedScript.Proofs.Session.Request
import TypedScript.Proofs.CommandLine.Gate
import TypedScript.Proofs.Lowering.Convergence
import TypedScript.Proofs.Lowering.Heads
import TypedScript.Proofs.Lowering.Typed
import TypedScript.Proofs.Token.Literal
import TypedScript.Proofs.Check.Placement
import TypedScript.Proofs.Session.Sparing
import TypedScript.Proofs.Settings.Override
import TypedScript.Proofs.Check.History
import TypedScript.Proofs.Line.Terminator
import TypedScript.Proofs.Settings.Suffix
import TypedScript.Proofs.Settings.Independence
import TypedScript.Proofs.Session.Retrieval
import TypedScript.Proofs.Token.Respacing
import TypedScript.Proofs.Value.Precedence
import TypedScript.Proofs.Line.Cursor
import TypedScript.Proofs.Line.Safety
import TypedScript.Proofs.Outcome
import TypedScript.Proofs.Value.Origin
