import RecipeLint.Analyzer
import RecipeLint.CommandLine.Arguments
import RecipeLint.CommandLine.Help
import RecipeLint.CommandLine.Output
import RecipeLint.CommandLine.Run
import RecipeLint.Decimal
import RecipeLint.Directive
import RecipeLint.Discovery
import RecipeLint.Evaluation
import RecipeLint.FileTree
import RecipeLint.Glob
import RecipeLint.Ignore
import RecipeLint.Json
import RecipeLint.Json.Document
import RecipeLint.Language
import RecipeLint.Main
import RecipeLint.Node
import RecipeLint.Offense
import RecipeLint.Patch
import RecipeLint.Path
import RecipeLint.Proofs.Analyzer.Agreement
import RecipeLint.Proofs.Analyzer.Autocorrect
import RecipeLint.Proofs.Analyzer.Composition
import RecipeLint.Proofs.Analyzer.Leftover
import RecipeLint.Proofs.Analyzer.Marks
import RecipeLint.Proofs.Analyzer.Passes
import RecipeLint.Proofs.Analyzer.Schedule
import RecipeLint.Proofs.Directive.Coverage
import RecipeLint.Proofs.Directive.Form
import RecipeLint.Proofs.Directive.Nearest
import RecipeLint.Proofs.Directive.Reason
import RecipeLint.Proofs.Directive.Writing
import RecipeLint.Proofs.Discovery.Contents
import RecipeLint.Proofs.Discovery.Gathering
import RecipeLint.Proofs.Evaluation.Alone
import RecipeLint.Proofs.Evaluation.Isolation
import RecipeLint.Proofs.Evaluation.Order
import RecipeLint.Proofs.Evaluation.Origin
import RecipeLint.Proofs.Evaluation.Reference
import RecipeLint.Proofs.Evaluation.Traversal
import RecipeLint.Proofs.FileTree.Contents
import RecipeLint.Proofs.Json.Document
import RecipeLint.Proofs.Json.Record
import RecipeLint.Proofs.Node.Nesting
import RecipeLint.Proofs.Node.Outline
import RecipeLint.Proofs.Node.Positions
import RecipeLint.Proofs.Node.Walks
import RecipeLint.Proofs.Patch.Acceptance
import RecipeLint.Proofs.Patch.Order
import RecipeLint.Proofs.Patch.Rearrangement
import RecipeLint.Proofs.Patch.Sequence
import RecipeLint.Proofs.Patch.Stretch
import RecipeLint.Proofs.Path.Order
import RecipeLint.Proofs.Registry.Index
import RecipeLint.Proofs.Registry.Lookup
import RecipeLint.Proofs.Registry.Registration
import RecipeLint.Proofs.Report.Data
import RecipeLint.Proofs.Report.ExitCode
import RecipeLint.Proofs.Report.Merging
import RecipeLint.Proofs.Ruby.Additions
import RecipeLint.Proofs.Ruby.Arguments
import RecipeLint.Proofs.Ruby.Bindings
import RecipeLint.Proofs.Ruby.Call
import RecipeLint.Proofs.Ruby.CallNodes
import RecipeLint.Proofs.Ruby.CallStatements
import RecipeLint.Proofs.Ruby.CallValues
import RecipeLint.Proofs.Ruby.Calls
import RecipeLint.Proofs.Ruby.Commands
import RecipeLint.Proofs.Ruby.Ends
import RecipeLint.Proofs.Ruby.Escapes
import RecipeLint.Proofs.Ruby.Exchange
import RecipeLint.Proofs.Ruby.Following
import RecipeLint.Proofs.Ruby.Gaps
import RecipeLint.Proofs.Ruby.Growth
import RecipeLint.Proofs.Ruby.Layout
import RecipeLint.Proofs.Ruby.Literals
import RecipeLint.Proofs.Ruby.Lowering
import RecipeLint.Proofs.Ruby.Names
import RecipeLint.Proofs.Ruby.Occurrences
import RecipeLint.Proofs.Ruby.Options
import RecipeLint.Proofs.Ruby.Outlines
import RecipeLint.Proofs.Ruby.Programs
import RecipeLint.Proofs.Ruby.Reading
import RecipeLint.Proofs.Ruby.Removal
import RecipeLint.Proofs.Ruby.Values
import RecipeLint.Proofs.Ruby.WellNested
import RecipeLint.Proofs.Rules.Copyright.Allowance
import RecipeLint.Proofs.Rules.Copyright.Header
import RecipeLint.Proofs.Rules.Copyright.Holder
import RecipeLint.Proofs.Rules.Copyright.Settling
import RecipeLint.Proofs.Rules.Copyright.Years
import RecipeLint.Proofs.Rules.Independence
import RecipeLint.Proofs.Rules.ProvidesMetadata
import RecipeLint.Proofs.Rules.Reach
import RecipeLint.Proofs.Rules.Safety
import RecipeLint.Proofs.Rules.ShellOut.Changes
import RecipeLint.Proofs.Rules.ShellOut.Meaning
import RecipeLint.Proofs.Rules.ShellOut.Nested
import RecipeLint.Proofs.SourceFile.LineStarts
import RecipeLint.Proofs.SourceFile.Lines
import RecipeLint.Proofs.SourceFile.Positions
import RecipeLint.Proofs.SourceFile.Widening
import RecipeLint.Proofs.Text.Numeral
import RecipeLint.Proofs.Text.Parts
import RecipeLint.Proofs.Version.Reading
import RecipeLint.Registry
import RecipeLint.Report
import RecipeLint.Report.Data
import RecipeLint.Ruby.Argument
import RecipeLint.Ruby.Case
import RecipeLint.Ruby.Completion
import RecipeLint.Ruby.Control
import RecipeLint.Ruby.Definition
import RecipeLint.Ruby.Failure
import RecipeLint.Ruby.Kind
import RecipeLint.Ruby.Literal
import RecipeLint.Ruby.Lowering
import RecipeLint.Ruby.Operator
import RecipeLint.Ruby.Parameter
import RecipeLint.Ruby.Parse
import RecipeLint.Ruby.Pattern
import RecipeLint.Ruby.Primary
import RecipeLint.Ruby.Reader
import RecipeLint.Ruby.Repair
import RecipeLint.Ruby.Spacing
import RecipeLint.Ruby.Statement
import RecipeLint.Ruby.Tree
import RecipeLint.Ruby.Word
import RecipeLint.Rule
import RecipeLint.Rules.Copyright
import RecipeLint.Rules.LegacyRunner
import RecipeLint.Rules.PoiseDependency
import RecipeLint.Rules.Preset
import RecipeLint.Rules.ProvidesMetadata
import RecipeLint.Rules.RegistryUac
import RecipeLint.Rules.ShellOut
import RecipeLint.Rules.VaultUse
import RecipeLint.Settings
import RecipeLint.Severity
import RecipeLint.SourceFile
import RecipeLint.Span
import RecipeLint.Text.Blank
import RecipeLint.Text.Bytes
import RecipeLint.Text.Reach
import RecipeLint.Text.Search
import RecipeLint.Text.Visible
import RecipeLint.Text.Word
import RecipeLint.Toml.Document
import RecipeLint.Toml.Moment
import RecipeLint.Toml.Scalar
import RecipeLint.Toml.Value
import RecipeLint.UserIgnore
import RecipeLint.Version
