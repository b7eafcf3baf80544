import BracketSpacing.Assoc
import BracketSpacing.Binary64
import BracketSpacing.Catalogue
import BracketSpacing.CommandLine.Argument
import BracketSpacing.CommandLine.Help
import BracketSpacing.CommandLine.Invocation
import BracketSpacing.Config
import BracketSpacing.ConfigFile
import BracketSpacing.Diagnostic
import BracketSpacing.Discovery
import BracketSpacing.Document
import BracketSpacing.Failure
import BracketSpacing.FileTree
import BracketSpacing.Finding
import BracketSpacing.Ignore
import BracketSpacing.Ignore.Pattern
import BracketSpacing.Json
import BracketSpacing.Language
import BracketSpacing.Lint
import BracketSpacing.Log
import BracketSpacing.Main
import BracketSpacing.Override
import BracketSpacing.Path
import BracketSpacing.Readers
import BracketSpacing.Readers.Builtin
import BracketSpacing.Region
import BracketSpacing.Registry
import BracketSpacing.Report
import BracketSpacing.Rule
import BracketSpacing.Ruleset
import BracketSpacing.Run
import BracketSpacing.Script.Dialect
import BracketSpacing.Script.Element
import BracketSpacing.Script.Expression
import BracketSpacing.Script.Function
import BracketSpacing.Script.Lexeme
import BracketSpacing.Script.Literal
import BracketSpacing.Script.Place
import BracketSpacing.Script.Program
import BracketSpacing.Script.Read
import BracketSpacing.Script.Signature
import BracketSpacing.Script.Statement
import BracketSpacing.Script.Type
import BracketSpacing.Spacing
import BracketSpacing.Text.Blank
import BracketSpacing.Text.Digit
import BracketSpacing.Text.Lower
import BracketSpacing.Text.Printable
import BracketSpacing.Text.Quoted
import BracketSpacing.Text.Utf8
import BracketSpacing.Token
import BracketSpacing.Tree.Cursor
import BracketSpacing.Tree.Node
import BracketSpacing.Value
import BracketSpacing.Value.Order
import BracketSpacing.Value.Shown
import BracketSpacing.Version
import BracketSpacing.Yaml
import BracketSpacing.Yaml.Error
import BracketSpacing.Yaml.Line
import BracketSpacing.Yaml.Node
import BracketSpacing.Yaml.Scalar
import BracketSpacing.Yaml.Schema
import BracketSpacing.Yaml.Token
import BracketSpacing.Proofs.Text.Line
import BracketSpacing.Proofs.Document
import BracketSpacing.Proofs.Finding
import BracketSpacing.Proofs.Verdict
import BracketSpacing.Proofs.Diagnostic
import BracketSpacing.Proofs.Lint
import BracketSpacing.Proofs.Registry
import BracketSpacing.Proofs.Discovery.Search
import BracketSpacing.Proofs.Report
import BracketSpacing.Proofs.Comment
import BracketSpacing.Proofs.Session
import BracketSpacing.Proofs.Override
import BracketSpacing.Proofs.ConfigFile
import BracketSpacing.Proofs.Run
import BracketSpacing.Proofs.Format
import BracketSpacing.Proofs.Tree.Relabel
import BracketSpacing.Proofs.Enclosure
import BracketSpacing.Proofs.Shift
import BracketSpacing.Proofs.Recovery
import BracketSpacing.Proofs.FileTree
import BracketSpacing.Proofs.Discovery.Prune
import BracketSpacing.Proofs.Ignore
import BracketSpacing.Proofs.Boundary
import BracketSpacing.Proofs.Location
import BracketSpacing.Proofs.Assoc
import BracketSpacing.Proofs.Config
import BracketSpacing.Proofs.Ruleset
import BracketSpacing.Proofs.Tree.Traversal
import BracketSpacing.Proofs.Mode
import BracketSpacing.Proofs.Json.Grammar
import BracketSpacing.Proofs.Json.Reading
import BracketSpacing.Proofs.Text.Cut
import BracketSpacing.Proofs.Point
import BracketSpacing.Proofs.Slice
import BracketSpacing.Proofs.Tree.Frontier
