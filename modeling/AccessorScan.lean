import AccessorScan.Accessor.Classify
import AccessorScan.Accessor.FieldIndex
import AccessorScan.Accessor.Naming
import AccessorScan.Accessor.Verdict
import AccessorScan.Command.Basic
import AccessorScan.Command.Form
import AccessorScan.Command.Help
import AccessorScan.Command.Line
import AccessorScan.Command.Program
import AccessorScan.Config.Basic
import AccessorScan.Config.OfToml
import AccessorScan.Config.Search
import AccessorScan.Count
import AccessorScan.Failure
import AccessorScan.Files.Discovery
import AccessorScan.Files.Glob
import AccessorScan.Files.IgnoreGlob
import AccessorScan.Files.IgnoreRules
import AccessorScan.Files.Path
import AccessorScan.Files.System
import AccessorScan.Json.Basic
import AccessorScan.Json.Reader
import AccessorScan.Json.Writer
import AccessorScan.Log
import AccessorScan.Log.Filter
import AccessorScan.Log.Line
import AccessorScan.Main
import AccessorScan.Model.Basic
import AccessorScan.Model.Encoding
import AccessorScan.Model.OfTree
import AccessorScan.Proofs.AccessorListing
import AccessorScan.Proofs.AccessorNames
import AccessorScan.Proofs.AncestorChain
import AccessorScan.Proofs.Beans
import AccessorScan.Proofs.Bodies
import AccessorScan.Proofs.Building
import AccessorScan.Proofs.Checking
import AccessorScan.Proofs.Classification
import AccessorScan.Proofs.Colors
import AccessorScan.Proofs.Comments
import AccessorScan.Proofs.ConfigSearch
import AccessorScan.Proofs.Confinement
import AccessorScan.Proofs.Contents
import AccessorScan.Proofs.Cutting
import AccessorScan.Proofs.Declarations
import AccessorScan.Proofs.Delivery
import AccessorScan.Proofs.Discovery
import AccessorScan.Proofs.EntryNames
import AccessorScan.Proofs.ExcludePatterns
import AccessorScan.Proofs.Execution
import AccessorScan.Proofs.FieldIndex
import AccessorScan.Proofs.FieldSearch
import AccessorScan.Proofs.FileChanges
import AccessorScan.Proofs.FileDifference
import AccessorScan.Proofs.Filing
import AccessorScan.Proofs.Finding
import AccessorScan.Proofs.GrammarCheck
import AccessorScan.Proofs.Interfaces
import AccessorScan.Proofs.Isolation
import AccessorScan.Proofs.JsonRecords
import AccessorScan.Proofs.JsonText
import AccessorScan.Proofs.Lines
import AccessorScan.Proofs.Listing
import AccessorScan.Proofs.Lookup
import AccessorScan.Proofs.Lowering
import AccessorScan.Proofs.ModelEncoding
import AccessorScan.Proofs.Moving
import AccessorScan.Proofs.Naming
import AccessorScan.Proofs.Occurrences
import AccessorScan.Proofs.Outline
import AccessorScan.Proofs.Parameters
import AccessorScan.Proofs.PathComponents
import AccessorScan.Proofs.PathOrder
import AccessorScan.Proofs.Pieces
import AccessorScan.Proofs.Places
import AccessorScan.Proofs.Positions
import AccessorScan.Proofs.Reading
import AccessorScan.Proofs.ReportText
import AccessorScan.Proofs.Scanning
import AccessorScan.Proofs.Shape
import AccessorScan.Proofs.Siblings
import AccessorScan.Proofs.Sketch
import AccessorScan.Proofs.SourceLexemes
import AccessorScan.Proofs.SourceTrees
import AccessorScan.Proofs.Spelling
import AccessorScan.Proofs.SyntaxVerdict
import AccessorScan.Proofs.Tallies
import AccessorScan.Proofs.Tokens
import AccessorScan.Proofs.Traits
import AccessorScan.Proofs.Uncommented
import AccessorScan.Proofs.Writing
import AccessorScan.Report.Basic
import AccessorScan.Report.Encoding
import AccessorScan.Report.Filing
import AccessorScan.Report.Listing
import AccessorScan.Report.Sink
import AccessorScan.Report.Source
import AccessorScan.Report.Writing
import AccessorScan.Scan.Basic
import AccessorScan.Syntax.Grammar
import AccessorScan.Syntax.Grammar.Declarations
import AccessorScan.Syntax.Grammar.Expressions
import AccessorScan.Syntax.Grammar.Phrase
import AccessorScan.Syntax.Grammar.Statements
import AccessorScan.Syntax.Grammar.Types
import AccessorScan.Syntax.Lexeme
import AccessorScan.Syntax.Rule
import AccessorScan.Syntax.Source
import AccessorScan.Syntax.Tree
import AccessorScan.Text.Blank
import AccessorScan.Text.Identifier
import AccessorScan.Text.Indent
import AccessorScan.Text.Style
import AccessorScan.Text.Uppercase
import AccessorScan.Toml.Reader
import AccessorScan.Toml.Scalar
import AccessorScan.Toml.Value
