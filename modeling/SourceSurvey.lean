import SourceSurvey.Analysis
import SourceSurvey.Code.Header
import SourceSurvey.Code.Literal
import SourceSurvey.Code.Nesting
import SourceSurvey.Code.Place
import SourceSurvey.Code.Span
import SourceSurvey.CommandLine.Argument
import SourceSurvey.CommandLine.Run
import SourceSurvey.CommandLine.Screen
import SourceSurvey.Comment.Strip
import SourceSurvey.Comment.Style
import SourceSurvey.Description
import SourceSurvey.Extract.BraceLanguage
import SourceSurvey.Extract.Css
import SourceSurvey.Extract.Html
import SourceSurvey.Extract.JavaScript
import SourceSurvey.Extract.JavaScript.Basic
import SourceSurvey.Extract.JavaScript.Class
import SourceSurvey.Extract.JavaScript.Import
import SourceSurvey.Extract.JavaScript.Routine
import SourceSurvey.Extract.Php
import SourceSurvey.Extract.Php.Basic
import SourceSurvey.Extract.Php.Import
import SourceSurvey.Extract.Php.Routine
import SourceSurvey.Extract.Php.Type
import SourceSurvey.Extract.Python
import SourceSurvey.Extract.Python.Class
import SourceSurvey.Extract.Python.Import
import SourceSurvey.Extract.Python.Routine
import SourceSurvey.Extract.Statement
import SourceSurvey.Failure
import SourceSurvey.Finding.Hardcoded
import SourceSurvey.Finding.Marker
import SourceSurvey.Finding.Unused
import SourceSurvey.Language
import SourceSurvey.Main
import SourceSurvey.Mention
import SourceSurvey.MetaBlock
import SourceSurvey.Number.Binary64
import SourceSurvey.Number.Reading
import SourceSurvey.Number.Shortest
import SourceSurvey.Package.External
import SourceSurvey.Package.Installed
import SourceSurvey.Package.Manifest
import SourceSurvey.Package.Name
import SourceSurvey.Package.Standard
import SourceSurvey.Package.Status
import SourceSurvey.Pattern.Basic
import SourceSurvey.Pattern.Choices
import SourceSurvey.Proofs.Analysis.Enrichment
import SourceSurvey.Proofs.Analysis.Fallback
import SourceSurvey.Proofs.Code.Brace
import SourceSurvey.Proofs.Code.Depth
import SourceSurvey.Proofs.Code.Expression
import SourceSurvey.Proofs.Code.Header
import SourceSurvey.Proofs.Code.Indentation
import SourceSurvey.Proofs.Code.Nested
import SourceSurvey.Proofs.Code.Parenthesis
import SourceSurvey.Proofs.Code.Quoting
import SourceSurvey.Proofs.Comment.Erasure
import SourceSurvey.Proofs.Comment.Layout
import SourceSurvey.Proofs.Comment.QuoteRun
import SourceSurvey.Proofs.Comment.Reading
import SourceSurvey.Proofs.Comment.Reread
import SourceSurvey.Proofs.Comment.Rewording
import SourceSurvey.Proofs.Comment.Trailing
import SourceSurvey.Proofs.Description.Naming
import SourceSurvey.Proofs.Extract.Alias
import SourceSurvey.Proofs.Extract.Attribute
import SourceSurvey.Proofs.Extract.Branch
import SourceSurvey.Proofs.Extract.Complexity
import SourceSurvey.Proofs.Extract.Continuation
import SourceSurvey.Proofs.Extract.Entry
import SourceSurvey.Proofs.Extract.Function
import SourceSurvey.Proofs.Extract.Header
import SourceSurvey.Proofs.Extract.Import
import SourceSurvey.Proofs.Extract.ImportClause
import SourceSurvey.Proofs.Extract.Layout
import SourceSurvey.Proofs.Extract.Line
import SourceSurvey.Proofs.Extract.Literal
import SourceSurvey.Proofs.Extract.Member
import SourceSurvey.Proofs.Extract.Modifier
import SourceSurvey.Proofs.Extract.Name
import SourceSurvey.Proofs.Extract.Ownership
import SourceSurvey.Proofs.Extract.Page
import SourceSurvey.Proofs.Extract.Parameter
import SourceSurvey.Proofs.Extract.PhpParameter
import SourceSurvey.Proofs.Extract.RuleLayout
import SourceSurvey.Proofs.Extract.Script
import SourceSurvey.Proofs.Extract.ScriptHeader
import SourceSurvey.Proofs.Extract.ScriptImport
import SourceSurvey.Proofs.Extract.ScriptLayout
import SourceSurvey.Proofs.Extract.ScriptParameter
import SourceSurvey.Proofs.Extract.ScriptTag
import SourceSurvey.Proofs.Extract.Section
import SourceSurvey.Proofs.Extract.Shift
import SourceSurvey.Proofs.Extract.Signature
import SourceSurvey.Proofs.Extract.SpelledFunction
import SourceSurvey.Proofs.Extract.Spelling
import SourceSurvey.Proofs.Extract.Start
import SourceSurvey.Proofs.Extract.TopLevel
import SourceSurvey.Proofs.Extract.UseClause
import SourceSurvey.Proofs.Extract.UseStatement
import SourceSurvey.Proofs.Failure.Refusal
import SourceSurvey.Proofs.Finding.Comment
import SourceSurvey.Proofs.Finding.Constant
import SourceSurvey.Proofs.Finding.Declaration
import SourceSurvey.Proofs.Finding.Exclusion
import SourceSurvey.Proofs.Finding.Import
import SourceSurvey.Proofs.Finding.Line
import SourceSurvey.Proofs.Finding.Redeclaration
import SourceSurvey.Proofs.Finding.Reference
import SourceSurvey.Proofs.Finding.Shift
import SourceSurvey.Proofs.Finding.Word
import SourceSurvey.Proofs.List.Distinct
import SourceSurvey.Proofs.MetaBlock.Reading
import SourceSurvey.Proofs.MetaBlock.Written
import SourceSurvey.Proofs.Number.Order
import SourceSurvey.Proofs.Package.External
import SourceSurvey.Proofs.Package.Known
import SourceSurvey.Proofs.Package.Level
import SourceSurvey.Proofs.Package.Manifest
import SourceSurvey.Proofs.Package.Nearest
import SourceSurvey.Proofs.Package.Requirement
import SourceSurvey.Proofs.Package.Vendor
import SourceSurvey.Proofs.Package.Verification
import SourceSurvey.Proofs.Pattern.AnyCase
import SourceSurvey.Proofs.Pattern.Forward
import SourceSurvey.Proofs.Pattern.Preferred
import SourceSurvey.Proofs.Pattern.Reading
import SourceSurvey.Proofs.Pattern.Repetition
import SourceSurvey.Proofs.Pattern.Search
import SourceSurvey.Proofs.Pattern.Word
import SourceSurvey.Proofs.Place.Append
import SourceSurvey.Proofs.Place.Number
import SourceSurvey.Proofs.Settings.Bound
import SourceSurvey.Proofs.Settings.File
import SourceSurvey.Proofs.Settings.Precedence
import SourceSurvey.Proofs.Summary.Distinct
import SourceSurvey.Proofs.Summary.LineEnd
import SourceSurvey.Proofs.Summary.Lines
import SourceSurvey.Proofs.Summary.Outcome
import SourceSurvey.Proofs.Text.Blank
import SourceSurvey.Proofs.Text.Field
import SourceSurvey.Proofs.Text.LetterCase
import SourceSurvey.Proofs.Text.LineEnd
import SourceSurvey.Proofs.Usage.Candidate
import SourceSurvey.Proofs.Usage.Cleared
import SourceSurvey.Proofs.Usage.Exact
import SourceSurvey.Proofs.Usage.Gather
import SourceSurvey.Proofs.Usage.Schedule
import SourceSurvey.Proofs.Value.Shape
import SourceSurvey.Proofs.Workspace.Below
import SourceSurvey.Proofs.Workspace.Link
import SourceSurvey.Proofs.Workspace.Resolved
import SourceSurvey.Settings
import SourceSurvey.Settings.File
import SourceSurvey.Summary.Basic
import SourceSurvey.Summary.Declaration
import SourceSurvey.Summary.OfText
import SourceSurvey.Summary.Report
import SourceSurvey.Text.CharClass
import SourceSurvey.Text.LetterCase
import SourceSurvey.Text.Lines
import SourceSurvey.Text.Quoted
import SourceSurvey.Text.Search
import SourceSurvey.Text.Table.Alphanumeric
import SourceSurvey.Text.Table.Identifier
import SourceSurvey.Text.Table.LetterCase
import SourceSurvey.Text.Table.Sigma
import SourceSurvey.Text.Trim
import SourceSurvey.Text.Utf8
import SourceSurvey.Toml.Document
import SourceSurvey.Toml.Layout
import SourceSurvey.Toml.Literal
import SourceSurvey.Toml.Value
import SourceSurvey.Usage
import SourceSurvey.Usage.Candidate
import SourceSurvey.Usage.Scan
import SourceSurvey.Value.Basic
import SourceSurvey.Value.Calendar
import SourceSurvey.Value.Json
import SourceSurvey.Value.Literal
import SourceSurvey.Value.Readers
import SourceSurvey.Workspace.Path
import SourceSurvey.Workspace.Snapshot
import SourceSurvey.Workspace.Tree
import SourceSurvey.Yaml.Block
import SourceSurvey.Yaml.Document
import SourceSurvey.Yaml.Implicit
import SourceSurvey.Yaml.Node
import SourceSurvey.Yaml.Place
import SourceSurvey.Yaml.Plain
import SourceSurvey.Yaml.Property
import SourceSurvey.Yaml.Quoted
import SourceSurvey.Yaml.Token
import SourceSurvey.Yaml.Token.Lexer
