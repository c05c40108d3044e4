import JavaAudit.Analysis
import JavaAudit.Command
import JavaAudit.CommandLine.Arguments
import JavaAudit.CommandLine.Read
import JavaAudit.Data.NameMap
import JavaAudit.Data.NameSet
import JavaAudit.Decimal.Binary
import JavaAudit.Decimal.Layout
import JavaAudit.Decimal.Shortest
import JavaAudit.Detect
import JavaAudit.Detect.Cycles
import JavaAudit.Error
import JavaAudit.Facts.Basic
import JavaAudit.Facts.Event
import JavaAudit.Facts.Extract
import JavaAudit.FileCheck
import JavaAudit.Files.Listing
import JavaAudit.Files.Path
import JavaAudit.Files.Tree
import JavaAudit.Glob
import JavaAudit.Graph.Basic
import JavaAudit.Graph.Build
import JavaAudit.Graph.Dot
import JavaAudit.Graph.Statistics
import JavaAudit.Issue
import JavaAudit.Json.Basic
import JavaAudit.Json.Print
import JavaAudit.Json.Read
import JavaAudit.Main
import JavaAudit.Metrics
import JavaAudit.Naming
import JavaAudit.Notice
import JavaAudit.Processing
import JavaAudit.Report
import JavaAudit.Report.Basic
import JavaAudit.Report.Csv
import JavaAudit.Report.Json
import JavaAudit.Report.Moment
import JavaAudit.Report.Styled
import JavaAudit.Report.Text
import JavaAudit.Session
import JavaAudit.Settings.Basic
import JavaAudit.Settings.Document
import JavaAudit.Settings.Environment
import JavaAudit.Settings.Layer
import JavaAudit.Settings.Load
import JavaAudit.Source.Fault
import JavaAudit.Source.Grammar
import JavaAudit.Source.Grammar.Basic
import JavaAudit.Source.Grammar.Declarations
import JavaAudit.Source.Grammar.Expressions
import JavaAudit.Source.Grammar.Statements
import JavaAudit.Source.Grammar.Types
import JavaAudit.Source.Lexeme
import JavaAudit.Source.Parse
import JavaAudit.Source.Rule
import JavaAudit.Source.Token
import JavaAudit.Source.Tree
import JavaAudit.SymbolTable
import JavaAudit.Text.Blank
import JavaAudit.Text.Capital
import JavaAudit.Text.Count
import JavaAudit.Text.Letter
import JavaAudit.Text.Pattern
import JavaAudit.Text.Quoted
import JavaAudit.Text.Utf8
import JavaAudit.Toml.Document
import JavaAudit.Toml.Problem
import JavaAudit.Toml.Read
import JavaAudit.Toml.Scalar
import JavaAudit.Toml.Value
import JavaAudit.Walk
import JavaAudit.Proofs.Cycles.Traversal
import JavaAudit.Proofs.Cycles.Closing
import JavaAudit.Proofs.Cycles.Reporting
import JavaAudit.Proofs.Cycles.Rotation
import JavaAudit.Proofs.Assembly
import JavaAudit.Proofs.Cycles.Merging
import JavaAudit.Proofs.Detect.Unused
import JavaAudit.Proofs.Graph.History
import JavaAudit.Proofs.Source.Spots
import JavaAudit.Proofs.Facts.Scopes
import JavaAudit.Proofs.Facts.Search
import JavaAudit.Proofs.Facts.Types
import JavaAudit.Proofs.Facts.Members
import JavaAudit.Proofs.Source.Derivation
import JavaAudit.Proofs.Source.Nesting
import JavaAudit.Proofs.Facts.Complexity
import JavaAudit.Proofs.Metrics
import JavaAudit.Proofs.Settings.Exclusions
import JavaAudit.Proofs.Failures
import JavaAudit.Proofs.Processing.Schedules
import JavaAudit.Proofs.Json.Texts
import JavaAudit.Proofs.Report.Csv
import JavaAudit.Proofs.Json.Numerals
import JavaAudit.Proofs.Decimal.Quotient
import JavaAudit.Proofs.Json.Values
import JavaAudit.Proofs.Report.Moment
import JavaAudit.Proofs.Report.Json
import JavaAudit.Proofs.Cycles.Order
import JavaAudit.Proofs.Detect.Order
import JavaAudit.Proofs.Duplicates
import JavaAudit.Proofs.Facts.Uses
import JavaAudit.Proofs.FileCheck
import JavaAudit.Proofs.Detect.Packages
import JavaAudit.Proofs.Facts.DottedNames
import JavaAudit.Proofs.Facts.Lines
import JavaAudit.Proofs.Graph.Statistics
import JavaAudit.Proofs.Graph.Drawing
import JavaAudit.Proofs.Report.Styled
import JavaAudit.Proofs.Score
import JavaAudit.Proofs.Cycles.Loop
import JavaAudit.Proofs.Source.Faults
