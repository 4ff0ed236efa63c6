import RepoSurvey.Analysis
import RepoSurvey.Analysis.Document
import RepoSurvey.Command.Arguments
import RepoSurvey.Command.Basic
import RepoSurvey.Command.Help
import RepoSurvey.Duration
import RepoSurvey.Extraction
import RepoSurvey.Failure
import RepoSurvey.FileSystem.Basic
import RepoSurvey.FileSystem.Change
import RepoSurvey.Graph.Basic
import RepoSurvey.Graph.Dot
import RepoSurvey.JavaScript.Imports
import RepoSurvey.Json.Basic
import RepoSurvey.Json.Shape
import RepoSurvey.Json.Skip
import RepoSurvey.Json.Token
import RepoSurvey.Language
import RepoSurvey.Ledger
import RepoSurvey.Machine
import RepoSurvey.Main
import RepoSurvey.Moment
import RepoSurvey.Narrator
import RepoSurvey.Parsing.Automaton
import RepoSurvey.Parsing.Engine
import RepoSurvey.Parsing.Forest
import RepoSurvey.Parsing.Grammar
import RepoSurvey.Parsing.Stacks
import RepoSurvey.Path
import RepoSurvey.Pool
import RepoSurvey.Progress
import RepoSurvey.Proofs.Path
import RepoSurvey.Proofs.Pool
import RepoSurvey.Python.Grammar
import RepoSurvey.Python.Imports
import RepoSurvey.Python.Layout
import RepoSurvey.Python.Lexer
import RepoSurvey.Python.Parse
import RepoSurvey.Python.SyntaxTree
import RepoSurvey.Report.Csv
import RepoSurvey.Report.Format
import RepoSurvey.Report.Ink
import RepoSurvey.Report.Output
import RepoSurvey.Report.Text
import RepoSurvey.Scope
import RepoSurvey.Settings.Basic
import RepoSurvey.Settings.Document
import RepoSurvey.Settings.Environment
import RepoSurvey.Settings.Load
import RepoSurvey.Settings.Source
import RepoSurvey.Settings.Text
import RepoSurvey.Survey
import RepoSurvey.Text.Blank
import RepoSurvey.Text.Fixed
import RepoSurvey.Text.Identifier
import RepoSurvey.Text.Pattern
import RepoSurvey.Text.Place
import RepoSurvey.Text.Power
import RepoSurvey.Text.Printable
import RepoSurvey.Text.Quoted
import RepoSurvey.Text.Ranges
import RepoSurvey.Text.Shortest
import RepoSurvey.Text.Utf8
import RepoSurvey.Toml.Basic
import RepoSurvey.Toml.Document
import RepoSurvey.Toml.Quoted
import RepoSurvey.Toml.Report
import RepoSurvey.Toml.Scalar
import RepoSurvey.Toml.Table
import RepoSurvey.Tree.Basic
import RepoSurvey.Tree.Build
import RepoSurvey.Tree.Outline
import RepoSurvey.Walk.Basic
import RepoSurvey.Walk.Sight
import RepoSurvey.Proofs.Following
import RepoSurvey.Proofs.Snapshot
import RepoSurvey.Proofs.Chart
import RepoSurvey.Proofs.Sight
import RepoSurvey.Proofs.TreeAndWalk
import RepoSurvey.Proofs.EntryOrder
import RepoSurvey.Proofs.WalkOrder
import RepoSurvey.Proofs.Entering
import RepoSurvey.Proofs.Ways
import RepoSurvey.Proofs.OneStory
import RepoSurvey.Proofs.BreadthFirst
import RepoSurvey.Proofs.PythonLevels
import RepoSurvey.Proofs.PythonOrder
import RepoSurvey.Proofs.Bookkeeping
import RepoSurvey.Proofs.WayText
import RepoSurvey.Proofs.WalkPruning
import RepoSurvey.Proofs.Pruning
import RepoSurvey.Proofs.Positions
import RepoSurvey.Proofs.Admissible
import RepoSurvey.Proofs.Contents
import RepoSurvey.Proofs.Isolation
import RepoSurvey.Proofs.Contribution
import RepoSurvey.Proofs.WayEnds
import RepoSurvey.Proofs.Exclusion
import RepoSurvey.Proofs.Traversal
import RepoSurvey.Proofs.Relisting
import RepoSurvey.Proofs.ChartOrder
import RepoSurvey.Proofs.TreeOrder
import RepoSurvey.Proofs.CsvReading
import RepoSurvey.Proofs.Precedence
import RepoSurvey.Proofs.Preference
import RepoSurvey.Proofs.Expression
import RepoSurvey.Proofs.ScriptImports
import RepoSurvey.Proofs.JsonReading
import RepoSurvey.Proofs.Calendar
import RepoSurvey.Proofs.MomentText
import RepoSurvey.Proofs.DocumentText
import RepoSurvey.Proofs.DocumentReading
import RepoSurvey.Proofs.Unfollowed
import RepoSurvey.Proofs.FailureOrder
import RepoSurvey.Proofs.Coverage
import RepoSurvey.Proofs.NodeShape
import RepoSurvey.Proofs.Priority
import RepoSurvey.Proofs.GraphStatistics
import RepoSurvey.Proofs.PieceMatching
import RepoSurvey.Proofs.ScriptStatements
import RepoSurvey.Proofs.HiddenCalls
import RepoSurvey.Proofs.QuotedModules
import RepoSurvey.Proofs.SyntaxPositions
import RepoSurvey.Proofs.Python2Forms
import RepoSurvey.Proofs.SourceOrder
import RepoSurvey.Proofs.VisitedStatements
import RepoSurvey.Proofs.DottedNames
import RepoSurvey.Proofs.DrawingReading
import RepoSurvey.Proofs.DrawingIdentifiers
import RepoSurvey.Proofs.AncestorStack
import RepoSurvey.Proofs.OutlineReading
import RepoSurvey.Proofs.TreeFailure
import RepoSurvey.Proofs.ReportColors
import RepoSurvey.Proofs.UpdateOrder
import RepoSurvey.Proofs.Delivery
import RepoSurvey.Proofs.RootNames
import RepoSurvey.Proofs.FileExtensions
import RepoSurvey.Proofs.Python3Numbers
