import CodeSurvey.Main
import CodeSurvey.Proofs.Graph.CycleCompleteness
import CodeSurvey.Proofs.Pool.Traffic
import CodeSurvey.Proofs.Pool.Threads
import CodeSurvey.Proofs.Pool.Lifecycle
import CodeSurvey.Proofs.Registry.History
import CodeSurvey.Proofs.Registry.Usability
import CodeSurvey.Proofs.Run.Sequential
import CodeSurvey.Proofs.Graph.ReportedCycles
import CodeSurvey.Proofs.Graph.LongestPath
import CodeSurvey.Proofs.Walk.Admission
import CodeSurvey.Proofs.Run.Cancellation
import CodeSurvey.Proofs.Report.MeasuredFile
import CodeSurvey.Proofs.Report.DependencyEdges
import CodeSurvey.Proofs.Report.ByteOrderMark
import CodeSurvey.Proofs.Report.Rollups
import CodeSurvey.Proofs.Lines.BlockComments
import CodeSurvey.Proofs.Lines.Counts
import CodeSurvey.Proofs.Lines.Literals
import CodeSurvey.Proofs.Lines.TripleQuotes
import CodeSurvey.Proofs.Outline.Branches
import CodeSurvey.Proofs.Outline.Definitions
import CodeSurvey.Proofs.Outline.GoDefinitions
import CodeSurvey.Proofs.Outline.PythonDefinitions
import CodeSurvey.Proofs.Outline.RustDefinitions
import CodeSurvey.Proofs.Outline.GoRanges
import CodeSurvey.Proofs.Outline.GoCursor
import CodeSurvey.Proofs.Outline.GoReceivers
import CodeSurvey.Proofs.Outline.GoStops
import CodeSurvey.Proofs.Text.Lines
import CodeSurvey.Proofs.Text.Lowercase
import CodeSurvey.Proofs.Text.Matcher
import CodeSurvey.Proofs.Text.Search
import CodeSurvey.Proofs.Text.Split
import CodeSurvey.Proofs.Text.Utf8
import CodeSurvey.Proofs.Resolve.PythonNames
import CodeSurvey.Proofs.Resolve.RustPaths
import CodeSurvey.Proofs.Outline.GoBlocks
import CodeSurvey.Proofs.Outline.GoBraces
import CodeSurvey.Proofs.Outline.GoImports
import CodeSurvey.Proofs.Outline.GoParameters
import CodeSurvey.Proofs.Outline.FaultBound
import CodeSurvey.Proofs.Outline.GoHeaders
import CodeSurvey.Proofs.Outline.GoFields
import CodeSurvey.Proofs.Outline.PythonImports
import CodeSurvey.Proofs.Outline.RustTypeEntries
import CodeSurvey.Proofs.Walk.LiteralRules
import CodeSurvey.Proofs.Graph.SearchStages
import CodeSurvey.Proofs.Pool.Ordering
import CodeSurvey.Proofs.Outline.GoTokens
