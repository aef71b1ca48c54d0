import CodeSurvey.Graph.Cycles
import CodeSurvey.Graph.Depth
import CodeSurvey.Quality
import CodeSurvey.Resolve
import CodeSurvey.Sum
import CodeSurvey.Text.Lowercase

/-
The report on a project: the reports on its files, and what they add up to.
-/

namespace CodeSurvey

def mean (sum : Float) (count : Nat) : Float := if count = 0 then 0.0 else sum / Float.ofNat count

/-- The figures of a whole project.  Duplication and test coverage are not measured. -/
structure ProjectMetrics where
  totalComplexity : Nat := 0
  averageComplexity : Float := 0.0
  maxComplexity : Nat := 0
  maintainabilityIndex : Float := 0.0
  technicalDebt : Float := 0.0
  documentationRatio : Float := 0.0
  codeToCommentRatio : Float := 0.0
  duplicationPercentage : Float := 0.0
  testCoverage : Float := 0.0
  deriving Repr, Inhabited

namespace ProjectMetrics

/-- Whether each function, method and type of a file is documented. -/
def documentation (report : FileReport) : List Bool :=
  (report.functions ++ report.methods).map FunctionOutline.hasDocstring
    ++ report.types.map TypeOutline.hasDocstring

def ofFiles (reports : List FileReport) : ProjectMetrics :=
  if reports.isEmpty then {}
  else
    let totalComplexity := (reports.map FileReport.complexity).sum
    let documentation := reports.flatMap documentation
    let code := (reports.map FileReport.codeLines).sum
    let comments := (reports.map FileReport.commentLines).sum
    { totalComplexity
      averageComplexity := mean (Float.ofNat totalComplexity) reports.length
      maxComplexity := (reports.map FileReport.complexity).foldl max 0
      maintainabilityIndex :=
        mean (floatSum (reports.map FileReport.maintainability)) reports.length
      technicalDebt := floatSum (reports.map FileReport.technicalDebt)
      documentationRatio :=
        if documentation.isEmpty then 0.0
        else Float.ofNat (documentation.count true) / Float.ofNat documentation.length * 100.0
      codeToCommentRatio := if comments = 0 then 0.0 else Float.ofNat code / Float.ofNat comments }

def qualityInputs (metrics : ProjectMetrics) : Quality.Inputs :=
  { maintainability := metrics.maintainabilityIndex
    averageComplexity := metrics.averageComplexity
    documentation := metrics.documentationRatio
    testCoverage := metrics.testCoverage
    duplication := metrics.duplicationPercentage }

end ProjectMetrics

/-- The parts of a file name that mark a test. -/
def testMarkers : List String := ["_test.", "test_", ".test.", "spec.", "_spec."]

/-- Whether a file holds tests, as far as its name tells, whatever its case. -/
def isTestFile (path : Path) : Bool :=
  let name := Text.lower (path.fileName?.getD "").toList
  testMarkers.any fun marker => Text.contains marker.toList name

/-- What some files add up to. -/
structure Tally where
  files : Nat := 0
  lines : Nat := 0
  complexity : Nat := 0
  maintainabilitySum : Float := 0.0
  deriving Repr, Inhabited

namespace Tally

def add (tally : Tally) (report : FileReport) : Tally :=
  { files := tally.files + 1
    lines := tally.lines + report.lineCount
    complexity := tally.complexity + report.complexity
    maintainabilitySum := tally.maintainabilitySum + report.maintainability }

def averageComplexity (tally : Tally) : Float := mean (Float.ofNat tally.complexity) tally.files

def maintainability (tally : Tally) : Float := mean tally.maintainabilitySum tally.files

end Tally

/-- The files right in a directory. -/
structure DirectoryReport where
  total : Tally := {}
  testFiles : Nat := 0
  languages : Std.TreeMap String Tally := {}
  deriving Inhabited

namespace DirectoryReport

def add (directory : DirectoryReport) (report : FileReport) : DirectoryReport :=
  { total := directory.total.add report
    testFiles := directory.testFiles + if isTestFile report.path then 1 else 0
    languages := directory.languages.alter report.language fun tally =>
      some ((tally.getD {}).add report) }

end DirectoryReport

structure LanguageSummary where
  files : Nat := 0
  lines : Nat := 0
  functions : Nat := 0
  types : Nat := 0
  deriving Repr, DecidableEq, Inhabited

def LanguageSummary.add (summary : LanguageSummary) (report : FileReport) : LanguageSummary :=
  { files := summary.files + 1
    lines := summary.lines + report.lineCount
    functions := summary.functions + report.functions.length + report.methods.length
    types := summary.types + report.types.length }

/-- Who depends on what, by the kind of the dependency. -/
structure DependencyGraph where
  internal : Graph.Adjacency := {}
  external : Graph.Adjacency := {}
  standard : Graph.Adjacency := {}
  cycles : List (List String) := []
  maxDepth : Nat := 0
  deriving Inhabited

/-- A file that could not be analysed. -/
structure FileFailure where
  path : Path
  message : String
  deriving Repr, DecidableEq, Inhabited

structure RunSummary where
  discovered : Nat := 0
  analyzed : Nat := 0
  failed : Nat := 0
  failures : List FileFailure := []
  deriving Repr, DecidableEq, Inhabited

structure ProjectReport where
  root : Path
  files : List FileReport
  metrics : ProjectMetrics
  directories : Std.TreeMap String DirectoryReport
  languages : Std.TreeMap String LanguageSummary
  dependencies : DependencyGraph
  quality : Quality
  summary : RunSummary := {}
  deriving Inhabited

namespace ProjectReport

/-- The directory of a file below the root; the root itself is a dot. -/
def directoryKey (root path : Path) : String :=
  match (path.relativeTo root).parent? with
  | some parent => if parent.text == "" then "." else parent.normalized
  | none => "."

/-- The path of a file below the root. -/
def fileKey (root path : Path) : String := (path.relativeTo root).normalized

def directoriesOf (root : Path) (reports : List FileReport) : Std.TreeMap String DirectoryReport :=
  reports.foldl (fun directories report =>
    directories.alter (directoryKey root report.path) fun directory =>
      some ((directory.getD {}).add report)) {}

def languagesOf (reports : List FileReport) : Std.TreeMap String LanguageSummary :=
  reports.foldl (fun languages report =>
    languages.alter report.language fun summary => some ((summary.getD {}).add report)) {}

def keysOf (root : Path) (reports : List FileReport) : Resolve.Keys :=
  Std.TreeSet.ofList (reports.map fun report => fileKey root report.path)

/-- An internal import leads to the file it names, if that is one of the project. -/
def internalTarget (keys : Resolve.Keys) (language key name : String) : String :=
  (Resolve.resolve keys language key name).getD name

/-- Adds one dependency of the file with the given key. -/
def addDependency (keys : Resolve.Keys) (language key : String) (graph : DependencyGraph)
    (dependency : Dependency) : DependencyGraph :=
  match dependency.kind with
  | .internal =>
    { graph with
      internal := graph.internal.addEdge key (internalTarget keys language key dependency.name) }
  | .external => { graph with external := graph.external.addEdge key dependency.name }
  | .standard => { graph with standard := graph.standard.addEdge key dependency.name }

def addFile (root : Path) (keys : Resolve.Keys) (graph : DependencyGraph) (report : FileReport) :
    DependencyGraph :=
  report.dependencies.foldl (addDependency keys report.language (fileKey root report.path)) graph

def dependenciesOf (root : Path) (reports : List FileReport) : DependencyGraph :=
  let graph := reports.foldl (addFile root (keysOf root reports)) {}
  { graph with cycles := graph.internal.cycles, maxDepth := graph.internal.depth }

/-- The report on a project.  The files come in the order of their paths, whatever
order they are given in. -/
def ofFiles (root : Path) (reports : List FileReport) : ProjectReport :=
  let files := reports.mergeSort fun a b => a.path.le b.path
  let metrics := ProjectMetrics.ofFiles files
  { root
    files
    metrics
    directories := directoriesOf root files
    languages := languagesOf files
    dependencies := dependenciesOf root files
    quality := .ofInputs metrics.qualityInputs }

def totalLines (report : ProjectReport) : Nat := (report.files.map FileReport.lineCount).sum

end ProjectReport
end CodeSurvey
