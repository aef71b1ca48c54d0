import CodeSurvey.Json.FileReport
import CodeSurvey.ProjectReport

/-
Project reports as JSON.
-/

namespace CodeSurvey

def ProjectMetrics.toJson (m : ProjectMetrics) : Json := .object
  [("total_complexity", .natural m.totalComplexity),
    ("average_complexity", .real m.averageComplexity), ("max_complexity", .natural m.maxComplexity),
    ("maintainability_index", .real m.maintainabilityIndex),
    ("technical_debt", .real m.technicalDebt), ("documentation_ratio", .real m.documentationRatio),
    ("code_to_comment_ratio", .real m.codeToCommentRatio),
    ("duplication_percentage", .real m.duplicationPercentage),
    ("test_coverage", .real m.testCoverage)]

def Tally.toJson (t : Tally) : Json := .object
  [("file_count", .natural t.files), ("line_count", .natural t.lines),
    ("complexity", .natural t.complexity), ("average_complexity", .real t.averageComplexity),
    ("maintainability", .real t.maintainability)]

/-- An object with one member for each entry of a map. -/
def Json.ofMap (map : Std.TreeMap String α) (toJson : α → Json) : Json :=
  .object (map.toList.map fun (key, value) => (key, toJson value))

def DirectoryReport.toJson (path : String) (d : DirectoryReport) : Json := .object
  [("path", .text path), ("file_count", .natural d.total.files),
    ("test_file_count", .natural d.testFiles), ("line_count", .natural d.total.lines),
    ("complexity", .natural d.total.complexity), ("maintainability", .real d.total.maintainability),
    ("languages", .ofMap d.languages Tally.toJson)]

def LanguageSummary.toJson (s : LanguageSummary) : Json := .object
  [("files", .natural s.files), ("lines", .natural s.lines), ("functions", .natural s.functions),
    ("classes", .natural s.types)]

/-- Unused dependencies are not looked for. -/
def DependencyGraph.toJson (g : DependencyGraph) : Json := .object
  [("internal", .ofMap g.internal Json.texts), ("external", .ofMap g.external Json.texts),
    ("standard", .ofMap g.standard Json.texts), ("cycles", .list (g.cycles.map Json.texts)),
    ("max_depth", .natural g.maxDepth), ("unused", .list [])]

def Quality.toJson (q : Quality) : Json := .object
  [("score", .real q.score), ("grade", .text q.grade.label)]

def FileFailure.toJson (f : FileFailure) : Json := .object
  [("path", .text f.path.text), ("message", .text f.message)]

def RunSummary.toJson (s : RunSummary) : Json := .object
  [("discovered", .natural s.discovered), ("analyzed", .natural s.analyzed),
    ("failed", .natural s.failed), ("failures", .list (s.failures.map FileFailure.toJson))]

def DirectoryReport.mapToJson (map : Std.TreeMap String DirectoryReport) : Json :=
  .object (map.toList.map fun (path, directory) => (path, directory.toJson path))

/-- The report, with the time that it took if that is known. -/
def ProjectReport.toJson (report : ProjectReport) (milliseconds : Option Nat) : Json := .object <|
  [("root", .text report.root.text),
    ("file_results", .list (report.files.map FileReport.toJson)),
    ("metrics", report.metrics.toJson),
    ("directories", DirectoryReport.mapToJson report.directories),
    ("languages", .ofMap report.languages LanguageSummary.toJson),
    ("dependency_graph", report.dependencies.toJson),
    ("quality", report.quality.toJson),
    ("summary", report.summary.toJson)]
    ++ (milliseconds.map fun ms => ("duration_ms", Json.natural ms)).toList

end CodeSurvey
