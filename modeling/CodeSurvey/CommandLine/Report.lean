import CodeSurvey.CommandLine.Style
import CodeSurvey.Decimal.Fixed
import CodeSurvey.ProjectReport
import CodeSurvey.Sum
import CodeSurvey.Walk

/-
Reports as lines of text.
-/

namespace CodeSurvey
namespace CommandLine

open Decimal (fixed padLeft padRight)
open Style (paint)

/-- A number at the right end of a column. -/
def column (width n : Nat) : String := padLeft width ' ' (toString n)

/-- Text at the left end of a column. -/
def cell (width : Nat) (text : String) : String := padRight width ' ' text

/-- The name of so many things: it has an `s` unless there is one. -/
def plural (count : Nat) (word : String) : String := if count = 1 then word else word ++ "s"

def gradeStyle : Grade → Style
  | .a => { bold := true, color := some .green }
  | .b => { color := some .green }
  | .c => { color := some .yellow }
  | .d => { bold := true, color := some .yellow }
  | .f => { bold := true, color := some .red }

def languageLine (name : String) (summary : LanguageSummary) : String :=
  let files := plural summary.files "file"
  s!"  {cell 10 name} {column 5 summary.files} {files}  " ++
    s!"{column 7 summary.lines} lines  {column 5 summary.functions} functions  " ++
    s!"{column 4 summary.types} classes"

def metricsLines (m : ProjectMetrics) : List String :=
  [s!"  complexity       avg {fixed 1 m.averageComplexity}  max {m.maxComplexity}  " ++
      s!"total {m.totalComplexity}",
    s!"  maintainability  {fixed 1 m.maintainabilityIndex}",
    s!"  technical debt   {fixed 1 m.technicalDebt}",
    s!"  documented       {fixed 1 m.documentationRatio}%",
    s!"  code/comment     {fixed 1 m.codeToCommentRatio}"]

/-- How many of the most complex files are listed. -/
def topFiles : Nat := 5

/-- The most complex files first, those of one complexity in the order of their paths. -/
def ranked (reports : List FileReport) : List FileReport :=
  reports.mergeSort fun a b =>
    b.complexity < a.complexity || (a.complexity == b.complexity && a.path.le b.path)

/-- A file that is hard to maintain stands out. -/
def hotspotLine (colors : Bool) (root : Path) (report : FileReport) : String :=
  let index := cell 8 ("MI " ++ fixed 0 report.maintainability)
  let index := if report.maintainability < 20.0 then paint colors .alarm index else index
  s!"  {column 5 report.complexity}  {index}  {report.path.relativeTo root}"

def hotspotLines (colors : Bool) (root : Path) (reports : List FileReport) : List String :=
  if reports.isEmpty then []
  else paint colors .heading "Most complex"
    :: ((ranked reports).take topFiles).map (hotspotLine colors root) ++ [""]

def edgeCount (graph : Graph.Adjacency) : Nat := (graph.values.map List.length).sum

def dependencyLines (colors : Bool) (graph : DependencyGraph) : List String :=
  [paint colors .heading "Dependencies",
    s!"  {edgeCount graph.standard} standard, {edgeCount graph.internal} internal, " ++
      s!"{edgeCount graph.external} external, max depth {graph.maxDepth}"]
    ++ graph.cycles.map (fun cycle =>
      "  " ++ paint colors .alarm "cycle:" ++ " " ++ String.intercalate " -> " cycle)
    ++ [""]

def failureLines (colors : Bool) (failures : List FileFailure) : List String :=
  if failures.isEmpty then []
  else paint colors .warning "Skipped"
    :: failures.map (fun failure => s!"  {failure.path} {paint colors .faint failure.message}") ++
      [""]

/-- The report on a project, which took so many milliseconds. -/
def projectLines (colors : Bool) (milliseconds : Nat) (report : ProjectReport) : List String :=
  let summary := report.summary
  let grade := report.quality.grade
  [paint colors .strong "codegauge" ++ s!" {report.root}",
    s!"  {summary.analyzed} analyzed, {summary.failed} failed, " ++
      s!"{report.totalLines} lines in {milliseconds}ms",
    "",
    paint colors .heading "Languages"]
    ++ report.languages.toList.map (fun (name, summary) => languageLine name summary)
    ++ ["", paint colors .heading "Metrics"] ++ metricsLines report.metrics ++ [""]
    ++ hotspotLines colors report.root report.files
    ++ dependencyLines colors report.dependencies
    ++ failureLines colors summary.failures
    ++ [paint colors .strong "Quality:" ++
      s!" {fixed 1 report.quality.score} ({paint colors (gradeStyle grade) grade.label})"]

def functionLine (colors : Bool) (f : FunctionOutline) : String :=
  "  " ++ paint colors .keyword "fn" ++ s!" {f.name} [cc {f.complexity}] L{f.startLine}-{f.endLine}"

def typeLines (colors : Bool) (t : TypeOutline) : List String :=
  ("  " ++ paint colors .keyword "type" ++ s!" {t.name} L{t.startLine}-{t.endLine}")
    :: t.methods.map fun f => s!"      {f.name} [cc {f.complexity}]"

def dependencyLine (colors : Bool) (d : Dependency) : String :=
  "  " ++ paint colors .keyword "use" ++ s!" {d.name} ({paint colors .faint d.kind.label})"

def faultLine (colors : Bool) (fault : SyntaxFault) : String :=
  "  " ++ paint colors .alarm "error" ++ s!" {fault.line}:{fault.column} {fault.message}"

/-- The report on a single file. -/
def fileLines (colors : Bool) (report : FileReport) : List String :=
  [s!"{paint colors .strong report.path.text} ({report.language})",
    s!"  lines {report.lineCount} (code {report.codeLines}, comment {report.commentLines}, " ++
      s!"blank {report.blankLines})",
    s!"  complexity {report.complexity}  maintainability {fixed 1 report.maintainability}  " ++
      s!"debt {fixed 1 report.technicalDebt}"]
    ++ report.functions.map (functionLine colors)
    ++ report.types.flatMap (typeLines colors)
    ++ report.dependencies.map (dependencyLine colors)
    ++ report.faults.map (faultLine colors)

/-- What a scan of a directory would pick up. -/
def walkLines (colors : Bool) (root : Path) (counts : WalkCounts) : List String :=
  let files := plural counts.totalFiles "file"
  let errors := plural counts.errors "error"
  (paint colors .strong "walk" ++ s!" {root}")
    :: counts.byExtension.toList.map (fun (extension, count) => s!"  {cell 6 extension} {count}")
    ++ [s!"  {counts.totalFiles} {files}, {counts.excluded} excluded, " ++
      s!"{counts.oversize} over size, {counts.unsupported} unsupported, {counts.errors} {errors}"]

def languageLines (colors : Bool) (registry : Registry) : List String :=
  paint colors .heading "Languages" :: registry.languageNames.map ("  " ++ ·)
    ++ [paint colors .heading "Extensions", "  " ++ String.intercalate " " registry.extensions]

end CommandLine
end CodeSurvey
