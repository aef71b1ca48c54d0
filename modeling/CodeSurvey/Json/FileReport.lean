import CodeSurvey.FileReport
import CodeSurvey.Json.Value

/-
File reports as JSON.
-/

namespace CodeSurvey

def SyntaxFault.toJson (fault : SyntaxFault) : Json := .object
  [("line", .natural fault.line), ("column", .natural fault.column),
    ("message", .text fault.message)]

def FunctionOutline.toJson (f : FunctionOutline) : Json := .object
  [("name", .text f.name), ("start_line", .natural f.startLine), ("end_line", .natural f.endLine),
    ("parameters", .texts f.parameters), ("return_type", .text f.returnType),
    ("complexity", .natural f.complexity), ("is_public", .bool f.isPublic),
    ("is_async", .bool f.isAsync), ("has_docstring", .bool f.hasDocstring)]

def TypeOutline.toJson (t : TypeOutline) : Json := .object
  [("name", .text t.name), ("kind", .text t.kind.label), ("start_line", .natural t.startLine),
    ("end_line", .natural t.endLine), ("methods", .list (t.methods.map FunctionOutline.toJson)),
    ("fields", .texts t.fields), ("bases", .texts t.bases), ("complexity", .natural t.complexity),
    ("has_docstring", .bool t.hasDocstring)]

/-- The version is left out if it is not known. -/
def Dependency.toJson (d : Dependency) : Json := .object <|
  [("name", .text d.name), ("kind", .text d.kind.label), ("file", .text d.file.text),
    ("usage_count", .natural d.usageCount)]
    ++ (d.version.map fun version => ("version", Json.text version)).toList

def FileReport.toJson (report : FileReport) : Json := .object
  [("path", .text report.path.text), ("language", .text report.language),
    ("line_count", .natural report.lineCount), ("code_lines", .natural report.codeLines),
    ("comment_lines", .natural report.commentLines), ("blank_lines", .natural report.blankLines),
    ("max_line_length", .natural report.maxLineLength),
    ("avg_line_length", .real report.avgLineLength),
    ("functions", .list (report.functions.map FunctionOutline.toJson)),
    ("classes", .list (report.types.map TypeOutline.toJson)), ("imports", .texts report.imports),
    ("dependencies", .list (report.dependencies.map Dependency.toJson)),
    ("complexity", .natural report.complexity), ("maintainability", .real report.maintainability),
    ("technical_debt", .real report.technicalDebt),
    ("errors", .list (report.faults.map SyntaxFault.toJson))]

end CodeSurvey
