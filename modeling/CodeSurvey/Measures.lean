import CodeSurvey.LineCounts
import CodeSurvey.Provenance
import CodeSurvey.Sum

/-
The figures of a file that follow from its outline and its text.  Sums are exact; in words of 64
bits they are the same as long as the complexities of a file add up to less than `2 ^ 64`.
-/

namespace CodeSurvey

/-- `x`, or the nearer end of the interval from `low` to `high`. -/
def clamp (low high x : Float) : Float := if x < low then low else if high < x then high else x

def FunctionOutline.withLeastComplexity (f : FunctionOutline) : FunctionOutline :=
  { f with complexity := max f.complexity 1 }

/-- The complexity of a type is that of its methods. -/
def TypeOutline.measured (t : TypeOutline) : TypeOutline :=
  let methods := t.methods.map FunctionOutline.withLeastComplexity
  { t with methods, complexity := (methods.map FunctionOutline.complexity).sum }

namespace Debt

/-- The weighted excess of a figure over its limit. -/
def excess (value limit : Nat) (weight : Float) : Float :=
  if limit < value then weight * Float.ofNat (value - limit) else 0.0

/-- Long, branching functions with many parameters cost. -/
def ofFunction (f : FunctionOutline) : Float :=
  excess f.complexity 10 0.5 + excess f.parameters.length 5 0.3 + excess f.lineCount 50 0.1

/-- Large types cost. -/
def ofType (t : TypeOutline) : Float :=
  excess t.methods.length 20 0.2 + excess t.lineCount 200 0.05

/-- The share of comments below which code costs. -/
def leastCommentRatio : Float := 0.1

/-- What too few comments cost. -/
def ofComments (codeLines commentLines : Nat) : Float :=
  if codeLines = 0 then 0.0
  else
    let ratio := Float.ofNat commentLines / Float.ofNat codeLines
    if ratio < leastCommentRatio then 10.0 * (leastCommentRatio - ratio) else 0.0

end Debt

/-- `171 - 5.2 ln V - 0.23 C - 16.2 ln L` for `L` lines of code, `V = 2 L` and complexity `C`,
between 0 and 100; a file without code is as maintainable as can be. -/
def maintainabilityIndex (codeLines complexity : Nat) : Float :=
  if codeLines = 0 then 100.0
  else
    let lines := Float.ofNat codeLines
    let volume := 2.0 * lines
    clamp 0.0 100.0
      (171.0 - 5.2 * volume.log - 0.23 * Float.ofNat complexity - 16.2 * lines.log)

namespace FileReport

/-- The complexity of all functions and methods, at least 1. -/
def totalComplexity (report : FileReport) : Nat :=
  max ((report.functions.map FunctionOutline.complexity).sum
    + (report.methods.map FunctionOutline.complexity).sum) 1

def debt (report : FileReport) : Float :=
  floatSum (report.functions.map Debt.ofFunction)
    + floatSum (report.methods.map Debt.ofFunction)
    + floatSum (report.types.map Debt.ofType)
    + Debt.excess report.maxLineLength 120 0.01
    + Debt.ofComments report.codeLines report.commentLines

/-- The dependency that an import of a file makes. -/
def dependencyOn (report : FileReport) (name : String) : Dependency :=
  { name, kind := .ofImport report.language name, file := report.path }

/-- The report with every figure that follows from it and from the text of the file. -/
def measured (report : FileReport) (content : List UInt8) (delimiters : CommentSyntax) :
    FileReport :=
  let counts := LineCounts.ofText delimiters (Text.Utf8.decodeLossy content)
  let functions := report.functions.map FunctionOutline.withLeastComplexity
  let types := report.types.map TypeOutline.measured
  let counted := { report with
    lineCount := counts.total
    codeLines := counts.code
    commentLines := counts.comment
    blankLines := counts.blank
    maxLineLength := counts.maxLength
    avgLineLength := counts.avgLength
    functions
    types }
  let complexity := counted.totalComplexity
  { counted with
    complexity
    maintainability := maintainabilityIndex counts.code complexity
    technicalDebt := counted.debt
    dependencies := report.imports.map report.dependencyOn }

end FileReport
end CodeSurvey
