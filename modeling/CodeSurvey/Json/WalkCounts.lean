import CodeSurvey.Json.ProjectReport
import CodeSurvey.Walk

/-
The counts of a walk as JSON.
-/

namespace CodeSurvey

def WalkCounts.toJson (counts : WalkCounts) : Json := .object
  [("total_files", .natural counts.totalFiles),
    ("by_extension", .ofMap counts.byExtension Json.natural),
    ("excluded", .natural counts.excluded), ("oversize", .natural counts.oversize),
    ("unsupported", .natural counts.unsupported), ("errors", .natural counts.errors)]

end CodeSurvey
