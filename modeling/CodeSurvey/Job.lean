import CodeSurvey.Measures

/-
The analysis of one file as a job.
-/

namespace CodeSurvey

structure Job where
  path : Path
  content : List UInt8
  language : Language
  deriving Inhabited

structure JobResult where
  path : Path
  outcome : Except Fault FileReport
  deriving Inhabited

namespace Job

/-- What an outliner that broke down leaves behind. -/
def crash (path : Path) (message : Option String) : Fault :=
  .parse path ("parser panicked: " ++ message.getD "unknown panic")

/-- The measured report of the file.  An outliner that breaks down fails its own file only. -/
def outcome (job : Job) : Except Fault FileReport :=
  match job.language.outline job.path job.content with
  | .outlined report => .ok (report.measured job.content job.language.comments)
  | .refused fault => .error fault
  | .crashed message => .error (crash job.path message)

def run (job : Job) : JobResult := ⟨job.path, job.outcome⟩

end Job
end CodeSurvey
