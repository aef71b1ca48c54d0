import CodeSurvey.Pool
import CodeSurvey.ProjectReport
import CodeSurvey.Walk

/-
A survey: settings that hold together and the languages to look for.
-/

namespace CodeSurvey

structure Survey where
  settings : Settings
  registry : Registry
  deriving Inhabited

namespace Survey

def create (settings : Settings) (registry : Registry) : Except Fault Survey :=
  match settings.validate with
  | .error fault => .error fault
  | .ok () =>
    if registry.isEmpty then .error (.invalidSettings "no parsers registered")
    else .ok ⟨settings, registry⟩

/-- The pool of a run, before it is started. -/
def pool (survey : Survey) (processors : Nat) : Pool :=
  .create (survey.settings.workers processors) (survey.settings.queueCapacity processors)

def tooLarge (path : Path) (size limit : Nat) : Fault :=
  .fileAccess path s!"{size} bytes exceeds the {limit} byte limit"

/-- The content of a file that is not too large. -/
def readCapped (files : FileSystem) (path : Path) (limit : Nat) : Except Fault (List UInt8) :=
  match files.read path with
  | .error fault => .error (.fileAccess path fault.message)
  | .ok content =>
    if limit < content.length then .error (tooLarge path content.length limit) else .ok content

/-- The report on a single file. -/
def analyze (survey : Survey) (files : FileSystem) (path : Path) : Except Fault FileReport :=
  match survey.registry.resolve path with
  | .error fault => .error fault
  | .ok language =>
    match readCapped files path survey.settings.maxFileSize with
    | .error fault => .error fault
    | .ok content => (Job.mk path content language).outcome

def walk (survey : Survey) (files : FileSystem) (root : Path) : Walk :=
  .ofSettings files root survey.settings survey.registry

/-- What went wrong at an entry of the walk. -/
def walkFailure (root : Path) (fault : Fault) : FileFailure :=
  ⟨fault.path?.getD root, fault.message⟩

end Survey
end CodeSurvey
