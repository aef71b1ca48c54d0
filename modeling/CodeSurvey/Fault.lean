import CodeSurvey.Path

/-
Everything that can go wrong, and how it is reported.
-/

namespace CodeSurvey

/-- The causes of failure. -/
inductive Fault where
  | io (path : Path) (reason : String)
  /-- a file that cannot be read or is too large -/
  | fileAccess (path : Path) (reason : String)
  | invalidLanguage (name reason : String)
  | unsupportedExtension (extension : String) (path : Path)
  | queueFull (capacity : Nat)
  | poolStopped
  | cancelled
  | invalidSettings (reason : String)
  /-- an entry that the walk cannot look at -/
  | walk (path : Path) (reason : String)
  /-- a file that cannot be outlined at all -/
  | parse (path : Path) (reason : String)
  | toml (path : Path) (reason : String)
  | other (reason : String)
  deriving Repr, DecidableEq, Inhabited

namespace Fault

def message : Fault → String
  | io path reason => s!"I/O error: {reason} (path: {path})"
  | fileAccess path reason => s!"Cannot read {path}: {reason}"
  | invalidLanguage name reason => s!"Invalid parser '{name}': {reason}"
  | unsupportedExtension extension path =>
    s!"No parser registered for extension '{extension}' ({path})"
  | queueFull capacity => s!"Job queue is full (capacity {capacity})"
  | poolStopped => "Worker pool is not running"
  | cancelled => "Analysis cancelled"
  | invalidSettings reason => s!"Invalid configuration: {reason}"
  | walk path reason => s!"Walk error at {path}: {reason}"
  | parse path reason => s!"Failed to parse {path}: {reason}"
  | toml path reason => s!"TOML parse error in {path}: {reason}"
  | other reason => s!"Generic error: {reason}"

/-- Soft faults are counted against a run; the others end it. -/
def isSoft : Fault → Bool
  | fileAccess .. | parse .. | io .. | walk .. => true
  | _ => false

/-- The file or directory the fault is about. -/
def path? : Fault → Option Path
  | io path _ | fileAccess path _ | unsupportedExtension _ path | parse path _ | toml path _
  | walk path _ => some path
  | _ => none

/-- A fault of the file system whose path nobody recorded. -/
def ofIo (reason : String) : Fault := io ⟨"<unknown>"⟩ reason

end Fault
end CodeSurvey
