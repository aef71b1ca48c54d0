import CodeSurvey.Fault
import CodeSurvey.Toml.Document

/-
The settings of a run.
-/

namespace CodeSurvey

structure Settings where
  /-- the number of workers; none for as many as the machine has processors -/
  maxWorkers : Option Nat := none
  /-- larger files are passed over; in bytes -/
  maxFileSize : Nat := 1024 * 1024
  excludePatterns : List String :=
    [".git", "node_modules", "target", "vendor", "dist", "build", "__pycache__", ".venv", "venv",
      ".tox", ".cache", "third_party"]
  includePatterns : List String := []
  /-- the capacity of a queue for each worker -/
  queueMultiplier : Nat := 2
  respectGitignore : Bool := true
  deriving Repr, DecidableEq, Inhabited

namespace Settings

/-- The name of the file that holds the settings of a directory. -/
def fileName : String := "codegauge.toml"

def standard : Settings := {}

/-- The number of workers on a machine with that many processors. -/
def workers (settings : Settings) (processors : Nat) : Nat := settings.maxWorkers.getD processors

/-- The capacity of each queue.  A product in words of 64 bits is the same below `2 ^ 64`. -/
def queueCapacity (settings : Settings) (processors : Nat) : Nat :=
  max (settings.workers processors) 1 * max settings.queueMultiplier 1

def validate (settings : Settings) : Except Fault Unit :=
  if settings.maxWorkers = some 0 then .error (.invalidSettings "max_workers must be at least 1")
  else if settings.maxFileSize = 0 then .error (.invalidSettings "max_file_size must be positive")
  else if settings.queueMultiplier = 0 then
    .error (.invalidSettings "queue_multiplier must be at least 1")
  else .ok ()

open Toml

def natural? : Value → Option Nat
  | .integer n => if 0 ≤ n then some n.toNat else none
  | _ => none

def boolean? : Value → Option Bool
  | .boolean b => some b
  | _ => none

def string? : Value → Option String
  | .string text => some text
  | _ => none

def strings? : Value → Option (List String)
  | .array values => values.mapM string?
  | _ => none

/-- The value of a key, or a default if the key is absent; none if the value is of another sort. -/
def field (entries : Entries) (key : String) (sort : Value → Option α) (default : α) : Option α :=
  match entries.get? key with
  | none => some default
  | some value => sort value

/-- The settings that a document holds; keys it does not know are passed over. -/
def ofEntries (entries : Entries) : Option Settings := do
  let standard : Settings := {}
  let maxWorkers ← field entries "max_workers" (fun value => (natural? value).map some) none
  let maxFileSize ← field entries "max_file_size" natural? standard.maxFileSize
  let excludePatterns ← field entries "exclude_patterns" strings? standard.excludePatterns
  let includePatterns ← field entries "include_patterns" strings? standard.includePatterns
  let queueMultiplier ← field entries "queue_multiplier" natural? standard.queueMultiplier
  let respectGitignore ← field entries "respect_gitignore" boolean? standard.respectGitignore
  return {
    maxWorkers, maxFileSize, excludePatterns, includePatterns, queueMultiplier, respectGitignore }

def ofText (text : List Char) : Option Settings := (Toml.parse text).bind ofEntries

end Settings
end CodeSurvey
