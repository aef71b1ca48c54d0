import CodeSurvey.CommandLine.Command
import CodeSurvey.CommandLine.Report
import CodeSurvey.ExitCode
import CodeSurvey.Json.WalkCounts
import CodeSurvey.Run
import CodeSurvey.SettingsFile

/-
Carrying out a command.
-/

namespace CodeSurvey

/-- The message of a fault, and then that of what caused it, if anything did. -/
def Fault.trail (fault : Fault) : List String :=
  match fault with
  | .io _ reason | .toml _ reason => [fault.message, reason]
  | _ => [fault.message]

namespace CommandLine

/-- What was asked for is shown with success. -/
def Refusal.exit : Refusal → ExitCode
  | .help | .version => .success
  | _ => .invalidInput

/-- A fault that ended a command, with what was being done. -/
structure Failure where
  doing : String
  fault : Fault
  deriving Repr, DecidableEq, Inhabited

def Failure.message (failure : Failure) : String :=
  String.intercalate ": " (failure.doing :: failure.fault.trail)

/-- What a command found out. -/
inductive Finding where
  | nothing
  | project (report : ProjectReport)
  | file (report : FileReport)
  | walk (root : Path) (counts : WalkCounts)
  | languages (registry : Registry)
  deriving Inhabited

structure Completed where
  finding : Finding := .nothing
  /-- what the error stream gets -/
  notice : String := ""
  exit : ExitCode := .success
  deriving Inhabited

/-- Where commands are carried out. -/
structure Host where
  files : FileSystem
  processors : Nat
  deriving Inhabited

/-- Whether a result comes about, or else what was being done when it did not. -/
def during (doing : String) : Except Fault α → Except Failure α
  | .ok value => .ok value
  | .error fault => .error ⟨doing, fault⟩

/-- The directory whose settings hold for a path: the path itself or the directory around it. -/
def settingsDirectory (files : FileSystem) (path : Path) : Path :=
  if files.isDirectory path then path else path.parent?.getD ⟨"."⟩

def loadSettings (files : FileSystem) (path : Path) : Except Failure Settings :=
  let directory := settingsDirectory files path
  during s!"Failed to load config from {directory}" (Settings.load files directory)

def createSurvey (settings : Settings) : Except Failure Survey :=
  during "Failed to start engine" (Survey.create settings .standard)

def notDirectory (path : Path) : Completed :=
  { notice := s!"Not a directory: {path}\n", exit := .invalidInput }

/-- The settings with those that the command line adds or overrides. -/
def ScanOptions.applyTo (options : ScanOptions) (settings : Settings) : Settings :=
  { settings with
    maxWorkers := options.workers.orElse fun _ => settings.maxWorkers
    excludePatterns := settings.excludePatterns ++ options.excludes
    includePatterns := settings.includePatterns ++ options.includes }

/-- A scan fails if its score is below the one asked for. -/
def ScanOptions.exit (options : ScanOptions) (score : Float) : ExitCode :=
  match options.failUnder with
  | some least => if score < least then .checkFailed else .success
  | none => .success

def Host.scan (host : Host) (options : ScanOptions) : Except Failure Completed :=
  if ! host.files.isDirectory options.path then .ok (notDirectory options.path)
  else do
    let settings ← loadSettings host.files options.path
    let survey ← createSurvey (options.applyTo settings)
    let report ← during s!"Analysis of {options.path} failed"
      (survey.run host.files host.processors .never options.path).outcome
    return { finding := .project report, exit := options.exit report.quality.score }

/-- A file that cannot be looked at is the fault of the arguments. -/
def Host.file (host : Host) (path : Path) : Except Failure Completed := do
  let settings ← loadSettings host.files path
  let survey ← createSurvey settings
  match survey.analyze host.files path with
  | .ok report => return { finding := .file report }
  | .error fault =>
    match fault with
    | .unsupportedExtension .. | .fileAccess .. =>
      return { notice := fault.message ++ "\n", exit := .invalidInput }
    | _ => .error ⟨s!"Failed to analyze {path}", fault⟩

def Host.walk (host : Host) (path : Path) : Except Failure Completed :=
  if ! host.files.isDirectory path then .ok (notDirectory path)
  else do
    let settings ← loadSettings host.files path
    let survey ← createSurvey settings
    return { finding := .walk path (.ofWalk (survey.walk host.files path)) }

def Command.execute (host : Host) : Command → Except Failure Completed
  | .scan options => host.scan options
  | .file path _ => host.file path
  | .walk path _ => host.walk path
  | .languages => .ok { finding := .languages .standard }

/-- Whether a command asks for JSON. -/
def Command.json : Command → Bool
  | .scan options => options.json
  | .file _ json | .walk _ json => json
  | .languages => false

/-- What is printed. -/
inductive Printed where
  | lines (lines : List String)
  | json (value : Json)
  deriving Inhabited

/-- A finding as lines or as JSON, with the time that it took. -/
def Finding.print (finding : Finding) (json colors : Bool) (milliseconds : Nat) : Printed :=
  match finding with
  | .nothing => .lines []
  | .project report =>
    if json then .json (report.toJson (some milliseconds))
    else .lines (projectLines colors milliseconds report)
  | .file report => if json then .json report.toJson else .lines (fileLines colors report)
  | .walk root counts => if json then .json counts.toJson else .lines (walkLines colors root counts)
  | .languages registry => .lines (languageLines colors registry)

/-- Lines as one text. -/
def unlines (lines : List String) : String := String.join (lines.map (· ++ "\n"))

end CommandLine
end CodeSurvey
