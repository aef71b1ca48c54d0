import CodeSurvey.CommandLine.Arguments

/-
The commands and their arguments.
-/

namespace CodeSurvey
namespace CommandLine

structure ScanOptions where
  path : Path
  json : Bool := false
  workers : Option Nat := none
  excludes : List String := []
  includes : List String := []
  /-- the score below which a scan fails -/
  failUnder : Option Float := none
  quiet : Bool := false
  deriving Repr, Inhabited

inductive Command where
  /-- analyse every file below a directory -/
  | scan (options : ScanOptions)
  /-- analyse a single file -/
  | file (path : Path) (json : Bool)
  /-- show what a scan would pick up -/
  | walk (path : Path) (json : Bool)
  /-- list the languages and their extensions -/
  | languages
  deriving Repr, Inhabited

/-- The path that a command is about. -/
def Command.path? : Command → Option Path
  | .scan options => some options.path
  | .file path _ | .walk path _ => some path
  | .languages => none

/-- What is asked for; without a command there is nothing to do. -/
structure Invocation where
  verbose : Bool
  command : Option Command
  deriving Repr, Inhabited

/-- The options that every command has. -/
def globalOptions : List Parameter := [⟨"verbose", some 'v', .flag⟩, ⟨"help", some 'h', .help⟩]

def rootSignature : Signature := ⟨⟨"version", some 'V', .version⟩ :: globalOptions, none⟩

def jsonOption : Parameter := ⟨"json", none, .flag⟩

def directoryArgument : Positional := ⟨"path", .path, false⟩

/-- The signatures of the commands, by their names. -/
def signatures : List (String × Signature) :=
  [("scan",
    { options := globalOptions ++
        [jsonOption, ⟨"workers", some 'w', .value .natural⟩, ⟨"exclude", none, .values .text⟩,
          ⟨"include", none, .values .text⟩, ⟨"fail-under", none, .value .real⟩,
          ⟨"quiet", some 'q', .flag⟩]
      positional := some directoryArgument }),
    ("file",
      { options := globalOptions ++ [jsonOption], positional := some ⟨"path", .path, true⟩ }),
    ("walk", { options := globalOptions ++ [jsonOption], positional := some directoryArgument }),
    ("languages", { options := globalOptions, positional := none })]

def signature? (name : String) : Option Signature := signatures.lookup name

/-- The command that shows how the others are used. -/
def helpCommand : String := "help"

def isCommand (name : String) : Bool := name == helpCommand || (signature? name).isSome

/-- How the commands are used. -/
def usage : List String :=
  ["Usage: codegauge [OPTIONS] [COMMAND]",
    "",
    "Commands:",
    "  scan [PATH]  Analyze every supported file under a directory",
    "               --json, -w/--workers N, --exclude PATTERN, --include PATTERN,",
    "               --fail-under SCORE, -q/--quiet",
    "  file PATH    Analyze a single file (--json)",
    "  walk [PATH]  Show what a scan would pick up, without analyzing (--json)",
    "  languages    List supported languages and extensions",
    "  help         Print this text",
    "",
    "Options:",
    "  -v, --verbose  Say more about what is done",
    "  -h, --help     Print this text",
    "  -V, --version  Print the version"]

def versionLine : String := "codegauge 0.1.0"

namespace Reading

/-- The path that was given, or the working directory. -/
def path (reading : Reading) : Path :=
  match reading.values "path" with
  | .path path :: _ => path
  | _ => ⟨"."⟩

def texts (reading : Reading) (name : String) : List String :=
  (reading.values name).filterMap fun
    | .text text => some text
    | _ => none

def natural? (reading : Reading) (name : String) : Option Nat :=
  match reading.values name with
  | .natural n :: _ => some n
  | _ => none

def real? (reading : Reading) (name : String) : Option Float :=
  match reading.values name with
  | .real x :: _ => some x
  | _ => none

end Reading

/-- The command of that name with the arguments read. -/
def Command.ofReading (name : String) (reading : Reading) : Command :=
  match name with
  | "scan" => .scan
    { path := reading.path
      json := reading.isGiven "json"
      workers := reading.natural? "workers"
      excludes := reading.texts "exclude"
      includes := reading.texts "include"
      failUnder := reading.real? "fail-under"
      quiet := reading.isGiven "quiet" }
  | "file" => .file reading.path (reading.isGiven "json")
  | "walk" => .walk reading.path (reading.isGiven "json")
  | _ => .languages

/-- What `help` shows, if it is asked about a command that exists. -/
def helpOn : List String → Refusal
  | [] => .help
  | [name] => if isCommand name then .help else .unknownCommand
  | _ => .unknownCommand

namespace Invocation

/-- Reads the options before a command, the command and its arguments. -/
def ofReading (reading : Reading) : List String → Except Refusal Invocation
  | [] => .ok ⟨reading.isGiven "verbose", none⟩
  | text :: rest =>
    match reading.takeDashed? rootSignature text with
    | some result => do
      let reading ← result
      ofReading reading rest
    | none =>
      if reading.isLiteral then
        .error (if isCommand text then .unknownArgument else .unknownCommand)
      else if text == helpCommand then .error (helpOn rest)
      else match signature? text with
        | none => .error .unknownCommand
        | some signature => do
          let arguments ← Reading.ofArguments signature rest
          .ok ⟨reading.isGiven "verbose" || arguments.isGiven "verbose",
            some (.ofReading text arguments)⟩

def ofArguments (arguments : List String) : Except Refusal Invocation := ofReading {} arguments

end Invocation
end CommandLine
end CodeSurvey
