import CodeSurvey.CommandLine.Execution
import CodeSurvey.Json.Printer

/-
The program: it reads the files that a command is about, carries the command out on them and prints
what comes of it.
-/

namespace CodeSurvey
namespace Program

/-- The reason that the system gives, as far as it is told apart. -/
def faultOf : IO.Error → IoFault
  | .permissionDenied .. => .denied
  | .noFileOrDirectory .. => .notFound
  | _ => .failed

/-- The file that a path leads to, or what is known of one that cannot be read. -/
def readFile (path : String) : IO FileTree := do
  let size := (← (← IO.FS.realPath path).metadata).byteSize.toNat
  try return .file (← IO.FS.readBinFile path).toList
  catch error => return .unreadable size (faultOf error)

mutual

/-- What an entry of a directory holds.  A link to a file counts as the file, a link to a directory
leads to some directory, and a link that is broken leads nowhere. -/
partial def readEntry (path : String) (type : IO.FS.FileType) : IO FileTree := do
  match type with
  | .dir => readDirectory path
  | .file => readFile path
  | .other => return .special
  | .symlink =>
    try
      match (← (← IO.FS.realPath path).metadata).type with
      | .dir => return .link "/"
      | .file => readFile path
      | _ => return .special
    catch _ => return .link "/unreadable"

partial def readDirectory (directory : String) : IO FileTree := do
  try
    let entries ← (← IO.FS.realPath directory).readDir
    return .directory (← entries.toList.mapM fun entry => do
      return (entry.fileName, ← readEntry entry.path.toString (← entry.path.symlinkMetadata).type))
  catch error => return .closed (faultOf error)

end

def textOf (names : List String) : String := "/" ++ String.intercalate "/" names

/-- Puts the file at a path into a tree, if there is one. -/
def addFile (names : List String) (root : FileTree.Entries) : IO FileTree.Entries := do
  try return FileTree.place (← readFile (textOf names)) names root
  catch _ => return root

/-- Whether a path leads to a directory. -/
def isDirectory (path : String) : IO Bool := do
  try (← IO.FS.realPath path).isDir
  catch _ => return false

def addDirectory (names : List String) (root : FileTree.Entries) : IO FileTree.Entries := do
  if ← isDirectory (textOf names) then return FileTree.place (.directory []) names root
  else return root

/-- The files that matter to a path: all below a directory, or a file and the settings beside it. -/
def gather (path : Option Path) : IO FileSystem := do
  let workingDirectory := FileSystem.steps (← IO.currentDir).toString
  let root := FileTree.place (.directory []) workingDirectory []
  match path with
  | none => return { root, workingDirectory }
  | some path =>
    let start := if path.isAbsolute then [] else workingDirectory
    let stations := FileSystem.stations start (FileSystem.steps path.text)
    let root ← stations.foldlM (fun root names => addDirectory names root) root
    let target := stations.getLastD start
    if ← isDirectory (textOf target) then
      match target, ← readDirectory (textOf target) with
      | [], .directory entries => return { root := entries, workingDirectory }
      | _, directory => return { root := FileTree.place directory target root, workingDirectory }
    else
      let root ← addFile target root
      let root ← addFile (target.dropLast ++ [Settings.fileName]) root
      return { root, workingDirectory }

def printed : CommandLine.Printed → String
  | .lines lines => CommandLine.unlines lines
  | .json value => value.print ++ "\n"

/-- The number of workers where the settings leave it open. -/
def processors : Nat := 4

def execute (command : CommandLine.Command) : IO ExitCode := do
  let start ← IO.monoMsNow
  let files ← gather command.path?
  let colors ← (← IO.getStdout).isTty
  match command.execute ⟨files, processors⟩ with
  | .error failure =>
    IO.eprintln (CommandLine.Style.paint colors .alarm "Error:" ++ " " ++ failure.message)
    return .error
  | .ok done =>
    IO.eprint done.notice
    let stop ← IO.monoMsNow
    IO.print (printed (done.finding.print command.json colors (stop - start)))
    return done.exit

/-- Shows why the arguments were not taken, or what they ask for. -/
def refuse (refusal : CommandLine.Refusal) : IO ExitCode := do
  match refusal with
  | .help => IO.print (CommandLine.unlines CommandLine.usage)
  | .version => IO.println CommandLine.versionLine
  | _ => IO.eprintln ("error: " ++ refusal.message)
  return refusal.exit

def run (arguments : List String) : IO ExitCode := do
  match CommandLine.Invocation.ofArguments arguments with
  | .error refusal => refuse refusal
  | .ok invocation =>
    match invocation.command with
    | some command => execute command
    | none => refuse .help

end Program
end CodeSurvey

def main (arguments : List String) : IO UInt32 := do
  return (← CodeSurvey.Program.run arguments).code.toUInt32
