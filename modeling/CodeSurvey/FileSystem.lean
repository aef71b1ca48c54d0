import CodeSurvey.Path
import CodeSurvey.Text.Utf8

/-
Files and directories as a value, and how a path leads to them.  Links are followed on the way, and
at its end where that is asked for.  What a path leads to may still refuse to be read or listed.
-/

namespace CodeSurvey

/-- Why the file system refuses. -/
inductive IoFault where
  | notFound
  | failed
  | noDevice
  | denied
  | notDirectory
  | isDirectory
  | tooManyLinks
  | invalidText
  deriving Repr, DecidableEq, Inhabited

def IoFault.message : IoFault → String
  | notFound => "No such file or directory (os error 2)"
  | failed => "Input/output error (os error 5)"
  | noDevice => "No such device or address (os error 6)"
  | denied => "Permission denied (os error 13)"
  | notDirectory => "Not a directory (os error 20)"
  | isDirectory => "Is a directory (os error 21)"
  | tooManyLinks => "Too many levels of symbolic links (os error 40)"
  | invalidText => "stream did not contain valid UTF-8"

inductive FileTree where
  | file (content : List UInt8)
  | directory (entries : List (String × FileTree))
  | link (target : String)
  /-- a file whose size is known, but which cannot be opened -/
  | unreadable (size : Nat) (fault : IoFault)
  /-- a directory that can be neither listed nor entered -/
  | closed (fault : IoFault)
  /-- neither a file nor a directory nor a link, as a socket is -/
  | special
  deriving Repr, Inhabited

namespace FileTree

abbrev Entries := List (String × FileTree)

/-- The size of a file, whether it can be read or not. -/
def fileSize? : FileTree → Option Nat
  | file content => some content.length
  | unreadable size _ => some size
  | _ => none

/-- What a path comes to that reaches a tree which is neither an open directory nor a link, with
more names behind it.  A closed directory can be named, also with a separator behind it. -/
def reachedBefore (rest : List String) : FileTree → Except IoFault FileTree
  | closed fault => if rest.all (· == ".") then .ok (closed fault) else .error fault
  | tree => if rest.isEmpty then .ok tree else .error .notDirectory

def child? (entries : Entries) (name : String) : Option FileTree :=
  (entries.find? (·.1 == name)).map (·.2)

/-- Puts a tree at a path, with the directories that lead there.  A directory that is
there already stays. -/
def place (tree : FileTree) : List String → Entries → Entries
  | [], entries => entries
  | [name], entries =>
    match tree, child? entries name with
    | .directory [], some (.directory _) => entries
    | _, _ => entries.filter (·.1 != name) ++ [(name, tree)]
  | name :: rest, entries =>
    let inner := match child? entries name with
      | some (.directory inner) => inner
      | _ => []
    entries.filter (·.1 != name) ++ [(name, .directory (place tree rest inner))]

end FileTree

/-- All files, and the directory that relative paths start from, as names from the root. -/
structure FileSystem where
  root : FileTree.Entries
  workingDirectory : List String
  deriving Repr, Inhabited

namespace FileSystem

/-- On one path at most this many links are followed. -/
def maxLinks : Nat := 40

/-- The names on a path.  A separator at its end asks for a directory, as a dot does. -/
def steps (text : String) : List String :=
  let names := (Text.splitWhere (· == '/') text.toList).filter (! ·.isEmpty)
  let closing := if text.toList.getLast? == some '/' then [['.']] else []
  (names ++ closing).map String.ofList

def isAbsolute (text : String) : Bool := text.toList.head? == some '/'

/-- Follows names from a directory.  `stack` holds the directories from the
innermost to the root. -/
def follow (root : FileTree.Entries) (followLast : Bool) (links : Nat)
    (stack : List FileTree.Entries) (names : List String) : Except IoFault FileTree :=
  match names with
  | [] => .ok (.directory (stack.headD root))
  | name :: rest =>
    if name = "." then follow root followLast links stack rest
    else if name = ".." then follow root followLast links (stack.drop 1) rest
    else match FileTree.child? (stack.headD root) name with
      | none => .error .notFound
      | some (.directory entries) => follow root followLast links (entries :: stack) rest
      | some (.link target) =>
        if rest.isEmpty && ! followLast then .ok (.link target)
        else match links with
          | 0 => .error .tooManyLinks
          | links + 1 =>
            follow root followLast links (if isAbsolute target then [] else stack)
              (steps target ++ rest)
      | some tree => tree.reachedBefore rest
termination_by (links, names.length)

/-- What a path leads to.  The last name is followed if it is a link and `followLast` is set. -/
def locate (files : FileSystem) (followLast : Bool) (path : Path) : Except IoFault FileTree :=
  if path.text.isEmpty then .error .notFound
  else if isAbsolute path.text then follow files.root followLast maxLinks [] (steps path.text)
  else follow files.root followLast maxLinks [] (files.workingDirectory ++ steps path.text)

/-- The directory that one name leads to, as names from the root, if no link is involved. -/
def enter (directory : List String) (name : String) : List String :=
  if name = "." then directory
  else if name = ".." then directory.dropLast
  else directory ++ [name]

/-- The directories on a path that starts in a directory, the last one included. -/
def stations (directory : List String) : List String → List (List String)
  | [] => [directory]
  | name :: rest => directory :: stations (enter directory name) rest

def isDirectory (files : FileSystem) (path : Path) : Bool :=
  match files.locate true path with
  | .ok (.directory _) | .ok (.closed _) => true
  | _ => false

def isFile (files : FileSystem) (path : Path) : Bool :=
  match files.locate true path with
  | .ok tree => tree.fileSize?.isSome
  | .error _ => false

def read (files : FileSystem) (path : Path) : Except IoFault (List UInt8) :=
  match files.locate true path with
  | .ok (.file content) => .ok content
  | .ok (.unreadable _ fault) | .ok (.closed fault) => .error fault
  | .ok .special => .error .noDevice
  | .ok (.directory _) | .ok (.link _) => .error .isDirectory
  | .error fault => .error fault

def readText (files : FileSystem) (path : Path) : Except IoFault (List Char) :=
  match files.read path with
  | .ok content =>
    match Text.Utf8.decode content with
    | .ok text => .ok text
    | .error _ => .error .invalidText
  | .error fault => .error fault

end FileSystem
end CodeSurvey
