import Std.Data.TreeSet
import CodeSurvey.Text.Split

/-
Finding the file that an import names, among the files of a project.  A file is known by its key,
the path below the root with `/` between its segments.
-/

namespace CodeSurvey
namespace Resolve

open Text

abbrev Keys := Std.TreeSet String

def splitSegments (text : List Char) (separator : Char) : List String :=
  (splitWhere (· == separator) text).map String.ofList

/-- The directories of a key. -/
def directories (key : String) : List String := (splitSegments key.toList '/').dropLast

/-- The file name of a key. -/
def fileName (key : String) : String := (splitSegments key.toList '/').getLastD ""

def joined (segments : List String) : String := String.intercalate "/" segments

/-- The first candidate that is a file other than the current one. -/
def firstFile (keys : Keys) (current : String) (candidates : List String) : Option String :=
  candidates.find? fun candidate => keys.contains candidate && candidate != current

/-- Drops that many directories at the end; none if there are fewer. -/
def ascend (directories : List String) (count : Nat) : Option (List String) :=
  if directories.length < count then none else some (directories.take (directories.length - count))

def pythonFiles (module : String) : List String := [module ++ ".py", module ++ "/__init__.py"]

/-- The leading dots of a relative import name a directory: one the current, each
further its parent. -/
def pythonBase (current : String) (dots : Nat) : Option (List String) :=
  if dots = 0 then some [] else ascend (directories current) (dots - 1)

def python (keys : Keys) (current imported : String) : Option String :=
  let dots := (imported.toList.takeWhile (· == '.')).length
  let rest := (splitSegments (imported.toList.drop dots) '.').filter (! ·.isEmpty)
  match pythonBase current dots with
  | none => none
  | some base =>
    match base ++ rest with
    | [] => none
    | segments => firstFile keys current (pythonFiles (joined segments))

/-- The directory of the crate: the innermost `src` around the file, or its own directory. -/
def crateRoot (current : String) : List String :=
  let directories := directories current
  let below := directories.reverse.takeWhile (· != "src")
  if below.length = directories.length then directories
  else directories.take (directories.length - below.length)

/-- The name of a file without the extension of Rust files. -/
def stem (file : String) : String :=
  if endsWith ".rs".toList file.toList then String.ofList (file.toList.take (file.length - 3))
  else file

/-- The directory of the modules inside the module that a file defines. -/
def moduleDirectory (current : String) : List String :=
  let file := fileName current
  if ["lib.rs", "main.rs", "mod.rs"].contains file then directories current
  else directories current ++ [stem file]

def rustFiles (module : String) : List String := [module ++ ".rs", module ++ "/mod.rs"]

/-- The segments of a path, up to a list of names at its end. -/
def rustSegments (imported : String) : List String :=
  let path := match breakOn "::\x7b".toList imported.toList with
    | some (before, _) => before
    | none => imported.toList
  ((splitOn "::".toList path).map String.ofList).filter (! ·.isEmpty)

/-- Where a path starts: its directory and the segments below it. -/
def rustBase (current : String) : List String → Option (List String × List String)
  | "crate" :: rest => some (crateRoot current, rest)
  | "self" :: rest => some (moduleDirectory current, rest)
  | "super" :: rest =>
    let further := rest.takeWhile (· == "super")
    (ascend (moduleDirectory current) (further.length + 1)).map fun base =>
      (base, rest.drop further.length)
  | _ => none

/-- The longest beginning of the segments that names a file; a path may end in an item. -/
def longestModule (keys : Keys) (current : String) (base segments : List String) :
    Nat → Option String
  | 0 => none
  | count + 1 =>
    match firstFile keys current (rustFiles (joined (base ++ segments.take (count + 1)))) with
    | some file => some file
    | none => longestModule keys current base segments count

def rust (keys : Keys) (current imported : String) : Option String :=
  match rustBase current (rustSegments imported) with
  | none => none
  | some (base, segments) => longestModule keys current base segments segments.length

/-- The key of the file that an import in the file `current` names. -/
def resolve (keys : Keys) (language current imported : String) : Option String :=
  match language with
  | "Python" => python keys current imported
  | "Rust" => rust keys current imported
  | _ => none

end Resolve
end CodeSurvey
