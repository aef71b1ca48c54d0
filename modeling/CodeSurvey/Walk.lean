import CodeSurvey.FileSystem
import CodeSurvey.IgnoreRules
import CodeSurvey.Registry
import CodeSurvey.Settings

/-
Walking a directory for the files to look at.  Entries come in the order of their names, the
contents of a directory in its place; links to directories are not entered.
-/

namespace CodeSurvey

/-- A file that passed every rule, with the language that will outline it. -/
structure Discovered where
  path : Path
  size : Nat
  language : Language
  deriving Inhabited

/-- What becomes of an entry. -/
inductive Visit where
  | found (file : Discovered)
  | excluded
  | oversize
  | unsupported
  | failed (fault : Fault)
  deriving Inhabited

structure Walk where
  files : FileSystem
  root : Path
  registry : Registry
  excludes : IgnoreRules
  includes : IgnoreRules
  ignored : IgnoreRules
  maxFileSize : Nat
  deriving Inhabited

namespace Walk

/-- The rules of the directory's own ignore file; one that cannot be read has none. -/
def ignoreRulesOf (files : FileSystem) (root : Path) : IgnoreRules :=
  match files.readText (root.join IgnoreRules.fileName) with
  | .ok text => .ofText text
  | .error _ => .empty

def ofSettings (files : FileSystem) (root : Path) (settings : Settings) (registry : Registry) :
    Walk where
  files
  root
  registry
  excludes := .parse settings.excludePatterns
  includes := .parse settings.includePatterns
  ignored := if settings.respectGitignore then ignoreRulesOf files root else .empty
  maxFileSize := settings.maxFileSize

/-- The path that rules are about: below the root, or the name of the root itself. -/
def relative (root path : Path) : String :=
  match path.stripPrefix? root with
  | some rest => if rest.text == "" then path.fileName?.getD "" else rest.normalized
  | none => path.fileName?.getD ""

def isExcluded (walk : Walk) (path : Path) (isDir : Bool) : Bool :=
  walk.excludes.applyTo (relative walk.root path) isDir
    || walk.ignored.applyTo (relative walk.root path) isDir

/-- With rules to keep to, other files are left out. -/
def isIncluded (walk : Walk) (path : Path) : Bool :=
  walk.includes.isEmpty || walk.includes.applyTo (relative walk.root path) false

/-- What becomes of a file of the given size. -/
def fateOf (walk : Walk) (path : Path) (size : Nat) : Visit :=
  if walk.maxFileSize < size then .oversize
  else match walk.registry.resolve path with
    | .ok language => .found ⟨path, size, language⟩
    | .error _ => .unsupported

/-- What becomes of an entry that is no directory, if it is a file or a link to one. -/
def classify (walk : Walk) (path : Path) (target : Except String FileTree) : List Visit :=
  if walk.isExcluded path false || ! walk.isIncluded path then [.excluded]
  else match target with
    | .ok tree => (tree.fileSize?.map (walk.fateOf path)).toList
    | .error reason => [.failed (.walk path reason)]

/-- What a link leads to. -/
def linkTarget (walk : Walk) (path : Path) : Except String FileTree :=
  match walk.files.locate true path with
  | .ok tree => .ok tree
  | .error fault => .error ("broken symlink: " ++ fault.message)

/-- Entries in the order of their names. -/
def inOrder (entries : List (String × List Visit)) : List Visit :=
  (entries.mergeSort fun a b => a.1 ≤ b.1).flatMap (·.2)

mutual

/-- The visits of an entry below the root. -/
def visit (walk : Walk) (path : Path) : FileTree → List Visit
  | .directory entries =>
    if walk.isExcluded path true then [.excluded] else inOrder (visitAll walk path entries)
  | .closed fault =>
    if walk.isExcluded path true then [.excluded] else [.failed (.walk path fault.message)]
  | .file content => walk.classify path (.ok (.file content))
  | .unreadable size fault => walk.classify path (.ok (.unreadable size fault))
  | .link _ => walk.classify path (walk.linkTarget path)
  | .special => []

/-- The visits of the entries of a directory, by their names. -/
def visitAll (walk : Walk) (directory : Path) :
    List (String × FileTree) → List (String × List Visit)
  | [] => []
  | (name, tree) :: rest =>
    (name, visit walk (directory.join name) tree) :: visitAll walk directory rest

end

def contents (walk : Walk) (entries : FileTree.Entries) : List Visit :=
  inOrder (walk.visitAll walk.root entries)

/-- All visits from the root, which no rule leaves out.  A link at the root is entered,
but is an entry too. -/
def visits (walk : Walk) : List Visit :=
  match walk.files.locate false walk.root with
  | .error fault | .ok (.closed fault) => [.failed (.walk walk.root fault.message)]
  | .ok (.directory entries) => walk.contents entries
  | .ok (.link _) =>
    match walk.files.locate true walk.root with
    | .error fault => [.failed (.walk walk.root fault.message)]
    | .ok (.directory entries) =>
      walk.classify walk.root (walk.linkTarget walk.root) ++ walk.contents entries
    | .ok (.closed fault) =>
      walk.classify walk.root (walk.linkTarget walk.root) ++
        [.failed (.walk walk.root fault.message)]
    | .ok _ => walk.classify walk.root (walk.linkTarget walk.root)
  | .ok .special => []
  | .ok tree => walk.classify walk.root (.ok tree)

/-- The files found and the faults met, in order. -/
def entries (walk : Walk) : List (Except Fault Discovered) :=
  walk.visits.filterMap fun
    | .found file => some (.ok file)
    | .failed fault => some (.error fault)
    | _ => none

def found (walk : Walk) : List Discovered :=
  walk.entries.filterMap fun
    | .ok file => some file
    | .error _ => none

def faults (walk : Walk) : List Fault :=
  walk.entries.filterMap fun
    | .ok _ => none
    | .error fault => some fault

end Walk

/-- How many entries met which fate. -/
structure WalkCounts where
  totalFiles : Nat := 0
  byExtension : Std.TreeMap String Nat := {}
  excluded : Nat := 0
  oversize : Nat := 0
  unsupported : Nat := 0
  errors : Nat := 0
  deriving Inhabited

namespace WalkCounts

/-- The extension of a file in lower case, with its dot. -/
def extensionOf (path : Path) : String :=
  match path.extension? with
  | some extension => String.ofList ('.' :: Text.lower extension.toList)
  | none => ""

def add (counts : WalkCounts) : Visit → WalkCounts
  | .found file =>
    { counts with
      totalFiles := counts.totalFiles + 1
      byExtension := counts.byExtension.alter (extensionOf file.path) fun n => some (n.getD 0 + 1) }
  | .excluded => { counts with excluded := counts.excluded + 1 }
  | .oversize => { counts with oversize := counts.oversize + 1 }
  | .unsupported => { counts with unsupported := counts.unsupported + 1 }
  | .failed _ => { counts with errors := counts.errors + 1 }

def ofWalk (walk : Walk) : WalkCounts := walk.visits.foldl add {}

end WalkCounts
end CodeSurvey
