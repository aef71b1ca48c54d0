import CodeSurvey.Path

/-
What is known about one source file: its functions, types, imports and figures.
-/

namespace CodeSurvey

/-- A place where the text does not follow the grammar; lines and columns count from 1. -/
structure SyntaxFault where
  line : Nat
  column : Nat
  message : String
  deriving Repr, DecidableEq, Inhabited

/-- At most this many syntax faults are recorded of one file. -/
def maxSyntaxFaults : Nat := 50

structure FunctionOutline where
  name : String
  startLine : Nat
  endLine : Nat
  parameters : List String := []
  returnType : String := ""
  complexity : Nat := 1
  isPublic : Bool := false
  isAsync : Bool := false
  hasDocstring : Bool := false
  deriving Repr, DecidableEq, Inhabited

namespace FunctionOutline

/-- A plain function on the given lines; it ends no earlier than it starts. -/
def ofLines (name : String) (startLine endLine : Nat) : FunctionOutline :=
  { name, startLine, endLine := max endLine startLine }

def lineCount (f : FunctionOutline) : Nat := f.endLine - f.startLine + 1

end FunctionOutline

inductive TypeKind where
  | classType
  | struct
  | interface
  deriving Repr, DecidableEq, Inhabited

def TypeKind.label : TypeKind → String
  | .classType => "class"
  | .struct => "struct"
  | .interface => "interface"

/-- A class, a structure or an interface with the functions that belong to it. -/
structure TypeOutline where
  name : String
  kind : TypeKind
  startLine : Nat
  endLine : Nat
  methods : List FunctionOutline := []
  fields : List String := []
  bases : List String := []
  complexity : Nat := 0
  hasDocstring : Bool := false
  deriving Repr, DecidableEq, Inhabited

namespace TypeOutline

def ofLines (name : String) (kind : TypeKind) (startLine endLine : Nat) : TypeOutline :=
  { name, kind, startLine, endLine := max endLine startLine }

def lineCount (t : TypeOutline) : Nat := t.endLine - t.startLine + 1

end TypeOutline

/-- Where an import comes from. -/
inductive DependencyKind where
  | standard
  | internal
  | external
  deriving Repr, DecidableEq, Inhabited

def DependencyKind.label : DependencyKind → String
  | .standard => "standard"
  | .internal => "internal"
  | .external => "external"

structure Dependency where
  name : String
  kind : DependencyKind
  file : Path
  usageCount : Nat := 1
  version : Option String := none
  deriving Repr, DecidableEq, Inhabited

structure FileReport where
  path : Path
  language : String
  lineCount : Nat := 0
  codeLines : Nat := 0
  commentLines : Nat := 0
  blankLines : Nat := 0
  maxLineLength : Nat := 0
  avgLineLength : Float := 0.0
  functions : List FunctionOutline := []
  types : List TypeOutline := []
  imports : List String := []
  dependencies : List Dependency := []
  complexity : Nat := 1
  maintainability : Float := 100.0
  technicalDebt : Float := 0.0
  faults : List SyntaxFault := []
  deriving Repr, Inhabited

namespace FileReport

/-- The functions that belong to types, type by type. -/
def methods (report : FileReport) : List FunctionOutline := report.types.flatMap TypeOutline.methods

def hasFaults (report : FileReport) : Bool := ! report.faults.isEmpty

end FileReport

/-- One thing that a source file declares. -/
inductive Declaration where
  | function (f : FunctionOutline)
  | type (t : TypeOutline)
  | import (name : String)
  deriving Repr, DecidableEq, Inhabited

namespace FileReport

/-- A report with one more declaration.  An import counts once, where it stands first. -/
def declare (report : FileReport) : Declaration → FileReport
  | .function f => { report with functions := report.functions ++ [f] }
  | .type t => { report with types := report.types ++ [t] }
  | .import name =>
    if report.imports.contains name then report
    else { report with imports := report.imports ++ [name] }

/-- The outline of a file, before any figure is derived from it. -/
def assemble (path : Path) (language : String) (declarations : List Declaration)
    (faults : List SyntaxFault) : FileReport :=
  { declarations.foldl declare { path, language } with faults }

end FileReport
end CodeSurvey
