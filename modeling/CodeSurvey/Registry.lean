import Std.Data.TreeMap
import CodeSurvey.Language
import CodeSurvey.Outline.GoOutline
import CodeSurvey.Outline.PythonOutline
import CodeSurvey.Outline.RustOutline
import CodeSurvey.Text.Lowercase

/-
Languages by the extensions of their files.
-/

namespace CodeSurvey

/-- Extensions are in lower case with a dot before them. -/
structure Registry where
  languages : Std.TreeMap String Language

namespace Registry

open Text

instance : Inhabited Registry := ⟨⟨{}⟩⟩

def empty : Registry := ⟨{}⟩

/-- The normal form of an extension; none if there is nothing to it. -/
def normalize (extension : String) : Option String :=
  match (trim extension.toList).dropWhile (· == '.') with
  | [] => none
  | name => some (String.ofList ('.' :: lower name))

/-- The normal forms of the extensions that a language declares. -/
def extensionsOf (language : Language) : List String := language.extensions.filterMap normalize

/-- Adds a language.  Of two languages with one extension, the later has it. -/
def register (registry : Registry) (language : Language) : Except Fault Registry :=
  match extensionsOf language with
  | [] => .error (.invalidLanguage language.name "parser declares no file extensions")
  | extensions => .ok ⟨extensions.foldl (fun map e => map.insert e language) registry.languages⟩

/-- Adds languages one after another, up to the first that cannot be. -/
def registerAll (registry : Registry) : List Language → Except Fault Registry
  | [] => .ok registry
  | language :: rest =>
    match registry.register language with
    | .ok registry => registry.registerAll rest
    | .error fault => .error fault

/-- The normal form of the extension of a path. -/
def extensionOf (path : Path) : Option String := path.extension?.bind normalize

/-- The language of a file. -/
def resolve (registry : Registry) (path : Path) : Except Fault Language :=
  let extension := (extensionOf path).getD ""
  match registry.languages[extension]? with
  | some language => .ok language
  | none => .error (.unsupportedExtension extension path)

def supports (registry : Registry) (path : Path) : Bool :=
  match extensionOf path with
  | some extension => registry.languages.contains extension
  | none => false

/-- All extensions, in order. -/
def extensions (registry : Registry) : List String := registry.languages.keys

/-- The names of the languages that have an extension, in order. -/
def languageNames (registry : Registry) : List String :=
  (registry.languages.foldl (fun names _ language => names.insert language.name ())
    ({} : Std.TreeMap String Unit)).keys

def isEmpty (registry : Registry) : Bool := registry.languages.isEmpty

def builtins : List Language := [PythonOutline.language, RustOutline.language, GoOutline.language]

/-- The registry of the languages known from the start. -/
def standard : Registry :=
  match empty.registerAll builtins with
  | .ok registry => registry
  | .error _ => empty

end Registry
end CodeSurvey
