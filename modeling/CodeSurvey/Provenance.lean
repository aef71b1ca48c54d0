import CodeSurvey.FileReport
import CodeSurvey.Text.Blank
import CodeSurvey.Text.Split

/-
Where an import comes from, as far as its name tells.
-/

namespace CodeSurvey
namespace DependencyKind

open Text

/-- The modules that come with Python. -/
def pythonStandard : List String :=
  ["__future__", "abc", "argparse", "array", "ast", "asyncio", "base64", "bisect", "builtins",
    "bz2", "calendar", "cmath", "collections", "concurrent", "configparser", "contextlib",
    "contextvars", "copy", "csv", "ctypes", "dataclasses", "datetime", "decimal", "difflib",
    "dis", "email", "enum", "errno", "fnmatch", "fractions", "functools", "gc", "getpass",
    "gettext", "glob", "gzip", "hashlib", "heapq", "hmac", "html", "http", "importlib",
    "inspect", "io", "ipaddress", "itertools", "json", "keyword", "linecache", "locale",
    "logging", "lzma", "math", "mimetypes", "multiprocessing", "numbers", "operator", "os",
    "pathlib", "pickle", "platform", "pprint", "queue", "random", "re", "secrets", "select",
    "selectors", "shlex", "shutil", "signal", "socket", "sqlite3", "ssl", "stat", "statistics",
    "string", "struct", "subprocess", "sys", "sysconfig", "tarfile", "tempfile", "textwrap",
    "threading", "time", "timeit", "tkinter", "token", "tokenize", "traceback", "types",
    "typing", "unicodedata", "unittest", "urllib", "uuid", "warnings", "weakref", "xml",
    "zipfile", "zlib", "zoneinfo"]

/-- The crates that come with Rust. -/
def rustStandard : List String := ["std", "core", "alloc", "proc_macro", "test"]

/-- The path segments that stay inside a crate. -/
def rustInternal : List String := ["crate", "self", "super"]

/-- The text before the first occurrence of `separator`. -/
def headSegment (separator name : List Char) : String :=
  match breakOn separator name with
  | some (before, _) => String.ofList before
  | none => String.ofList name

def hasInternalSegment (name : List Char) : Bool :=
  (splitWhere (fun c => c == '/' || c == '.' || c == ':') name).contains "internal".toList

/-- The kind of an import in a language.  Relative names and names with an `internal` segment belong
to the project in every language. -/
def ofImport (language importName : String) : DependencyKind :=
  let name := dropRepeats "::".toList (trim importName.toList)
  if name.head? == some '.' || hasInternalSegment name then .internal
  else match language with
    | "Python" => if pythonStandard.contains (headSegment ['.'] name) then .standard else .external
    | "Rust" =>
      let top := headSegment "::".toList name
      if rustInternal.contains top then .internal
      else if rustStandard.contains top then .standard
      else .external
    | "Go" => if (upTo (· == '/') name).contains '.' then .external else .standard
    | _ => .external

end DependencyKind
end CodeSurvey
