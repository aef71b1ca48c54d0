import CodeSurvey.FileSystem
import CodeSurvey.Settings

/-
The settings of a directory, from the file that holds them.
-/

namespace CodeSurvey
namespace Settings

/-- The settings of a directory.  Without a file they are the standard ones; those of a file
must hold together. -/
def load (files : FileSystem) (directory : Path) : Except Fault Settings :=
  let path := directory.join fileName
  if ! files.isFile path then .ok standard
  else match files.readText path with
    | .error fault => .error (.io path fault.message)
    | .ok text =>
      match ofText text with
      | none => .error (.toml path "")
      | some settings =>
        match settings.validate with
        | .ok () => .ok settings
        | .error fault => .error fault

end Settings
end CodeSurvey
