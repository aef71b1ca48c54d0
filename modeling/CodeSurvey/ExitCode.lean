/-
Exit codes, for scripts to rely on.
-/

namespace CodeSurvey

inductive ExitCode where
  | success
  /-- something went wrong -/
  | error
  /-- the path or the arguments are of no use -/
  | invalidInput
  /-- the score is below the one asked for -/
  | checkFailed
  deriving Repr, DecidableEq, Inhabited

namespace ExitCode

def code : ExitCode → Nat
  | success => 0
  | error => 1
  | invalidInput => 2
  | checkFailed => 3

def ofResult : Except String Unit → ExitCode
  | .ok () => success
  | .error _ => error

/-- What the error stream gets to see of a result. -/
def notice : Except String Unit → String
  | .ok () => ""
  | .error text => s!"Error: {text}\n"

end ExitCode
end CodeSurvey
