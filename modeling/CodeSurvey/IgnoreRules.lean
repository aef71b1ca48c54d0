import CodeSurvey.Glob
import CodeSurvey.Text.Blank
import CodeSurvey.Text.Lines

/-
Rules that tell which paths to leave out, or to keep to.  A rule is a name or a path, possibly with
wildcards: a slash at its end restricts it to directories, a slash inside or at its start ties it to
the root.  A rule that begins with an exclamation mark never applies.
-/

namespace CodeSurvey

structure IgnoreRule where
  raw : String
  body : String
  dirOnly : Bool
  anchored : Bool
  negated : Bool
  /-- none if the rule is taken literally -/
  glob : Option Glob
  deriving Repr, Inhabited

namespace IgnoreRule

open Text

def isWildcard (c : Char) : Bool := c == '*' || c == '?' || c == '['

/-- A body without wildcards is literal, and so is one that is no proper glob. -/
def compile (body : List Char) : Option Glob :=
  if body.any isWildcard then Glob.parse (String.ofList body) else none

/-- Reads a rule; blank lines and comments are none. -/
def parse (raw : String) : Option IgnoreRule :=
  let text := trim raw.toList
  if text.isEmpty || text.head? == some '#' then none
  else
    let plain := text.dropWhile (· == '!')
    let unclosed := dropEndWhile (· == '/') plain
    let body := unclosed.dropWhile (· == '/')
    if body.isEmpty then none
    else some
      { raw := String.ofList text
        body := String.ofList body
        dirOnly := 1 < plain.length && plain.getLast? == some '/'
        anchored := unclosed.head? == some '/'
        negated := text.head? == some '!'
        glob := compile body }

def matchesText (rule : IgnoreRule) (text : String) : Bool :=
  match rule.glob with
  | some glob => glob.matchesText text
  | none => text == rule.body

/-- The last segment of a path. -/
def lastSegment (path : String) : String :=
  String.ofList ((splitWhere (· == '/') path.toList).getLastD [])

/-- Whether the rule speaks of the whole path, and not only of its last segment. -/
def isRooted (rule : IgnoreRule) : Bool := rule.anchored || rule.body.toList.contains '/'

/-- Whether the rule applies to a path below the root. -/
def appliesTo (rule : IgnoreRule) (path : String) (isDir : Bool) : Bool :=
  if rule.negated || (rule.dirOnly && ! isDir) then false
  else rule.matchesText (if rule.isRooted then path else lastSegment path)

end IgnoreRule

/-- Rules of which any may apply. -/
structure IgnoreRules where
  rules : List IgnoreRule
  deriving Repr, Inhabited

namespace IgnoreRules

/-- The name of the file that holds the rules of a directory. -/
def fileName : String := ".gitignore"

def empty : IgnoreRules := ⟨[]⟩

def parse (patterns : List String) : IgnoreRules := ⟨patterns.filterMap IgnoreRule.parse⟩

/-- One rule on each line. -/
def ofText (text : List Char) : IgnoreRules := parse ((Text.lines text).map String.ofList)

def size (rules : IgnoreRules) : Nat := rules.rules.length

def isEmpty (rules : IgnoreRules) : Bool := rules.rules.isEmpty

def applyTo (rules : IgnoreRules) (path : String) (isDir : Bool) : Bool :=
  rules.rules.any (·.appliesTo path isDir)

end IgnoreRules
end CodeSurvey
