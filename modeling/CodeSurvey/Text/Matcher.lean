import CodeSurvey.Text.Letter
import CodeSurvey.Text.Blank

/-
Matchers for the start of a text.  A matcher lists every way in which it can match, best first; a
sequence tries the ways of its first part in that order, so the first way of the whole is the one
that prefers long repetitions and present options, earlier parts before later ones.
-/

namespace CodeSurvey
namespace Text

/-- The ways to match the start of a text, each with its value and the text that is left. -/
abbrev Matcher (α : Type) := List Char → List (α × List Char)

namespace Matcher

def pure (a : α) : Matcher α := fun text => [(a, text)]

def bind (m : Matcher α) (f : α → Matcher β) : Matcher β := fun text =>
  (m text).flatMap fun (a, rest) => f a rest

instance : Monad Matcher where
  pure := pure
  bind := bind

/-- A fixed text. -/
def literal (expected : String) : Matcher Unit := fun text =>
  if expected.toList.isPrefixOf text then [((), text.drop expected.length)] else []

def oneOf (p : Char → Bool) : Matcher Char
  | c :: rest => if p c then [(c, rest)] else []
  | [] => []

/-- As many characters of a class as possible, then ever fewer. -/
def many (p : Char → Bool) : Matcher (List Char)
  | [] => [([], [])]
  | c :: rest =>
    if p c then (many p rest).map (fun (run, left) => (c :: run, left)) ++ [([], c :: rest)]
    else [([], c :: rest)]

/-- At least one character of a class. -/
def many1 (p : Char → Bool) : Matcher (List Char) := do
  let first ← oneOf p
  let run ← many p
  pure (first :: run)

/-- With the part if possible, else without. -/
def optional (m : Matcher α) : Matcher (Option α) := fun text =>
  (m text).map (fun (a, rest) => (some a, rest)) ++ [(none, text)]

def blanks : Matcher Unit := do
  let _ ← many isBlank
  pure ()

def blanks1 : Matcher Unit := do
  let _ ← many1 isBlank
  pure ()

def word : Matcher (List Char) := many1 isWordChar

/-- The text goes on with no word character. -/
def wordEnd : Matcher Unit := fun text =>
  match text with
  | c :: _ => if isWordChar c then [] else [((), text)]
  | [] => [((), text)]

/-- The best way to match. -/
def run (m : Matcher α) (text : List Char) : Option (α × List Char) := (m text).head?

end Matcher
end Text
end CodeSurvey
