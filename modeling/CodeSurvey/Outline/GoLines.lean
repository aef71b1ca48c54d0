import CodeSurvey.Text.Lines

/-
Lines of Go without what does not count: comments are removed, and of a literal only its quotes
stay.
-/

namespace CodeSurvey
namespace GoOutline

open Text

/-- A line as it is written, and its code. -/
structure Line where
  raw : List Char
  code : List Char
  deriving Repr, DecidableEq, Inhabited

/-- What the next character of a text stands in. -/
inductive Inside where
  | code
  | comment
  /-- a literal that may go on over lines -/
  | rawString
  /-- a literal that ends with its line at the latest -/
  | literal (quote : Char)
  deriving Repr, DecidableEq, Inhabited

def isQuote (c : Char) : Bool := c == '"' || c == '\''

/-- The code of one line, and what its end stands in. -/
def strip : Inside → List Char → List Char × Inside
  | .literal quote, [] => ([quote], .code)
  | inside, [] => ([], inside)
  | .comment, '*' :: '/' :: rest => strip .code rest
  | .comment, _ :: rest => strip .comment rest
  | .rawString, c :: rest =>
    if c == rawQuote then
      let (code, inside) := strip .code rest
      (c :: code, inside)
    else strip .rawString rest
  | .literal quote, ['\\'] => ([quote], .code)
  | .literal quote, '\\' :: _ :: rest => strip (.literal quote) rest
  | .literal quote, c :: rest =>
    if c == quote then
      let (code, inside) := strip .code rest
      (c :: code, inside)
    else strip (.literal quote) rest
  | .code, '/' :: '/' :: _ => ([], .code)
  | .code, '/' :: '*' :: rest => strip .comment rest
  | .code, c :: rest =>
    let next := if c == rawQuote then Inside.rawString else if isQuote c then .literal c else .code
    let (code, inside) := strip next rest
    (c :: code, inside)

theorem strip_code_rawQuote (rest : List Char) :
    strip .code (rawQuote :: rest) =
      (rawQuote :: (strip .rawString rest).1, (strip .rawString rest).2) := by
  rw [strip]
  · simp
  · simp [rawQuote]
  · simp [rawQuote]

theorem strip_rawString_cons {c : Char} {rest : List Char} (h : c ≠ rawQuote) :
    strip .rawString (c :: rest) = strip .rawString rest := by
  simp [strip, h]

theorem strip_rawString_quote (rest : List Char) :
    strip .rawString (rawQuote :: rest) =
      (rawQuote :: (strip .code rest).1, (strip .code rest).2) := by
  simp [strip]

/-- The lines of a text that begins inside `inside`. -/
def stripFrom (inside : Inside) : List (List Char) → List Line
  | [] => []
  | raw :: rest =>
    let (code, next) := strip inside raw
    ⟨raw, code⟩ :: stripFrom next rest

def stripLines (source : List Char) : List Line := stripFrom .code (Text.lines source)

theorem length_stripFrom (inside : Inside) (raws : List (List Char)) :
    (stripFrom inside raws).length = raws.length := by
  induction raws generalizing inside with
  | nil => rfl
  | cons raw rest ih => simp [stripFrom, ih]

end GoOutline
end CodeSurvey
