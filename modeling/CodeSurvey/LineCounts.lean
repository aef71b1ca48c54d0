import CodeSurvey.Language
import CodeSurvey.Sum
import CodeSurvey.Text.Blank
import CodeSurvey.Text.Lines
import CodeSurvey.Text.Split

/-
Counting the lines of a text: blank ones, those of comments, and code.
-/

namespace CodeSurvey

inductive LineClass where
  | code
  | comment
  | blank
  deriving Repr, DecidableEq, Inhabited

namespace LineClass

open Text

/-- The line without the contents of its literals, read from inside a literal with the given quote
or from outside.  A single quote that closes nothing within one character stands for itself. -/
def blankLiterals : Option Char → List Char → List Char
  | _, [] => []
  | some '"', ['\\'] => []
  | some '"', '\\' :: _ :: rest => blankLiterals (some '"') rest
  | some quote, c :: rest =>
    if c == quote then c :: blankLiterals none rest else blankLiterals (some quote) rest
  | none, '\'' :: '\\' :: _ :: '\'' :: rest => '\'' :: '\'' :: blankLiterals none rest
  | none, '\'' :: c :: '\'' :: rest =>
    if c == '\\' then '\'' :: blankLiterals none (c :: '\'' :: rest)
    else '\'' :: '\'' :: blankLiterals none rest
  | none, c :: rest =>
    if c == '"' || c == rawQuote then c :: blankLiterals (some c) rest
    else c :: blankLiterals none rest

def isQuoteLike (delimiter : String) : Bool :=
  match delimiter.toList with
  | c :: _ => c == '"' || c == '\''
  | [] => false

/-- Whether a block that begins with `opening` stays open at the end of `code`. -/
def staysOpen (lineMarks : List String) (opening closing : String) (code : List Char) : Bool :=
  match breakOn opening.toList code with
  | none => false
  | some (before, after) =>
    let commentedOut := lineMarks.any fun mark =>
      match find mark.toList code with
      | some position => position < before.length
      | none => false
    ! commentedOut && ! contains closing.toList after

/-- The closing delimiter of a block that a line of code leaves open.  Delimiters inside literals do
not count, unless the delimiter itself is made of quotes. -/
def openedBlock (delimiters : CommentSyntax) (line : List Char) : Option String :=
  (delimiters.block.find? fun (opening, closing) =>
    staysOpen delimiters.line opening closing
      (if isQuoteLike opening then line else blankLiterals none line)).map (·.2)

/-- The class of a line and the block that is open after it, given the one
that is open before it. -/
def ofLine (delimiters : CommentSyntax) (openBlock : Option String) (line : List Char) :
    LineClass × Option String :=
  let text := trim line
  match openBlock with
  | some closing => (.comment, if contains closing.toList text then none else some closing)
  | none =>
    if text.isEmpty then (.blank, none)
    else if delimiters.line.any fun mark => mark.toList.isPrefixOf text then (.comment, none)
    else match delimiters.block.find? fun (opening, _) => opening.toList.isPrefixOf text with
      | some (opening, closing) =>
        let rest := text.drop opening.length
        (.comment, if contains closing.toList rest then none else some closing)
      | none => (.code, openedBlock delimiters text)

/-- The classes of lines that begin with the given block open. -/
def ofLines (delimiters : CommentSyntax) (openBlock : Option String) :
    List (List Char) → List LineClass
  | [] => []
  | line :: rest =>
    let (lineClass, after) := ofLine delimiters openBlock line
    lineClass :: ofLines delimiters after rest

/-- The block that is open after some lines. -/
def openAfter (delimiters : CommentSyntax) (openBlock : Option String) :
    List (List Char) → Option String
  | [] => openBlock
  | line :: rest => openAfter delimiters (ofLine delimiters openBlock line).2 rest

theorem ofLines_append (delimiters : CommentSyntax) (openBlock : Option String)
    (a b : List (List Char)) :
    ofLines delimiters openBlock (a ++ b) =
      ofLines delimiters openBlock a ++
        ofLines delimiters (openAfter delimiters openBlock a) b := by
  induction a generalizing openBlock with
  | nil => rfl
  | cons line rest ih => simp [ofLines, openAfter, ih]

end LineClass

structure LineCounts where
  total : Nat
  code : Nat
  comment : Nat
  blank : Nat
  maxLength : Nat
  avgLength : Float
  deriving Repr, Inhabited

namespace LineCounts

open Text

/-- The lines of a text, without carriage returns at their ends. -/
def linesOf (text : List Char) : List (List Char) :=
  (lines text).map (dropEndWhile (· == '\r'))

def average (sum count : Nat) : Float :=
  if count = 0 then 0.0 else Float.ofNat sum / Float.ofNat count

def ofText (delimiters : CommentSyntax) (text : List Char) : LineCounts :=
  let lines := linesOf text
  let classes := LineClass.ofLines delimiters none lines
  let lengths := lines.map List.length
  { total := lines.length
    code := classes.count .code
    comment := classes.count .comment
    blank := classes.count .blank
    maxLength := lengths.foldl max 0
    avgLength := average lengths.sum lines.length }

end LineCounts
end CodeSurvey
