import CodeSurvey.Syntax.Token
import CodeSurvey.Text.Letter

/-
Tokens of Python.  Lines and indentation are recorded with the tokens; which of them end a statement
or a block is the grammar's business.  A literal with replacement fields becomes an opening and a
closing token with the tokens of the fields between them.
-/

namespace CodeSurvey
namespace Syntax
namespace PythonTokens

structure Quote where
  mark : Char
  triple : Bool
  /-- whether braces open replacement fields -/
  format : Bool
  deriving Repr, DecidableEq, Inhabited

/-- What the reading position is inside of. -/
inductive Frame where
  /-- the text of a literal with replacement fields -/
  | text (quote : Quote)
  /-- a replacement field, with so many brackets open and so many colons to come outside of them
  that do not begin a format -/
  | field (depth : Nat) (colons : Nat)
  /-- the format of a replacement field -/
  | format
  deriving Repr, DecidableEq, Inhabited

structure State where
  place : Place
  frames : List Frame
  /-- whether a line ended since the last token -/
  lineBreak : Bool
  /-- whether a line ended since the last token or comment -/
  fresh : Bool
  indent : Nat
  comments : List Comment
  deriving Repr, Inhabited

def State.start : State := ⟨.start, [], false, false, 0, []⟩

/-- The token over `text` at the current place, and the state after it. -/
def State.emit (state : State) (sort : TokenSort) (text : List Char) : Token × State :=
  let stop := state.place.after text
  (⟨sort, String.ofList text, ⟨state.place, stop⟩, state.lineBreak, state.indent,
      state.comments.reverse, false, false⟩,
    { state with place := stop, lineBreak := false, fresh := false, comments := [] })

/-- Passes one blank character. -/
def State.blank (state : State) (c : Char) : State :=
  let state := { state with place := state.place.next c }
  if c == '\n' then { state with lineBreak := true, fresh := true, indent := 0 }
  else if c == ' ' then { state with indent := state.indent + 1 }
  else if c == '\t' then { state with indent := state.indent + 8 }
  else if c == '\r' || c == '\x0c' then { state with indent := 0 }
  else state

def State.comment (state : State) (text : List Char) : State :=
  let stop := state.place.after text
  let comment : Comment :=
    ⟨String.ofList text, ⟨state.place, stop⟩, if state.fresh then some state.indent else none,
      false⟩
  { state with place := stop, fresh := false, comments := comment :: state.comments }

def isBlank (c : Char) : Bool :=
  c == ' ' || (9 ≤ c.toNat && c.toNat ≤ 13) || c.toNat == 0xFEFF || c.toNat == 0x2060
    || c.toNat == 0x200B

/-- The rest of a literal without fields and the text after it; none if the literal does not end. -/
def literalEnd (quote : Quote) : List Char → Option (List Char × List Char)
  | [] => none
  | '\\' :: c :: rest => (literalEnd quote rest).map fun (text, after) => ('\\' :: c :: text, after)
  | c :: rest =>
    if c == quote.mark && ! quote.triple then some ([c], rest)
    else if c == quote.mark && rest.take 2 == [c, c] then some ([c, c, c], rest.drop 2)
    else if c == '\n' && ! quote.triple then none
    else (literalEnd quote rest).map fun (text, after) => (c :: text, after)

/-- The text of a literal up to the next replacement field or the closing quote. -/
def textPart (quote : Quote) : List Char → Option (List Char × List Char)
  | [] => none
  | '\\' :: 'N' :: '\x7b' :: rest =>
    (textPart quote rest).map fun (text, after) => ('\\' :: 'N' :: '\x7b' :: text, after)
  | '\\' :: c :: rest =>
    if c == '\x7b' then some (['\\'], c :: rest)
    else (textPart quote rest).map fun (text, after) => ('\\' :: c :: text, after)
  | '\x7b' :: '\x7b' :: rest =>
    (textPart quote rest).map fun (text, after) => ('\x7b' :: '\x7b' :: text, after)
  | c :: rest =>
    if c == '\x7b' then some ([], c :: rest)
    else if c == quote.mark && (! quote.triple || rest.take 2 == [c, c]) then some ([], c :: rest)
    else if c == '\n' && ! quote.triple then none
    else (textPart quote rest).map fun (text, after) => (c :: text, after)

/-- Letters that may stand before an opening quote. -/
def isQuoteLetter (c : Char) : Bool := "fFrRbBuU".toList.contains c

def isQuote (c : Char) : Bool := c == '"' || c == '\'' || c.toNat == 0x60

/-- The opening of a literal: the letters before the quote, the quote, and the text after it. -/
def opening? (text : List Char) : Option (Quote × List Char × List Char) :=
  let letters := text.takeWhile isQuoteLetter
  match text.drop letters.length with
  | c :: rest =>
    if isQuote c then
      let triple := c.toNat != 0x60 && rest.take 2 == [c, c]
      let marks := if triple then [c, c, c] else [c]
      some (⟨c, triple, letters.any fun l => l == 'f' || l == 'F'⟩, letters ++ marks,
        rest.drop (marks.length - 1))
    else none
  | [] => none

/-- The marks of more than one character, longer ones first. -/
def longMarks : List String :=
  ["**=", "//=", ">>=", "<<=", "...", "->", ":=", "==", "!=", "<=", ">=", "<>", "+=", "-=", "*=",
    "/=", "%=", "&=", "|=", "^=", "@=", "**", "//", ">>", "<<"]

def isDigitOrBar (c : Char) : Bool := c.isDigit || c == '_'

/-- The length of an exponent, sign included. -/
def exponentLength : List Char → Nat
  | e :: rest =>
    if e == 'e' || e == 'E' then
      match rest with
      | s :: d :: more =>
        if s.isDigit then 1 + (rest.takeWhile isDigitOrBar).length
        else if (s == '+' || s == '-') && d.isDigit then
          2 + ((d :: more).takeWhile isDigitOrBar).length
        else 0
      | [d] => if d.isDigit then 2 else 0
      | [] => 0
    else 0
  | [] => 0

/-- The length of the number at the start of a text. -/
def numberLength (text : List Char) : Nat :=
  match text with
  | '0' :: x :: rest =>
    if "xXoObB".toList.contains x then
      let digits := rest.takeWhile fun c =>
        isDigitOrBar c || ('a' ≤ c && c ≤ 'f') || ('A' ≤ c && c ≤ 'F')
      2 + digits.length + suffixLength "lL" (rest.drop digits.length)
    else decimalLength text
  | _ => decimalLength text
where
  decimalLength (text : List Char) : Nat :=
    let whole := (text.takeWhile isDigitOrBar).length
    let rest := text.drop whole
    let fraction := match rest with
      | '.' :: more => 1 + (more.takeWhile isDigitOrBar).length
      | _ => 0
    let rest := rest.drop fraction
    let exponent := exponentLength rest
    whole + fraction + exponent + suffixLength "jJlL" (rest.drop exponent)
  suffixLength (letters : String) (text : List Char) : Nat :=
    match text with
    | c :: _ => if letters.toList.contains c then 1 else 0
    | [] => 0

/-- Opening and closing brackets inside a replacement field. -/
def State.bracket (state : State) (c : Char) : State :=
  match state.frames with
  | .field depth colons :: below =>
    if c == '(' || c == '[' || c == '\x7b' then
      { state with frames := .field (depth + 1) colons :: below }
    else if c == ')' || c == ']' || c == '\x7d' then
      { state with frames := .field (depth - 1) colons :: below }
    else state
  | _ => state

/-- A `lambda` outside of brackets has a colon of its own. -/
def State.word (state : State) (text : List Char) : State :=
  match state.frames with
  | .field 0 colons :: below =>
    if text == "lambda".toList then { state with frames := .field 0 (colons + 1) :: below }
    else state
  | _ => state

/-- A colon outside of brackets begins a format, unless it belongs to a `lambda`. -/
def State.colon (state : State) : State :=
  match state.frames with
  | .field 0 (colons + 1) :: below => { state with frames := .field 0 colons :: below }
  | frames => { state with frames := .format :: frames }

/-- One step over code: at most one token, the text left and the state. -/
def codeStep (state : State) (c : Char) (rest : List Char) : Option Token × List Char × State :=
  let text := c :: rest
  let take (sort : TokenSort) (n : Nat) (frames : State → State) :=
    let (token, state) := state.emit sort (text.take n)
    (some token, text.drop n, frames state)
  if isBlank c then (none, rest, state.blank c)
  else if c == '#' then
    let comment := text.takeWhile (· != '\n')
    (none, text.drop comment.length, state.comment comment)
  else if c == '\\' && rest.head? == some '\n' then
    (none, rest.drop 1, { state with place := state.place.after ['\\', '\n'] })
  else if c == '\\' && rest.take 2 == ['\r', '\n'] then
    (none, rest.drop 2, { state with place := state.place.after ['\\', '\r', '\n'] })
  else match opening? text with
  | some (quote, opening, after) =>
    if quote.format then
      take .literalOpen opening.length fun s => { s with frames := .text quote :: s.frames }
    else match literalEnd quote after with
      | some (body, _) => take .literal (opening.length + body.length) id
      | none => take .stray opening.length id
  | none =>
    if Text.isWordStart c then
      let word := text.takeWhile Text.isWordChar
      take .word word.length fun s => s.word word
    else if c.isDigit || (c == '.' && (rest.head?.map Char.isDigit).getD false) then
      take .number (numberLength text) id
    else
      let inField := match state.frames with
        | .field 0 _ :: _ => true
        | _ => false
      if inField && c == '\x7d' then take .mark 1 fun s => { s with frames := s.frames.drop 1 }
      else if inField && c == ':' then take .mark 1 State.colon
      else if inField && c == '!' && rest.head? != some '=' then take .conversion 2 id
      else match longMarks.find? fun m => m.toList.isPrefixOf text with
        | some m => take .mark m.length id
        | none =>
          let sort : TokenSort := if "()[]\x7b\x7d,:.;@=+-*/%&|^~<>".toList.contains c then .mark
            else .stray
          take sort 1 fun s => s.bracket c

/-- One step inside the text of a literal. -/
def textStep (state : State) (quote : Quote) (text : List Char) :
    Option Token × List Char × State :=
  match textPart quote text with
  | none =>
    let (token, state) := state.emit .stray text
    (some token, [], { state with frames := state.frames.drop 1 })
  | some (part, after) =>
    let state := { state with place := state.place.after part }
    match after with
    | c :: _ =>
      if c == '\x7b' then
        let (token, state) := state.emit .mark [c]
        (some token, after.drop 1, { state with frames := .field 0 0 :: state.frames })
      else
        let marks := if quote.triple then 3 else 1
        let (token, state) := state.emit .literalClose (after.take marks)
        (some token, after.drop marks, { state with frames := state.frames.drop 1 })
    | [] => (none, [], state)

/-- One step inside the format of a field: literal text, a nested field, or the end of the field. -/
def formatStep (state : State) (c : Char) (rest : List Char) : Option Token × List Char × State :=
  if c == '\x7b' then
    let (token, state) := state.emit .mark [c]
    (some token, rest, { state with frames := .field 0 0 :: state.frames })
  else if c == '\x7d' then
    let (token, state) := state.emit .mark [c]
    (some token, rest, { state with frames := state.frames.drop 2 })
  else (none, rest, { state with place := state.place.next c })

def step (state : State) (c : Char) (rest : List Char) : Option Token × List Char × State :=
  match state.frames with
  | .text quote :: _ => textStep state quote (c :: rest)
  | .format :: _ => formatStep state c rest
  | _ => codeStep state c rest

/-- The tokens of a text, read in at most `limit` steps; the last one marks its end. -/
def scan : Nat → State → List Char → List Token
  | _, state, [] =>
    [{ (state.emit .stop []).1 with lineBreak := true, indent := 0 }]
  | 0, state, _ => [(state.emit .stop []).1]
  | limit + 1, state, c :: rest =>
    match step state c rest with
    | (some token, left, state) => token :: scan limit state left
    | (none, left, state) => scan limit state left

/-- The tokens of a Python source.  Every step passes a character, except one into
a text of length 0. -/
def ofSource (source : List Char) : List Token := scan (2 * source.length + 1) .start source

end PythonTokens
end Syntax
end CodeSurvey
