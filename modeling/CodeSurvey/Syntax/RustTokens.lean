import CodeSurvey.Syntax.Token
import CodeSurvey.Text.Letter

/-
Tokens of Rust.  The marks `<` and `>` are always single, because one of them may open or close a
list of type arguments; the grammar puts adjacent ones together again.
-/

namespace CodeSurvey
namespace Syntax
namespace RustTokens

structure State where
  place : Place
  comments : List Comment
  /-- whether the last token is a dot, after which a number has no fraction -/
  afterDot : Bool
  deriving Repr, Inhabited

def State.start : State := ⟨.start, [], false⟩

def State.emit (state : State) (sort : TokenSort) (text : List Char) : Token × State :=
  let stop := state.place.after text
  (⟨sort, String.ofList text, ⟨state.place, stop⟩, false, 0, state.comments.reverse, false, false⟩,
    ⟨stop, [], text == ['.']⟩)

def State.comment (state : State) (text : List Char) (isBlock : Bool) : State :=
  let stop := state.place.after text
  { state with
    place := stop
    comments := ⟨String.ofList text, ⟨state.place, stop⟩, none, isBlock⟩ :: state.comments }

def isBlank (c : Char) : Bool := c == ' ' || (9 ≤ c.toNat && c.toNat ≤ 13)

/-- The length of a block comment with `depth` comments still open; comments nest. -/
def blockLength (depth : Nat) : List Char → Option Nat
  | [] => none
  | '*' :: '/' :: rest =>
    if depth ≤ 1 then some 2 else (blockLength (depth - 1) rest).map (· + 2)
  | '/' :: '*' :: rest => (blockLength (depth + 1) rest).map (· + 2)
  | _ :: rest => (blockLength depth rest).map (· + 1)

/-- The length of a literal up to its closing quote, escapes passed over. -/
def quotedLength (quote : Char) : List Char → Option Nat
  | [] => none
  | '\\' :: _ :: rest => (quotedLength quote rest).map (· + 2)
  | c :: rest => if c == quote then some 1 else (quotedLength quote rest).map (· + 1)

/-- The length of a raw literal up to a quote with `hashes` hashes after it. -/
def rawLength (hashes : Nat) : List Char → Option Nat
  | [] => none
  | c :: rest =>
    if c == '"' && rest.take hashes == List.replicate hashes '#' then some (1 + hashes)
    else (rawLength hashes rest).map (· + 1)

/-- The length of a string literal at the start of a text, with the letters before it. -/
def stringLength? (text : List Char) : Option Nat :=
  let letters := text.takeWhile fun c => c == 'b' || c == 'c' || c == 'r'
  let after := text.drop letters.length
  if 2 < letters.length then none
  else if letters.contains 'r' then
    let hashes := (after.takeWhile (· == '#')).length
    match after.drop hashes with
    | '"' :: rest => (rawLength hashes rest).map (letters.length + hashes + 1 + ·)
    | _ => none
  else match after with
    | '"' :: rest => (quotedLength '"' rest).map (letters.length + 1 + ·)
    | _ => none

/-- The length of a character literal at the start of a text. -/
def charLength? (text : List Char) : Option Nat :=
  let letter := match text with
    | 'b' :: '\'' :: _ => 1
    | _ => 0
  match text.drop letter with
  | '\'' :: '\\' :: rest => (quotedLength '\'' ('\\' :: rest)).map (letter + 1 + ·)
  | '\'' :: _ :: '\'' :: _ => some (letter + 3)
  | _ => none

def isNumberPart (c : Char) : Bool := c.isDigit || c == '_' || Text.isAsciiLetter c

/-- The length of a number: digits with a suffix, and unless `whole`, a fraction and an exponent. -/
def numberLength (whole : Bool) (text : List Char) : Nat :=
  let head := text.takeWhile isNumberPart
  let rest := text.drop head.length
  let isHex := match head with
    | '0' :: x :: _ => x == 'x' || x == 'o' || x == 'b'
    | _ => false
  if whole || isHex then head.length
  else
    let exponentOf (part : List Char) (rest : List Char) : Nat :=
      match part.getLast?, rest with
      | some e, sign :: more =>
        if (e == 'e' || e == 'E') && (sign == '+' || sign == '-') then
          1 + (more.takeWhile isNumberPart).length
        else 0
      | _, _ => 0
    match rest with
    | '.' :: more =>
      match more with
      | c :: _ =>
        if c.isDigit then
          let fraction := more.takeWhile isNumberPart
          head.length + 1 + fraction.length + exponentOf fraction (more.drop fraction.length)
        else if c == '.' || Text.isWordStart c then head.length
        else head.length + 1
      | [] => head.length + 1
    | _ => head.length + exponentOf head rest

/-- The marks of more than one character, longer ones first. -/
def longMarks : List String :=
  ["...", "..=", "::", "->", "=>", "==", "!=", "&&", "||", "+=", "-=", "*=", "/=", "%=", "^=", "&=",
    "|=", ".."]

def singleMarks : List Char := "()[]\x7b\x7d,:.;@=+-*/%&|^!<>#?$~".toList

def step (state : State) (c : Char) (rest : List Char) : Option Token × List Char × State :=
  let text := c :: rest
  let take (sort : TokenSort) (n : Nat) :=
    let (token, state) := state.emit sort (text.take n)
    (some token, text.drop n, state)
  if isBlank c then (none, rest, { state with place := state.place.next c })
  else if c == '/' && rest.head? == some '/' then
    let comment := text.takeWhile (· != '\n')
    (none, text.drop comment.length, state.comment comment false)
  else if c == '/' && rest.head? == some '*' then
    match blockLength 1 (rest.drop 1) with
    | some n => (none, text.drop (n + 2), state.comment (text.take (n + 2)) true)
    | none => take .stray 2
  else match stringLength? text with
  | some n => take .literal n
  | none =>
    match charLength? text with
    | some n => take .literal n
    | none =>
      if c == '\'' && (rest.head?.map Text.isWordStart).getD false then
        take .lifetime (1 + (rest.takeWhile Text.isWordChar).length)
      else if c == 'r' && rest.head? == some '#' &&
        ((rest.drop 1).head?.map Text.isWordStart).getD false then
        take .word (2 + ((rest.drop 1).takeWhile Text.isWordChar).length)
      else if Text.isWordStart c then take .word (text.takeWhile Text.isWordChar).length
      else if c.isDigit then take .number (numberLength state.afterDot text)
      else match longMarks.find? fun m => m.toList.isPrefixOf text with
        | some m => take .mark m.length
        | none => take (if singleMarks.contains c then .mark else .stray) 1

/-- The tokens of a text, read in at most `limit` steps; the last one marks its end. -/
def scan : Nat → State → List Char → List Token
  | _, state, [] => [(state.emit .stop []).1]
  | 0, state, _ => [(state.emit .stop []).1]
  | limit + 1, state, c :: rest =>
    match step state c rest with
    | (some token, left, state) => token :: scan limit state left
    | (none, left, state) => scan limit state left

/-- A first line for the shell is no part of the program. -/
def withoutShellLine (source : List Char) : State × List Char :=
  match source with
  | '#' :: '!' :: rest =>
    if (rest.dropWhile isBlank).head? == some '[' then (.start, source)
    else
      let line := source.takeWhile (· != '\n')
      ({ State.start with place := Place.start.after line }, source.drop line.length)
  | _ => (.start, source)

/-- The tokens of a Rust source. -/
def ofSource (source : List Char) : List Token :=
  let (state, text) := withoutShellLine source
  scan source.length state text

end RustTokens
end Syntax
end CodeSurvey
