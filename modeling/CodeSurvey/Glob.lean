import CodeSurvey.Text.Split
import CodeSurvey.Text.Utf8

/-
Globs.  A glob is read character by character and matched byte by byte; no wildcard but `**` crosses
a separator.
-/

namespace CodeSurvey

inductive GlobPart where
  | byte (byte : UInt8)
  /-- one byte that is no separator -/
  | anyByte
  /-- any number of bytes that are no separators -/
  | anyBytes
  /-- nothing, a separator, or any directories: `**` at the start -/
  | anyStart
  /-- a separator and anything after it: `**` at the end -/
  | anyEnd
  /-- a separator, or any directories between two: `**` inside -/
  | anyBetween
  /-- one byte that is, or is not, in one of the ranges -/
  | byteIn (negated : Bool) (ranges : List (UInt8 × UInt8))
  /-- one of the branches; with no branch, nothing -/
  | choice (branches : List (List GlobPart))
  deriving Repr, Inhabited

namespace GlobPart

def separator : UInt8 := 0x2F

/-- Every tail of a text, the text itself included. -/
def tails : List UInt8 → List (List UInt8)
  | [] => [[]]
  | b :: rest => (b :: rest) :: tails rest

/-- What can be left after a run of bytes that are no separators. -/
def afterRun : List UInt8 → List (List UInt8)
  | [] => [[]]
  | b :: rest => if b == separator then [b :: rest] else (b :: rest) :: afterRun rest

/-- What can be left after a separator anywhere in the text. -/
def afterSeparators : List UInt8 → List (List UInt8)
  | [] => []
  | b :: rest => if b == separator then rest :: afterSeparators rest else afterSeparators rest

def inRanges (ranges : List (UInt8 × UInt8)) (b : UInt8) : Bool :=
  ranges.any fun (low, high) => low ≤ b && b ≤ high

/-- Keeps one of each length; the texts are tails of one text, so the length tells them apart. -/
def distinct : List (List UInt8) → List (List UInt8)
  | [] => []
  | text :: rest =>
    let others := distinct rest
    if others.any (·.length == text.length) then others else text :: others

mutual

/-- What can be left of a text after the part. -/
def rests : GlobPart → List UInt8 → List (List UInt8)
  | byte expected, text =>
    match text with
    | b :: rest => if b == expected then [rest] else []
    | [] => []
  | anyByte, text =>
    match text with
    | b :: rest => if b == separator then [] else [rest]
    | [] => []
  | anyBytes, text => afterRun text
  | anyStart, text => text :: afterSeparators text
  | anyEnd, text =>
    match text with
    | b :: rest => if b == separator then tails rest else []
    | [] => []
  | anyBetween, text =>
    match text with
    | b :: rest => if b == separator then rest :: afterSeparators rest else []
    | [] => []
  | byteIn negated ranges, text =>
    match text with
    | b :: rest => if inRanges ranges b != negated then [rest] else []
    | [] => []
  | choice [], text => [text]
  | choice (branch :: branches), text => restsOfAny (branch :: branches) text

/-- What can be left of any of the texts after the parts one after another. -/
def restsOfAll : List GlobPart → List (List UInt8) → List (List UInt8)
  | [], texts => texts
  | part :: more, texts => restsOfAll more (distinct (texts.flatMap fun text => rests part text))

/-- What can be left after any of the branches. -/
def restsOfAny : List (List GlobPart) → List UInt8 → List (List UInt8)
  | [], _ => []
  | branch :: more, text => restsOfAll branch [text] ++ restsOfAny more text

end

end GlobPart

structure Glob where
  parts : List GlobPart
  deriving Repr, Inhabited

namespace Glob

open GlobPart

/-- Whether the glob matches the whole text.  `**` alone matches everything. -/
def matchesBytes (glob : Glob) (text : List UInt8) : Bool :=
  match glob.parts with
  | [.anyStart] => true
  | parts => (restsOfAll parts [text]).any List.isEmpty

def matchesText (glob : Glob) (text : String) : Bool := glob.matchesBytes text.toUTF8.toList

/-- A group that is still open: what came before it, and its finished
branches, both latest first. -/
structure Group where
  before : List GlobPart
  branches : List (List GlobPart)
  deriving Repr, Inhabited

def bytesOf (c : Char) : List UInt8 := Text.Utf8.encode [c]

def literal (c : Char) : List GlobPart := (bytesOf c).map .byte

/-- The byte ranges of a range of characters.  A longer character counts byte by byte. -/
def byteRanges (range : Char × Char) : List (UInt8 × UInt8) :=
  let single (b : UInt8) := (b, b)
  if range.1 == range.2 then (bytesOf range.1).map single
  else
    let low := bytesOf range.1
    let high := bytesOf range.2
    (low.dropLast.map single) ++ [(low.getLastD 0, high.headD 0)] ++ (high.drop 1).map single

/-- The ranges of a class after its first one, latest first; `joining` after a dash that may join
two characters.  None if a range ends before it starts. -/
def classRanges (joining : Bool) (last : Char × Char) (done : List (Char × Char)) :
    List Char → Option (List (Char × Char))
  | [] => some (if joining then ('-', '-') :: last :: done else last :: done)
  | c :: rest =>
    if joining then
      if c < last.1 then none else classRanges false (last.1, c) done rest
    else if c == '-' then classRanges true last done rest
    else classRanges false (c, c) (last :: done) rest

/-- The text of a class up to its closing bracket, which cannot come first,
and the text after it. -/
def splitClass : List Char → Option (Char × List Char × List Char)
  | [] => none
  | first :: rest => (Text.breakOn [']'] rest).map fun (more, after) => (first, more, after)

theorem splitClass_length {text more after : List Char} {first : Char}
    (found : splitClass text = some (first, more, after)) : after.length < text.length := by
  cases text with
  | nil => simp [splitClass] at found
  | cons c rest =>
    simp only [splitClass, Option.map_eq_some_iff, Prod.mk.injEq] at found
    obtain ⟨⟨more', after'⟩, inner, _, _, rfl⟩ := found
    have := Text.breakOn_length inner
    simp only [List.length_cons]
    omega

def isNegation (c : Char) : Bool := c == '!' || c == '^'

/-- Whether a class is negated, and its text after the mark that says so. -/
def stripNegation : List Char → Bool × List Char
  | [] => (false, [])
  | c :: rest => if isNegation c then (true, rest) else (false, c :: rest)

theorem stripNegation_length (text : List Char) :
    (stripNegation text).2.length ≤ text.length := by
  unfold stripNegation
  split
  · simp
  · split <;> simp

/-- A branch that matches nothing but the empty text by being empty. -/
def isVoid (branch : List GlobPart) : Bool :=
  branch.all fun
    | .choice [] => true
    | _ => false

/-- What `**` becomes: the parts so far, latest first, and whether it takes the
separator after it. -/
def doubleStar (inGroup : Bool) (parts : List GlobPart) (previous : Option Char)
    (after : List Char) : List GlobPart × Bool :=
  let plain := (GlobPart.anyBytes :: .anyBytes :: parts, false)
  match parts with
  | [] =>
    match after with
    | [] => ([.anyStart], false)
    | c :: _ => if c == '/' then ([.anyStart], true) else plain
  | last :: before =>
    let atSegment := previous == some '/'
      || (inGroup && (previous == some ',' || previous == some '\x7b'))
    let replaced (part : GlobPart) : List GlobPart :=
      match last with
      | .anyStart => .anyStart :: before
      | .anyEnd => .anyEnd :: before
      | _ => part :: before
    if ! atSegment then plain
    else match after with
      | [] => (replaced .anyEnd, false)
      | c :: _ =>
        if inGroup && (c == ',' || c == '\x7d') then (replaced .anyEnd, false)
        else if c == '/' then (replaced .anyBetween, true)
        else plain

/-- Reads a glob.  `groups` are open, innermost first; `parts` is the current
branch, latest first. -/
def parseFrom (groups : List Group) (parts : List GlobPart) (previous : Option Char)
    (text : List Char) : Option Glob :=
  match text with
  | [] => if groups.isEmpty then some ⟨parts.reverse⟩ else none
  | '?' :: rest => parseFrom groups (.anyByte :: parts) (some '?') rest
  | '*' :: '*' :: rest =>
    match doubleStar (! groups.isEmpty) parts previous rest with
    | (parts, true) => parseFrom groups parts (some '/') (rest.drop 1)
    | (parts, false) => parseFrom groups parts (some '*') rest
  | '*' :: rest => parseFrom groups (.anyBytes :: parts) (some '*') rest
  | '[' :: rest =>
    match _found : splitClass (stripNegation rest).2 with
    | none => none
    | some (first, more, after) =>
      match classRanges false (first, first) [] more with
      | none => none
      | some ranges =>
        let part := GlobPart.byteIn (stripNegation rest).1 (ranges.reverse.flatMap byteRanges)
        parseFrom groups (part :: parts) (some ']') after
  | '\x7b' :: rest => parseFrom (⟨parts, []⟩ :: groups) [] (some '\x7b') rest
  | '\x7d' :: rest =>
    match groups with
    | [] => none
    | group :: outer =>
      let branches := (parts.reverse :: group.branches).reverse
      parseFrom outer (.choice (branches.filter (! isVoid ·)) :: group.before) (some '\x7d') rest
  | ',' :: rest =>
    match groups with
    | [] => parseFrom groups (.byte 0x2C :: parts) (some ',') rest
    | group :: outer =>
      parseFrom ({ group with branches := parts.reverse :: group.branches } :: outer) [] (some ',')
        rest
  | '\\' :: rest =>
    match rest with
    | [] => none
    | c :: more => parseFrom groups ((literal c).reverse ++ parts) (some c) more
  | c :: rest => parseFrom groups ((literal c).reverse ++ parts) (some c) rest
termination_by text.length
decreasing_by
  all_goals simp_wf
  all_goals try omega
  have := splitClass_length _found
  have := stripNegation_length rest
  omega

/-- The glob that a text stands for; none if it is not well formed. -/
def parse (text : String) : Option Glob := parseFrom [] [] none text.toList

end Glob
end CodeSurvey
