import CodeSurvey.Text.CaseTable
import CodeSurvey.Text.Letter

/-
Lower-case forms of texts, with the form of sigma that ends a word.
-/

namespace CodeSurvey
namespace Text

/-- The lower-case form of one character on its own. -/
def lowerChar (c : Char) : List Char :=
  let n := c.toNat
  if n < 0x80 then if 'A' ≤ c && c ≤ 'Z' then [Char.ofNat (n + 32)] else [c]
  else if n == 0x130 then ['i', Char.ofNat 0x307]
  else match CaseTable.lower.find? fun (first, last, step, _) =>
      first ≤ n && n ≤ last && (n - first) % step == 0 with
    | some (_, _, _, shift) => [Char.ofNat ((n : Int) + shift).toNat]
    | none => [c]

def isCased (c : Char) : Bool := onRuns CaseTable.cased c.toNat

def isCaseIgnorable (c : Char) : Bool := onRuns CaseTable.ignorable c.toNat

/-- The nearest character that the case rules do not ignore is a cased one. -/
def nextIsCased (text : List Char) : Bool :=
  match text.dropWhile isCaseIgnorable with
  | [] => false
  | c :: _ => isCased c

/-- `before` holds the characters already passed, nearest first. -/
def lowerFrom (before : List Char) : List Char → List Char
  | [] => []
  | c :: rest =>
    let form :=
      if c.toNat == 0x3A3 then
        if nextIsCased before && ! nextIsCased rest then [Char.ofNat 0x3C2] else [Char.ofNat 0x3C3]
      else lowerChar c
    form ++ lowerFrom (c :: before) rest

/-- The lower-case form of a text: character by character, except that a capital sigma with a letter
before it and none after it takes its final form. -/
def lower (text : List Char) : List Char := lowerFrom [] text

end Text
end CodeSurvey
