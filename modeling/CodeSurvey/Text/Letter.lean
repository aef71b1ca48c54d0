import CodeSurvey.Text.ClassTable

/-
Letters, capital letters and word characters.
-/

namespace CodeSurvey
namespace Text

/-- Whether a code point lies on one of the runs. -/
def onRuns (runs : Array (Nat × Nat × Nat)) (n : Nat) : Bool :=
  runs.any fun (first, last, step) => first ≤ n && n ≤ last && (n - first) % step == 0

def isAsciiLetter (c : Char) : Bool := ('a' ≤ c && c ≤ 'z') || ('A' ≤ c && c ≤ 'Z')

def isAlphabetic (c : Char) : Bool :=
  if c.toNat < 0x80 then isAsciiLetter c else onRuns ClassTable.alphabetic c.toNat

/-- Whether a name in a program can begin with the character. -/
def isWordStart (c : Char) : Bool := c == '_' || isAlphabetic c

def isUppercase (c : Char) : Bool :=
  if c.toNat < 0x80 then 'A' ≤ c && c ≤ 'Z' else onRuns ClassTable.uppercase c.toNat

/-- Letters, marks, decimal digits, connectors and joiners. -/
def isWordChar (c : Char) : Bool :=
  if c.toNat < 0x80 then isAsciiLetter c || ('0' ≤ c && c ≤ '9') || c == '_'
  else onRuns ClassTable.alphabetic c.toNat || onRuns ClassTable.wordOnly c.toNat

end Text
end CodeSurvey
