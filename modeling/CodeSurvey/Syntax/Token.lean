import CodeSurvey.Syntax.Tree

/-
Tokens of a source text, with what stands before them.
-/

namespace CodeSurvey
namespace Syntax

inductive TokenSort where
  /-- a name or a keyword -/
  | word
  | number
  /-- a whole string or character literal -/
  | literal
  /-- the opening quote of a literal with fields in it -/
  | literalOpen
  | literalClose
  /-- the conversion in a field of a literal -/
  | conversion
  | lifetime
  /-- punctuation -/
  | mark
  /-- characters that begin no token -/
  | stray
  /-- the end of the text -/
  | stop
  deriving Repr, DecidableEq, Inhabited

structure Comment where
  text : String
  span : Span
  /-- the indentation of a comment that has its line for itself -/
  indent : Option Nat
  isBlock : Bool
  deriving Repr, DecidableEq, Inhabited

structure Token where
  sort : TokenSort
  text : String
  span : Span
  /-- whether a line ends before the token -/
  lineBreak : Bool
  /-- the indentation of the line, if `lineBreak` -/
  indent : Nat
  /-- the comments between the token before and this one -/
  comments : List Comment
  /-- whether the text lacks the token and a repair supplies it -/
  isSupplied : Bool := false
  /-- whether a repair has passed over tokens right before it; a keyword is no name there -/
  afterGap : Bool := false
  deriving Repr, DecidableEq, Inhabited

namespace Token

def isMark (token : Token) (text : String) : Bool := token.sort == .mark && token.text == text

def isWord (token : Token) (text : String) : Bool := token.sort == .word && token.text == text

end Token

def isMarkIn (marks : List String) (token : Token) : Bool :=
  token.sort == .mark && marks.contains token.text

def isWordIn (words : List String) (token : Token) : Bool :=
  token.sort == .word && words.contains token.text

/-- Whether the token is a name where these keywords are none. -/
def isNameBut (keywords : List String) (token : Token) : Bool :=
  token.sort == .word && ! keywords.contains token.text

/-- Whether the token is a name where no keyword is expected. -/
def canBeNameBut (keywords : List String) (token : Token) : Bool :=
  token.sort == .word && ! (token.afterGap && keywords.contains token.text)

end Syntax
end CodeSurvey
