import CodeSurvey.Syntax.RustTypes

/-
The expressions of Rust.
-/

namespace CodeSurvey
namespace Syntax
namespace RustGrammar

open Reader

section Expressions

variable (self : Rule → Part)

def arguments : Part := bracketed "(" ")" do
  let before ← attributes self
  return before ++ (← self (.expression true))

/-- What follows a dot: a field or a method, possibly with arguments for its types. -/
def member : Part := do
  let dot ← mark "."
  if ← nextIs (·.sort == .number) then return dot ++ (← tokens 1)
  else
    let name ← token canBeName
    if (← nextMark "::") && (← second).isMark "<" then
      return dot ++ name ++ (← mark "::") ++ (← typeArguments self)
    else return dot ++ name

/-- One more call, index, field or question mark. -/
def postfixStep (trees : Trees) : Reader (Option Trees) := do
  if ← nextMark "." then return some (← wrap .expression (trees ++ (← member self)))
  else if ← nextMark "(" then return some (← wrap .expression (trees ++ (← arguments self)))
  else if ← nextMark "[" then
    let index ← seq [mark "[", self (.expression true), closing "]"]
    return some (← wrap .expression (trees ++ index))
  else if ← nextMark "?" then return some (← wrap .expression (trees ++ (← mark "?")))
  else return none

def castStep (trees : Trees) : Reader (Option Trees) := do
  if ← nextWord "as" then
    let cast ← seq [word "as", self .plainType]
    return some (← wrap .expression (trees ++ cast))
  else return none

/-- One more binary operator that binds at least as tightly as `level`.  A conjunction with a
pattern condition is no operator. -/
def binaryStep (level : Nat) (structs : Bool) (trees : Trees) : Reader (Option Trees) := do
  match ← operator with
  | none => return none
  | some (text, count) =>
    match levelOf text with
    | none => return none
    | some found =>
      if found < level || (text == "&&" && (← second).isWord "let") then return none
      else
        let sign ← role .operator (tokens count)
        let right ← self (.binary (found + 1) structs)
        return some (← wrap .binaryExpression (trees ++ sign ++ right))

def binary (level : Nat) (structs : Bool) : Part := do
  let first ← self (.unary structs)
  extend (binaryStep self level structs) (← extend (castStep self) first)

def rangeStep (structs : Bool) (trees : Trees) : Part := do
  if ← nextIs (isMarkIn ["..", "..=", "..."]) then
    let dots ← tokens 1
    if ← nextIs (startsOperand structs) then
      let right ← self (.binary 2 structs)
      wrap .expression (trees ++ dots ++ right)
    else wrap .expression (trees ++ dots)
  else return trees

/-- The rest of an expression whose first operand was read. -/
def expressionFrom (structs : Bool) (trees : Trees) : Part := do
  let cast ← extend (castStep self) trees
  let left ← extend (binaryStep self 2 structs) cast
  let range ← rangeStep self structs left
  match ← operator with
  | some (text, count) =>
    if assignments.contains text then
      let sign ← tokens count
      let right ← self (.expression structs)
      wrap .expression (range ++ sign ++ right)
    else return range
  | none => return range

def expression (structs : Bool) : Part := do
  if ← nextIs (isMarkIn ["..", "..="]) then rangeStep self structs []
  else expressionFrom self structs (← self (.unary structs))

/-- A condition after a pattern: it ends before the next conjunction. -/
def chained : Part := do
  let first ← self (.binary 4 false)
  extend (fun trees => do
    if ← nextMark "||" then
      let sign ← role .operator (mark "||")
      let right ← self (.binary 3 false)
      return some (← wrap .binaryExpression (trees ++ sign ++ right))
    else return none) first

def letCondition : Part := node .letCondition <| seq
  [word "let", self (.pattern true), mark "=", chained self]

/-- Further conditions of a chain. -/
def letChain (first : Trees) : Part := extend (fun trees => do
  if ← nextMark "&&" then
    let sign ← mark "&&"
    let right ← if ← nextWord "let" then letCondition self else chained self
    return some (← wrap .letChain (trees ++ sign ++ right))
  else return none) first

def condition : Part := do
  if ← nextWord "let" then letChain self (← letCondition self)
  else letChain self (← self (.expression false))

def elseClause : Part := do
  if ← nextWord "else" then
    let head ← word "else"
    if ← nextWord "if" then return head ++ (← self .blockLike)
    else return head ++ (← self .block)
  else return []

def ifExpression : Part := node .ifExpression <| seq
  [word "if", self .condition, self .block, elseClause self]

def whileExpression (label : Trees) : Part := node .whileExpression do
  let rest ← seq [word "while", self .condition, self .block]
  return label ++ rest

def loopExpression (label : Trees) : Part := node .expression do
  let rest ← seq [word "loop", self .block]
  return label ++ rest

def forExpression (label : Trees) : Part := node .forExpression do
  let rest ← seq [word "for", self (.pattern true), word "in", self (.expression false),
    self .block]
  return label ++ rest

/-- Whether an expression that ends with a block begins here. -/
def startsBlockLike : Reader Bool := do
  let token ← next
  let following ← second
  if token.isMark "\x7b" || isWordIn ["if", "match", "while", "loop", "for"] token then return true
  else if isWordIn ["unsafe", "const"] token then return following.isMark "\x7b"
  else if token.isWord "async" then
    let third := ((← upcoming).drop 2).headD endToken
    return following.isMark "\x7b" || following.isWord "move" && third.isMark "\x7b"
  else return token.sort == .lifetime && following.isMark ":"

/-- What can follow an expression that ends with a block and makes it part of a larger one. -/
def continuesBlockLike (token : Token) : Bool :=
  token.isWord "as" || isMarkIn [".", "?", "+", "/", "%", "^", "==", "!=", "&&", "||",
    "=", ">"] token

/-- What follows the arrow of a match arm, with its comma. -/
def armValue : Part := do
  if ← startsBlockLike then
    let trees ← self .blockLike
    if ← nextIs continuesBlockLike then
      let value ← expressionFrom self true (← extend (postfixStep self) trees)
      return value ++ (← mark? ",")
    else return trees ++ (← mark? ",")
  else
    let value ← self (.expression true)
    if ← nextMark "\x7d" then return value else return value ++ (← mark ",")

def matchArm : Part := node .matchArm do
  let before ← attributes self
  let pattern ← self (.pattern true)
  let guard ← if ← nextWord "if" then seq [word "if", self .condition] else pure []
  let arrow ← mark "=>"
  return before ++ pattern ++ guard ++ arrow ++ (← armValue self)

def matchExpression : Part := node .matchExpression do
  let head ← seq [word "match", self (.expression false), mark "\x7b"]
  let arms ← many do
    if ← nextMark "\x7d" then Reader.fail
    else if (← nextMark "#") && (← second).isMark "!" then attributeItem self
    else matchArm self
  return head ++ arms ++ (← closing "\x7d")

/-- An expression that ends with a block. -/
def blockLike : Part := do
  let label ← if ← nextIs (·.sort == .lifetime) then seq [lifetime?, mark ":"] else pure []
  let token ← next
  if token.isWord "if" then ifExpression self
  else if token.isWord "while" then whileExpression self label
  else if token.isWord "loop" then loopExpression self label
  else if token.isWord "for" then forExpression self label
  else if token.isWord "match" then matchExpression self
  else if isWordIn ["unsafe", "const", "async"] token then
    node .expression (seq [tokens 1, word? "move", self .block])
  else
    let block ← self .block
    if label.isEmpty then return block else wrap .expression (label ++ block)

def closureParameter : Part := do
  let before ← attributes self
  let pattern ← self (.pattern false)
  return before ++ pattern ++ (← typeAnnotation? self)

def closure (structs : Bool) : Part := node .expression do
  let modifiers ← many (token (isWordIn ["static", "async", "move", "const"]))
  let parameters ← if ← nextMark "||" then mark "||"
    else bracketed "|" "|" (closureParameter self)
  if ← nextMark "->" then
    return modifiers ++ parameters ++ (← seq [mark "->", self .type, self .block])
  else return modifiers ++ parameters ++ (← self (.expression structs))

/-- A word that may be followed by a value. -/
def jump (structs : Bool) : Part := node .expression do
  let head ← tokens 1
  let label ← if (← second).isMark ":" then pure [] else lifetime?
  if ← nextIs (startsOperand structs) then return head ++ label ++ (← self (.expression structs))
  else return head ++ label

def fieldValue : Part := do
  let before ← attributes self
  if ← nextMark ".." then
    let dots ← mark ".."
    if ← nextMark "\x7d" then return before ++ dots
    else return before ++ dots ++ (← self (.expression true))
  else
    let name ← token fun t => canBeName t || t.sort == .number
    if ← nextMark ":" then return before ++ name ++ (← mark ":") ++ (← self (.expression true))
    else return before ++ name

/-- A path, a macro call or the value of a struct. -/
def pathExpression (structs : Bool) : Part := do
  let path ← patternPath self
  if ← nextIsCall then macroCall self path
  else if structs && (← nextMark "\x7b") then
    node .expression do
      let fields ← bracketed "\x7b" "\x7d" (fieldValue self)
      return path ++ fields
  else wrap .expression path

def parenthesized : Part := node .expression <| bracketed "(" ")" do
  let before ← attributes self
  return before ++ (← self (.expression true))

def array : Part := node .expression do
  let head ← mark "["
  let elements ← listUntil "," "]" do
    let before ← attributes self
    let value ← self (.expression true)
    if ← nextMark ";" then return before ++ value ++ (← mark ";") ++ (← self (.expression true))
    else return before ++ value
  return head ++ elements ++ (← closing "]")

def atom (structs : Bool) : Part := do
  if ← startsBlockLike then blockLike self
  else
    let token ← next
    match token.sort with
    | .number | .literal => node .expression (tokens 1)
    | .mark =>
      if token.text == "(" then parenthesized self
      else if token.text == "[" then array self
      else if token.text == "|" || token.text == "||" then closure self structs
      else pathExpression self structs
    | .word =>
      if isWordIn ["return", "break", "continue", "yield"] token then jump self structs
      else if isWordIn ["move", "static", "async", "const"] token then closure self structs
      else pathExpression self structs
    | _ => Reader.fail

def unary (structs : Bool) : Part := do
  if ← nextIs (isMarkIn ["-", "*", "!"]) then
    node .expression (seq [tokens 1, self (.unary structs)])
  else if ← nextIs (isMarkIn ["&", "&&"]) then
    node .expression (seq [tokens 1, word? "mut", self (.unary structs)])
  else extend (postfixStep self) (← atom self structs)

end Expressions

end RustGrammar
end Syntax
end CodeSurvey
