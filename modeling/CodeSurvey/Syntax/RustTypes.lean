import CodeSurvey.Syntax.Grammar
import CodeSurvey.Syntax.RustTokens

/-
The types and patterns of Rust, with the kinds of its constructs and the rules of its grammar.
Token trees of macros and attributes are read as balanced brackets only.
-/

namespace CodeSurvey
namespace Syntax

inductive RustKind where
  | sourceFile
  | functionItem
  | functionSignatureItem
  | structItem
  | enumItem
  | traitItem
  | implItem
  | modItem
  | useDeclaration
  /-- any other item -/
  | item
  | attributeItem
  | innerAttributeItem
  | visibilityModifier
  | functionModifiers
  | parameters
  | parameter
  | selfParameter
  | declarationList
  | fieldList
  | fieldDeclaration
  | variantList
  | enumVariant
  | block
  /-- a statement that is no item -/
  | statement
  | ifExpression
  /-- `if let` as older grammars know it; in this one it is an `ifExpression`
  with a `letCondition` -/
  | ifLetExpression
  | whileExpression
  /-- `while let`, likewise -/
  | whileLetExpression
  | forExpression
  | matchExpression
  | matchArm
  | binaryExpression
  /-- conditions joined with a pattern among them -/
  | letChain
  | letCondition
  | macroInvocation
  /-- any other expression -/
  | expression
  | type
  | pattern
  | identifier
  | useTree
  | tokenTree
  | lineComment
  | blockComment
  deriving Repr, DecidableEq, Inhabited

namespace RustGrammar

open Reader

/-- Where `structs` is false, a brace after a path opens a block, as in the head of a loop. -/
inductive Rule where
  | file
  | statement
  | declaration
  | block
  | expression (structs : Bool)
  | binary (level : Nat) (structs : Bool)
  | unary (structs : Bool)
  | blockLike
  | condition
  | type
  /-- a type without bounds after it -/
  | plainType
  /-- a pattern, with alternatives or without -/
  | pattern (alternatives : Bool)
  | useTree
  | tokenTree
  deriving Repr, DecidableEq, Inhabited

abbrev Trees := List (Tree RustKind)

abbrev Part := Reader Trees

/-- The words that name nothing. -/
def keywords : List String :=
  ["as", "async", "await", "break", "const", "continue", "else", "enum", "extern", "false",
    "fn", "for", "if", "impl", "in", "let", "loop", "match", "mod", "move", "mut", "pub", "ref",
    "return", "static", "struct", "trait", "true", "type", "unsafe", "use", "where", "while", "dyn"]

def isName : Token → Bool := isNameBut keywords

def isPathWord (token : Token) : Bool :=
  isName token || isWordIn ["true", "false"] token

def canBeName : Token → Bool := canBeNameBut keywords

def identifier : Part := node .identifier (token canBeName)

/-- Whether an expression can begin with the token. -/
def startsOperand (structs : Bool) (token : Token) : Bool :=
  match token.sort with
  | .word => isPathWord token || ["async", "break", "const", "continue", "for", "if",
      "loop", "match", "move", "return", "static", "unsafe", "while"].contains token.text
  | .number | .literal | .lifetime => true
  | .mark => ["(", "[", "|", "||", "-", "*", "!", "&", "&&", "<", "::", "..",
      "..="].contains token.text
      || (structs && token.text == "\x7b")
  | _ => false

def lifetime? : Part := do
  if ← nextIs (·.sort == .lifetime) then token (·.sort == .lifetime) else return []

/-- Whether the token after the next one stands right behind it and is the given mark. -/
def adjacentMark (text : String) : Reader Bool := do
  let first ← next
  let token ← second
  return token.isMark text && token.span.start == first.span.stop

/-- The operator that stands next, if any, with the number of its tokens. -/
def operator : Reader (Option (String × Nat)) := do
  let token ← next
  if token.sort != .mark then return none
  else if token.text == "<" || token.text == ">" then
    if ← adjacentMark token.text then
      match ← upcoming with
      | _ :: b :: c :: _ =>
        if c.isMark "=" && c.span.start == b.span.stop then
          return some (token.text ++ token.text ++ "=", 3)
        else return some (token.text ++ token.text, 2)
      | _ => return some (token.text ++ token.text, 2)
    else if ← adjacentMark "=" then return some (token.text ++ "=", 2)
    else return some (token.text, 1)
  else return some (token.text, 1)

/-- How tightly a binary operator binds. -/
def levelOf (operator : String) : Option Nat :=
  match operator with
  | "||" => some 2
  | "&&" => some 3
  | "==" | "!=" | "<" | "<=" | ">" | ">=" => some 4
  | "|" => some 5
  | "^" => some 6
  | "&" => some 7
  | "<<" | ">>" => some 8
  | "+" | "-" => some 9
  | "*" | "/" | "%" => some 10
  | _ => none

def assignments : List String :=
  ["=", "+=", "-=", "*=", "/=", "%=", "^=", "&=", "|=", "<<=", ">>="]

/-- Reads a number of tokens. -/
def tokens : Nat → Part
  | 0 => return []
  | count + 1 => do
    let first ← token fun _ => true
    return first ++ (← tokens count)

section Types

variable (self : Rule → Part)

/-- Any number of elements between brackets. -/
def bracketed (opening ending : String) (element : Part) : Part := seq
  [mark opening, listUntil "," ending element, closing ending]

/-- At least one element between brackets. -/
def filled (opening ending : String) (element : Part) : Part := do
  let first ← seq [mark opening, element]
  let more ← if ← nextMark "," then seq [mark ",", listUntil "," ending element] else pure []
  return first ++ more ++ (← closing ending)

/-- `for<'a>` before a bound. -/
def higherRanked : Part := do
  if ← nextWord "for" then seq [word "for", filled "<" ">" (token (·.sort == .lifetime))]
  else return []

def bound : Part := do
  if ← nextIs (·.sort == .lifetime) then token (·.sort == .lifetime)
  else seq [mark? "~", word? "const", mark? "?", higherRanked, self .plainType]

def bounds : Part := do
  if ← nextIs fun token => token.sort == .lifetime || isMarkIn ["(", "?", "<", "::", "~"] token
      || token.sort == .word && ! isWordIn ["where"] token then
    let first ← bound self
    return first ++ (← many (seq [mark "+", bound self]))
  else return []

def bounds? : Part := do
  if ← nextMark ":" then seq [mark ":", bounds self] else return []

def attributeItem : Part := do
  let inner := (← second).isMark "!"
  node (if inner then .innerAttributeItem else .attributeItem) <| seq
    [mark "#", mark? "!", self .tokenTree]

def attributes : Part := many do
  if ← nextMark "#" then attributeItem self else Reader.fail

/-- An argument of a generic type. -/
def typeArgument : Part := do
  let token ← next
  if token.sort == .lifetime then Reader.token fun _ => true
  else if token.sort == .literal || token.sort == .number || isWordIn ["true", "false"] token then
    Reader.token fun _ => true
  else if token.isMark "-" then tokens 2
  else if token.isMark "\x7b" then self .block
  else
    let first ← self .type
    if ← nextMark "=" then return first ++ (← mark "=") ++ (← self .type)
    else return first ++ (← bounds? self)

def typeArguments : Part := node .type <| filled "<" ">" (typeArgument self)

/-- The result of a function, if one is written. -/
def result? : Part := do
  if ← nextMark "->" then seq [mark "->", role .returnType (self .type)] else return []

/-- The arguments of a segment of the path of a type. -/
def segmentArguments : Part := do
  if ← nextMark "<" then return (← attempt (typeArguments self)).getD []
  else if (← nextMark "::") && (← second).isMark "<" then seq [mark "::", typeArguments self]
  else if ← nextMark "(" then
    seq [bracketed "(" ")" (self .type), result? self]
  else return []

/-- `<T as Trait>` at the start of a path. -/
def qualified : Part := do
  let opening ← mark "<"
  let type ← self .type
  let trait ← if ← nextWord "as" then seq [word "as", self .type] else pure []
  return opening ++ type ++ trait ++ (← closing ">")

/-- The name of a type. -/
def typeName : Part := final "type_identifier" canBeName

def typePath : Part := do
  let head ← if ← nextMark "<" then qualified self
    else seq [mark? "::", typeName, segmentArguments self]
  return head ++ (← many do
    if ← nextMark "::" then seq [mark "::", typeName, segmentArguments self]
    else Reader.fail)

def macroCall (path : Trees) : Part := do
  let call ← seq [mark "!", self .tokenTree]
  wrap .macroInvocation (path ++ call)

/-- Whether a macro call goes on here after its path. -/
def nextIsCall : Reader Bool := do
  if ← nextMark "!" then return isMarkIn ["(", "[", "\x7b"] (← second) else return false

def functionType : Part := do
  let modifiers ← many (token fun token => isWordIn ["unsafe", "extern", "const"] token
    || token.sort == .literal)
  let head ← word "fn"
  let parameters ← bracketed "(" ")" do
    let before ← attributes self
    if ← nextMark "..." then return before ++ (← mark "...")
    else if (← nextIs (·.sort == .word)) && (← second).isMark ":" then
      return before ++ (← tokens 2) ++ (← self .type)
    else return before ++ (← self .type)
  return modifiers ++ head ++ parameters ++ (← result? self)

def plainType : Part := node .type do
  let token ← next
  match token.sort with
  | .mark =>
    match token.text with
    | "&" | "&&" => seq [Reader.token fun _ => true, lifetime?, word? "mut", self .plainType]
    | "*" => seq [mark "*", Reader.token (isWordIn ["const", "mut"]), self .plainType]
    | "[" =>
      let head ← seq [mark "[", self .type]
      let length ← if ← nextMark ";" then seq [mark ";", self (.expression true)] else pure []
      return head ++ length ++ (← closing "]")
    | "(" => bracketed "(" ")" (self .type)
    | "!" => mark "!"
    | _ => typePath self
  | .word =>
    match token.text with
    | "impl" | "dyn" => seq [Reader.token fun _ => true, higherRanked, bound self]
    | "for" => seq [higherRanked, self .plainType]
    | "fn" | "unsafe" | "extern" => functionType self
    | _ =>
      let path ← typePath self
      if ← nextIsCall then macroCall self path else return path
  | .lifetime => lifetime?
  | _ => Reader.fail

def type : Part := do
  let first ← plainType self
  if ← nextMark "+" then
    let more ← many (seq [mark "+", bound self])
    wrap .type (first ++ more)
  else return first

def typeAnnotation? : Part := do
  if ← nextMark ":" then seq [mark ":", self .type] else return []

def typeParameter : Part := do
  let before ← attributes self
  let rest ←
    if ← nextIs (·.sort == .lifetime) then seq [lifetime?, bounds? self]
    else if ← nextWord "const" then do
      let head ← seq [word "const", identifier, mark ":", self .type]
      let default ← if ← nextMark "=" then
          seq [mark "=", typeArgument self]
        else pure []
      pure (head ++ default)
    else do
      let head ← seq [identifier, bounds? self]
      let default ← if ← nextMark "=" then seq [mark "=", self .type] else pure []
      pure (head ++ default)
  return before ++ rest

def typeParameters? : Part := do
  if ← nextMark "<" then node .type (filled "<" ">" (typeParameter self)) else return []

def wherePredicates : Nat → Part
  | 0 => return []
  | limit + 1 => do
    if ← nextIs (isMarkIn ["\x7b", ";", "="]) then return []
    let first ← seq [higherRanked, self .plainType, mark ":", bounds self]
    if ← nextMark "," then return first ++ (← mark ",") ++ (← wherePredicates limit)
    else return first

def where? : Part := do
  if ← nextWord "where" then node .type do
    let head ← word "where"
    return head ++ (← wherePredicates self (← left))
  else return []

end Types

section Patterns

variable (self : Rule → Part)

/-- The end of a range in a pattern. -/
def rangeEnd : Part := do
  let token ← next
  if token.isMark "-" then tokens 2
  else if token.sort == .number || token.sort == .literal then Reader.token fun _ => true
  else typePath self

/-- A range that begins with what was read. -/
def rangeFrom (start : Trees) : Part := do
  if ← nextIs (isMarkIn ["..", "..=", "..."]) then
    let dots ← token (isMarkIn ["..", "..=", "..."])
    let token ← next
    if token.isMark "-" || token.sort == .number || token.sort == .literal || isName token then
      return start ++ dots ++ (← rangeEnd self)
    else return start ++ dots
  else return start

def fieldPattern : Part := do
  let before ← attributes self
  if ← nextMark ".." then return before ++ (← mark "..")
  else
    let binding ← seq [word? "ref", word? "mut", token fun t => canBeName t || t.sort == .number]
    if ← nextMark ":" then return before ++ binding ++ (← mark ":") ++ (← self (.pattern true))
    else return before ++ binding

/-- The path of a pattern. -/
def patternPath : Part := do
  let head ← if ← nextMark "<" then qualified self
    else seq [mark? "::", final "identifier" canBeName]
  return head ++ (← many do
    if ← nextMark "::" then
      let colons ← mark "::"
      if ← nextMark "<" then return colons ++ (← typeArguments self)
      else return colons ++ (← final "identifier" canBeName)
    else Reader.fail)

def pathPattern : Part := do
  let path ← patternPath self
  if ← nextMark "(" then return path ++ (← bracketed "(" ")" (self (.pattern true)))
  else if ← nextMark "\x7b" then
    return path ++ (← bracketed "\x7b" "\x7d" (fieldPattern self))
  else if ← nextMark "@" then return path ++ (← mark "@") ++ (← self (.pattern false))
  else if ← nextIsCall then macroCall self path
  else rangeFrom self path

def simplePattern : Part := node .pattern do
  let token ← next
  match token.sort with
  | .number | .literal => rangeFrom self (← tokens 1)
  | .mark =>
    match token.text with
    | "-" => rangeFrom self (← tokens 2)
    | ".." | "..=" => rangeFrom self []
    | "&" | "&&" => seq [tokens 1, word? "mut", self (.pattern false)]
    | "(" => bracketed "(" ")" (self (.pattern true))
    | "[" => bracketed "[" "]" (self (.pattern true))
    | _ => pathPattern self
  | .word =>
    match token.text with
    | "ref" => seq [word "ref", word? "mut", self (.pattern false)]
    | "mut" => seq [word "mut", self (.pattern false)]
    | "const" => seq [word "const", self .block]
    | "box" => if isName (← second) then seq [word "box",
        self (.pattern false)] else pathPattern self
    | _ => pathPattern self
  | _ => Reader.fail

def pattern (alternatives : Bool) : Part := do
  if alternatives then
    let bar ← mark? "|"
    let first ← simplePattern self
    let more ← many (seq [mark "|", simplePattern self])
    match bar ++ first ++ more with
    | [tree] => return [tree]
    | trees => wrap .pattern trees
  else simplePattern self

end Patterns

end RustGrammar
end Syntax
end CodeSurvey
