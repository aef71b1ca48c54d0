import CodeSurvey.Syntax.RustExpressions

/-
The items and statements of Rust, and its grammar.
-/

namespace CodeSurvey
namespace Syntax
namespace RustGrammar

open Reader

section Items

variable (self : Rule → Part)

/-- Reads brackets and what is between them. -/
def tokenTree : Part := node .tokenTree do
  let opening ← next
  let ending := if opening.isMark "(" then ")" else if opening.isMark "[" then "]" else "\x7d"
  let head ← token (isMarkIn ["(", "[", "\x7b"])
  let inner ← many do
    if ← nextIs (isMarkIn ["(", "[", "\x7b"]) then self .tokenTree
    else token fun t => t.sort != .stray && ! isMarkIn [")", "]", "\x7d"] t
  return head ++ inner ++ (← closing ending)

def visibility? : Part := do
  if ← nextWord "pub" then node .visibilityModifier do
    let head ← word "pub"
    if (← nextMark "(") && isWordIn ["self", "super", "crate", "in"] (← second) then
      return head ++ (← seq [mark "(", many (token fun t => ! t.isMark ")"), mark ")"])
    else return head
  else if (← nextWord "crate") && (← second).sort == .word then
    node .visibilityModifier (word "crate")
  else return []

def selfParameter : Part := do
  let trees ← node .selfParameter <| seq [mark? "&", lifetime?, word? "mut", word "self"]
  if ← nextMark ":" then Reader.fail else return trees

def namedParameter : Part := node .parameter <| seq
  [word? "mut", role .pattern (self (.pattern true)), mark ":", self .type]

def variadicParameter : Part := node .pattern do
  let name ← if (← second).isMark ":" then tokens 2 else pure []
  return name ++ (← mark "...")

def parameter : Part := do
  let before ← attributes self
  let one := orElse selfParameter (orElse variadicParameter
    (orElse (namedParameter self) (self .type)))
  return before ++ (← one)

def parameters : Part := role .parameters <| node .parameters <|
  bracketed "(" ")" (parameter self)

def modifiers? : Part := do
  if ← nextWord "fn" then return []
  else node .functionModifiers <| many <| token fun t =>
    isWordIn ["async", "const", "unsafe", "default", "extern"] t || t.sort == .literal

/-- Whether a function begins with these tokens. -/
def functionAhead : List Token → Bool
  | [] => false
  | token :: rest =>
    token.isWord "fn"
      || (isWordIn ["async", "const", "unsafe", "default", "extern"] token ||
        token.sort == .literal)
        && functionAhead rest

def function (visibility : Trees) : Part := do
  let head ← seq [modifiers?, word "fn", role .name identifier, typeParameters? self,
    parameters self, result? self, where? self]
  if ← nextMark ";" then
    let stop ← closing ";"
    wrap .functionSignatureItem (visibility ++ head ++ stop)
  else
    let body ← role .body (self .block)
    wrap .functionItem (visibility ++ head ++ body)

def declarationList : Part := role .body <| node .declarationList do
  let opening ← mark "\x7b"
  let inner ← many do
    if ← nextMark "\x7d" then Reader.fail else self .declaration
  return opening ++ inner ++ (← closing "\x7d")

def fieldDeclaration : Part := do
  let before ← attributes self
  let field ← node .fieldDeclaration <| seq
    [visibility?, role .name identifier, mark ":", self .type]
  return before ++ field

def namedFields : Part := node .fieldList (bracketed "\x7b" "\x7d" (fieldDeclaration self))

def positionalFields : Part := node .fieldList <| bracketed "(" ")" <| seq
  [attributes self, visibility?, self .type]

def structItem (visibility : Trees) : Part := do
  let isUnion := (← next).isWord "union"
  let head ← seq [tokens 1, role .name identifier, typeParameters? self, where? self]
  let rest ←
    if ← nextMark "\x7b" then role .body (namedFields self)
    else if ← nextMark "(" then seq [role .body (positionalFields self), where? self, closing ";"]
    else closing ";"
  wrap (if isUnion then .item else .structItem) (visibility ++ head ++ rest)

def variant : Part := do
  let before ← attributes self
  let variant ← node .enumVariant do
    let head ← seq [visibility?, role .name identifier]
    let fields ← if ← nextMark "\x7b" then namedFields self
      else if ← nextMark "(" then positionalFields self
      else pure []
    let value ← if ← nextMark "=" then seq [mark "=", self (.expression true)] else pure []
    return head ++ fields ++ value
  return before ++ variant

def enumItem (visibility : Trees) : Part := do
  let head ← seq [word "enum", role .name identifier, typeParameters? self, where? self]
  let body ← role .body <| node .variantList (bracketed "\x7b" "\x7d" (variant self))
  wrap .enumItem (visibility ++ head ++ body)

def traitItem (visibility : Trees) : Part := do
  let trees ← seq [word? "unsafe", word "trait", role .name identifier, typeParameters? self,
    bounds? self, where? self, declarationList self]
  wrap .traitItem (visibility ++ trees)

def implItem : Part := node .implItem do
  let head ← seq [word? "default", word? "unsafe", word "impl", typeParameters? self, mark? "!"]
  let first ← self .type
  let subject ← if ← nextWord "for" then
      seq [pure first, word "for", role .subject (self .type)]
    else role .subject (pure first)
  let bounds ← where? self
  let body ← if ← nextMark ";" then closing ";" else declarationList self
  return head ++ subject ++ bounds ++ body

def modItem (visibility : Trees) : Part := do
  let head ← seq [word "mod", role .name identifier]
  let body ← if ← nextMark ";" then closing ";" else declarationList self
  wrap .modItem (visibility ++ head ++ body)

/-- One path of a use declaration, with what it selects. -/
def useTree : Part := do
  if ← nextMark "\x7b" then bracketed "\x7b" "\x7d" (self .useTree)
  else if ← nextMark "*" then mark "*"
  else
    let head ← seq [mark? "::"]
    if ← nextIs (isMarkIn ["\x7b", "*"]) then return head ++ (← self .useTree)
    else
      let name ← final "identifier" canBeName
      if ← nextMark "::" then return head ++ name ++ (← mark "::") ++ (← self .useTree)
      else if ← nextWord "as" then return head ++ name ++ (← word "as") ++ (← token canBeName)
      else return head ++ name

def useDeclaration (visibility : Trees) : Part := do
  let trees ← seq [word "use", role .argument (node .useTree (self .useTree)), closing ";"]
  wrap .useDeclaration (visibility ++ trees)

def externItem (visibility : Trees) : Part := do
  let head ← word "extern"
  let rest ←
    if ← nextWord "crate" then do
      let name ← seq [word "crate", token canBeName]
      let renamed ← if ← nextWord "as" then seq [word "as", token canBeName] else pure []
      pure (name ++ renamed ++ (← closing ";"))
    else do
      let abi ← many (token (·.sort == .literal))
      let body ← if ← nextMark ";" then closing ";" else declarationList self
      pure (abi ++ body)
  wrap .item (visibility ++ head ++ rest)

def typeItem (visibility : Trees) : Part := do
  let head ← seq [word "type", identifier, typeParameters? self, bounds? self, where? self]
  let value ← if ← nextMark "=" then seq [mark "=", self .type, where? self] else pure []
  let stop ← closing ";"
  wrap .item (visibility ++ head ++ value ++ stop)

def constantItem (visibility : Trees) : Part := do
  let head ← seq [tokens 1, word? "ref", word? "mut", identifier, typeAnnotation? self]
  let value ← if ← nextMark "=" then seq [mark "=", self (.expression true)] else pure []
  let stop ← closing ";"
  wrap .item (visibility ++ head ++ value ++ stop)

def macroRules : Part := node .item <| seq
  [word "macro_rules", mark "!", identifier, self .tokenTree]

/-- Reads an item if one begins here. -/
def item? : Reader (Option Trees) := do
  let visibility ← visibility?
  let token ← next
  let following ← second
  let ahead := functionAhead (← upcoming)
  if ahead then return some (← function self visibility)
  else if token.sort != .word then
    if visibility.isEmpty then return none else Reader.fail
  else match token.text with
    | "struct" => return some (← structItem self visibility)
    | "enum" => return some (← enumItem self visibility)
    | "trait" => return some (← traitItem self visibility)
    | "impl" => return some (← implItem self)
    | "mod" => return some (← modItem self visibility)
    | "use" => return some (← useDeclaration self visibility)
    | "type" => return some (← typeItem self visibility)
    | "extern" => return some (← externItem self visibility)
    | "const" | "static" =>
      if isName following || isWordIn ["mut", "ref"] following then
        return some (← constantItem self visibility)
      else if visibility.isEmpty then return none else Reader.fail
    | "unsafe" =>
      if following.isWord "trait" then return some (← traitItem self visibility)
      else if following.isWord "impl" then return some (← implItem self)
      else if following.isWord "extern" then
        let head ← word "unsafe"
        return some (← externItem self (visibility ++ head))
      else if visibility.isEmpty then return none else Reader.fail
    | "default" =>
      if isWordIn ["impl", "unsafe"] following then return some (← implItem self) else return none
    | "union" =>
        if isName following then return some (← structItem self visibility) else return none
    | "macro_rules" => if following.isMark "!" then return some (← macroRules self) else return none
    | _ => if visibility.isEmpty then return none else Reader.fail

/-- An item, an attribute or a macro call of a list of items. -/
def declaration : Part := do
  if ← nextMark ";" then node .statement (mark ";")
  else if ← nextMark "#" then attributeItem self
  else match ← item? self with
    | some trees => return trees
    | none =>
      let path ← patternPath self
      if ← nextIsCall then macroCall self path else Reader.fail

def letDeclaration : Part := node .statement do
  let head ← seq [word "let", word? "mut", self (.pattern true), typeAnnotation? self]
  let value ← if ← nextMark "=" then seq [mark "=", self (.expression true)] else pure []
  let other ← if ← nextWord "else" then seq [word "else", self .block] else pure []
  return head ++ value ++ other ++ (← closing ";")

/-- An expression as a statement.  Only the last of a block may go without a semicolon, or one that
ends with a block, or the call of a macro. -/
def endStatement (trees : Trees) : Part := do
  if ← nextMark ";" then
    let stop ← closing ";"
    wrap .statement (trees ++ stop)
  else if ← nextMark "\x7d" then return trees
  else match trees with
    | [tree] => if tree.isKind .macroInvocation then return trees else Reader.fail
    | _ => Reader.fail

def expressionStatement : Part := do
  if ← startsBlockLike then
    let trees ← self .blockLike
    if ← nextIs continuesBlockLike then
      endStatement (← expressionFrom self true (← extend (postfixStep self) trees))
    else return trees
  else endStatement (← self (.expression true))

def statement : Part := do
  if ← nextMark ";" then node .statement (mark ";")
  else if ← nextMark "#" then attributeItem self
  else if ← nextWord "let" then letDeclaration self
  else match ← item? self with
    | some trees => return trees
    | none => expressionStatement self

def block : Part := node .block do
  let opening ← mark "\x7b"
  let inner ← many do
    if ← nextMark "\x7d" then Reader.fail else self .statement
  return opening ++ inner ++ (← closing "\x7d")

def file : Part := node .sourceFile do
  let trees ← many (self .statement)
  if (← next).sort == .stop then return trees else Reader.fail

end Items

/-- How each rule is read. -/
def grammar : Grammar RustKind Rule := fun self rule =>
  match rule with
  | .file => file self
  | .statement => statement self
  | .declaration => declaration self
  | .block => block self
  | .expression structs => expression self structs
  | .binary level structs => binary self level structs
  | .unary structs => unary self structs
  | .blockLike => blockLike self
  | .condition => condition self
  | .type => type self
  | .plainType => plainType self
  | .pattern alternatives => pattern self alternatives
  | .useTree => useTree self
  | .tokenTree => tokenTree self

end RustGrammar
end Syntax
end CodeSurvey
