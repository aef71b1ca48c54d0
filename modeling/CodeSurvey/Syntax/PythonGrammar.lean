import CodeSurvey.Syntax.Grammar
import CodeSurvey.Syntax.PythonTokens

/-
The grammar of Python.  Statements end with their line unless something is still expected; a block
goes on while lines are indented at least as far as its first statement.
-/

namespace CodeSurvey
namespace Syntax

inductive PythonKind where
  | module
  | functionDefinition
  | classDefinition
  | decoratedDefinition
  | decorator
  | importStatement
  | importFromStatement
  | futureImportStatement
  | ifStatement
  | elifClause
  | elseClause
  | forStatement
  | whileStatement
  | tryStatement
  | exceptClause
  | exceptGroupClause
  | finallyClause
  | withStatement
  | matchStatement
  | caseClause
  | block
  | expressionStatement
  /-- any other simple statement -/
  | simpleStatement
  | assignment
  | augmentedAssignment
  | booleanOperator
  | string
  | concatenatedString
  | interpolation
  | identifier
  | attribute
  | dottedName
  | aliasedImport
  | relativeImport
  | parameters
  | parameter
  | argumentList
  | keywordArgument
  /-- any other expression or pattern -/
  | expression
  | comment
  deriving Repr, DecidableEq, Inhabited

namespace PythonGrammar

open Reader

inductive Rule where
  | module
  /-- a statement in a block with the given indentation -/
  | statement (indent : Nat)
  /-- what follows the colon of a header in a block with the given indentation -/
  | suite (indent : Nat)
  /-- the statements of a block with the given indentation -/
  | block (indent : Nat)
  | rightSide
  | expression
  | binary (level : Nat)
  | unary
  | primary
  | element
  | target
  | interpolation
  | casePattern
  deriving Repr, DecidableEq, Inhabited

abbrev Trees := List (Tree PythonKind)

abbrev Part := Reader Trees

/-- The words that name nothing. -/
def keywords : List String :=
  ["and", "as", "assert", "break", "class", "continue", "def", "del", "elif", "else", "except",
    "finally", "for", "from", "global", "if", "import", "in", "is", "lambda", "nonlocal",
    "not", "or", "pass", "raise", "return", "try", "while", "with", "yield"]

def isName : Token → Bool := isNameBut keywords

def canBeName : Token → Bool := canBeNameBut keywords

/-- Whether an expression, possibly with a star, can begin with the token. -/
def startsOperand (token : Token) : Bool :=
  match token.sort with
  | .word => canBeName token || ["not", "lambda", "yield"].contains token.text
  | .number | .literal | .literalOpen => true
  | .mark => ["(", "[", "\x7b", "+", "-", "~", "*", "**", "..."].contains token.text
  | _ => false

def identifier : Part := node .identifier (token canBeName)

/-- A statement ends here. -/
def lineEnd : Reader Unit := do
  if (← next).lineBreak then return () else Reader.fail

section Expressions

variable (self : Rule → Part)

/-- Elements with commas between them, up to where no further one begins. -/
def elementsFrom : Nat → Part
  | 0 => return []
  | limit + 1 => do
    let first ← self .element
    if ← nextMark "," then
      let comma ← mark ","
      if ← nextIs startsOperand then return first ++ comma ++ (← elementsFrom limit)
      else return first ++ comma
    else return first

def elements : Part := do elementsFrom self (← left)

/-- One expression, or several as one list. -/
def elementList : Part := do
  let trees ← elements self
  match trees with
  | [_] => return trees
  | _ => wrap .expression trees

def yieldExpression : Part := node .expression do
  let word ← word "yield"
  if ← nextWord "from" then return word ++ (← Reader.word "from") ++ (← self .expression)
  else if ← nextIs startsOperand then return word ++ (← elements self)
  else return word

def lambdaParameter : Part := do
  if ← nextIs (isMarkIn ["*", "**"]) then
    let star ← token (isMarkIn ["*", "**"])
    if ← nextIs canBeName then return star ++ (← identifier) else return star
  else if ← nextMark "/" then mark "/"
  else
    let name ← self .target
    if ← nextMark "=" then wrap .parameter (name ++ (← mark "=") ++ (← self .expression))
    else return name

def lambda : Part := node .expression <| seq
  [word "lambda", listUntil "," ":" (lambdaParameter self), mark ":", self .expression]

/-- A lambda, a named or conditional expression, or anything that binds tighter. -/
def expression : Part := do
  skipBreak
  if ← nextWord "lambda" then lambda self
  else if canBeName (← next) && (← second).isMark ":=" then
    node .expression <| seq [identifier, mark ":=", self .expression]
  else
    let value ← self (.binary 0)
    if ← nextWord "if" then
      match ← attempt (seq [word "if", self (.binary 0), word "else", self .expression]) with
      | some rest => wrap .expression (value ++ rest)
      | none => return value
    else return value

/-- Operands with operators of one level between them, grouped to the left. -/
def leftGrouped (kind : PythonKind) (isOperator : Token → Bool) (operand : Part) : Part := do
  let first ← operand
  extend (fun trees => do
    if ← nextIs isOperator then
      let operator ← token isOperator
      let right ← operand
      return some (← wrap kind (trees ++ operator ++ right))
    else return none) first

/-- A comparison operator, of one or two words or one mark. -/
def comparisonOperator : Part := do
  if ← nextIs (isMarkIn ["<", "<=", "==", "!=", ">=", ">", "<>"]) then token fun _ => true
  else if ← nextWord "in" then word "in"
  else if ← nextWord "is" then return (← word "is") ++ (← word? "not")
  else if (← nextWord "not") && (← second).isWord "in" then
    return (← word "not") ++ (← word "in")
  else Reader.fail

/-- The marks of each level, from loose to tight. -/
def levelMarks : Nat → List String
  | 4 => ["|"]
  | 5 => ["^"]
  | 6 => ["&"]
  | 7 => ["<<", ">>"]
  | 8 => ["+", "-"]
  | _ => ["*", "/", "//", "%", "@"]

def binary : Nat → Part
  | 0 => leftGrouped .booleanOperator (·.isWord "or") (self (.binary 1))
  | 1 => leftGrouped .booleanOperator (·.isWord "and") (self (.binary 2))
  | 2 => do
    skipBreak
    if ← nextWord "not" then node .expression <| seq [word "not", self (.binary 2)]
    else if ← nextWord "lambda" then lambda self
    else self (.binary 3)
  | 3 => do
    let first ← self (.binary 4)
    let rest ← many (seq [comparisonOperator, self (.binary 4)])
    if rest.isEmpty then return first else wrap .expression (first ++ rest)
  | level =>
    if level < 10 then
      leftGrouped .expression (isMarkIn (levelMarks level)) (self (.binary (level + 1)))
    else self .unary

def unary : Part := do
  skipBreak
  if ← nextIs (isMarkIn ["+", "-", "~"]) then
    node .expression <| seq [token (fun _ => true), self .unary]
  else
    let base ← self .primary
    if ← nextMark "**" then wrap .expression (base ++ (← mark "**") ++ (← self .unary))
    else return base

/-- At most `limit` targets of a loop, up to its `in`. -/
def targetsFrom : Nat → Part
  | 0 => return []
  | limit + 1 => do
    let first ← self .target
    if ← nextMark "," then
      let comma ← mark ","
      if ← nextWord "in" then return first ++ comma
      else return first ++ comma ++ (← targetsFrom limit)
    else return first

def targets : Part := do targetsFrom self (← left)

def forClause : Part := node .expression do
  let async ← word? "async"
  let head ← word "for"
  let targets ← targets self
  let rest ← seq [word "in", self .expression]
  return async ++ head ++ targets ++ rest

def ifClause : Part := node .expression <| seq [word "if", self .expression]

/-- The clauses of a comprehension. -/
def clauses : Part := do
  let first ← forClause self
  let more ← many (do if ← nextWord "if" then ifClause self else forClause self)
  return first ++ more

def nextIsClause : Reader Bool := do
  if ← nextWord "for" then return true
  if ← nextWord "async" then return (← second).isWord "for"
  return false

/-- What stands in brackets, with their end: a comprehension or elements with
commas between them. -/
def contents (ending : String) (element : Part) : Part := do
  let head ← element
  if ← nextIsClause then
    return head ++ (← clauses self) ++ (← closing ending)
  else if ← nextMark "," then
    let comma ← mark ","
    let rest ← listUntil "," ending element
    return head ++ comma ++ rest ++ (← closing ending)
  else return head ++ (← closing ending)

/-- Brackets with at least one element. -/
def filled (opening ending : String) (element : Part) : Part := withLines false do
  let first ← mark opening
  skipBreak
  return first ++ (← contents self ending element)

/-- Brackets with any number of elements. -/
def bracketed (opening ending : String) (element : Part) : Part := withLines false do
  let first ← mark opening
  skipBreak
  if ← nextMark ending then return first ++ (← closing ending)
  else return first ++ (← contents self ending element)

def parenthesized : Part := node .expression <|
  bracketed self "(" ")" do
    if ← nextWord "yield" then yieldExpression self else self .element

def dictionaryItem : Part := do
  if ← nextMark "**" then node .expression <| seq [mark "**", self (.binary 4)]
  else
    let key ← self .element
    if ← nextMark ":" then wrap .expression (key ++ (← mark ":") ++ (← self .expression))
    else return key

def string : Part := do
  if ← nextIs (·.sort == .literal) then
    node .string (token (·.sort == .literal))
  else
    node .string <| withLines false <| seq
      [token (·.sort == .literalOpen), many (self .interpolation), token (·.sort == .literalClose)]

/-- A replacement field of a literal. -/
def interpolation : Part := node .interpolation do
  let opening ← mark "\x7b"
  skipBreak
  let value ← if ← nextWord "yield" then yieldExpression self else elements self
  let equals ← mark? "="
  let conversion ←
    if ← nextIs (·.sort == .conversion) then token (·.sort == .conversion) else pure []
  let format ←
    if ← nextMark ":" then pure ((← mark ":") ++ (← many (self .interpolation))) else pure []
  return opening ++ value ++ equals ++ conversion ++ format ++ (← closing "\x7d")

def isString (token : Token) : Bool := token.sort == .literal || token.sort == .literalOpen

def strings : Part := do
  let first ← string self
  let more ← many (do if ← nextIs isString then string self else Reader.fail)
  if more.isEmpty then return first else wrap .concatenatedString (first ++ more)

def atom : Part := do
  skipBreak
  let token ← next
  match token.sort with
  | .word => node .identifier (final "identifier" canBeName)
  | .number => node .expression (Reader.token fun _ => true)
  | .literal | .literalOpen => strings self
  | .mark =>
    if token.text == "(" then parenthesized self
    else if token.text == "[" then node .expression <| bracketed self "[" "]" (self .element)
    else if token.text == "\x7b" then
      node .expression <| bracketed self "\x7b" "\x7d" (dictionaryItem self)
    else if token.text == "..." then node .expression (mark "...")
    else Reader.fail
  | _ => Reader.fail

def argument : Part := do
  if ← nextMark "**" then node .expression <| seq [mark "**", self .expression]
  else if canBeName (← next) && (← second).isMark "=" then
    node .keywordArgument <| seq [role .name identifier, mark "=", self .expression]
  else self .element

def argumentList : Part := node .argumentList <| bracketed self "(" ")" (argument self)

def optionalExpression : Part := do
  if ← nextIs startsOperand then self .element else return []

/-- An index or a slice. -/
def subscriptItem : Part := do
  let first ← optionalExpression self
  if ← nextMark ":" then
    let middle ← seq [mark ":", optionalExpression self]
    let last ← if ← nextMark ":" then seq [mark ":", optionalExpression self] else pure []
    wrap .expression (first ++ middle ++ last)
  else if first.isEmpty then Reader.fail
  else return first

/-- Attributes, calls and subscripts after an atom. -/
def trailer (trees : Trees) : Reader (Option Trees) := do
  if ← nextMark "." then
    return some (← wrap .attribute (trees ++ (← mark ".") ++ (← identifier)))
  else if ← nextMark "(" then return some (← wrap .expression (trees ++ (← argumentList self)))
  else if ← nextMark "[" then
    return some (← wrap .expression (trees ++ (← filled self "[" "]" (subscriptItem self))))
  else return none

def primary : Part := do
  skipBreak
  let following ← second
  if (← nextWord "await") && ! following.lineBreak
      && (isName following || [TokenSort.number, .literal, .literalOpen].contains following.sort
        || following.isMark "(" || following.isMark "[") then
    node .expression <| seq [word "await", self .primary]
  else
    let first ← atom self
    extend (trailer self) first

/-- An expression, a starred one, or one that is bound to a name. -/
def element : Part := do
  skipBreak
  if ← nextMark "*" then node .expression <| seq [mark "*", self (.binary 4)]
  else
    let value ← self .expression
    if ← nextWord "as" then wrap .expression (value ++ (← word "as") ++ (← self .target))
    else return value

/-- What a loop or an assignment may bind. -/
def target : Part := do
  skipBreak
  if ← nextMark "*" then node .expression <| seq [mark "*", self .primary] else self .primary

def casePattern : Part := do
  if ← nextIs (isMarkIn ["*", "**"]) then
    node .expression <| seq [token (fun _ => true), self .primary]
  else
    let pattern ← self (.binary 4)
    if ← nextWord "as" then wrap .expression (pattern ++ (← word "as") ++ (← identifier))
    else return pattern

end Expressions

section Statements

variable (self : Rule → Part)

def asLeft (trees : Trees) : Part := role .left do
  match trees with
  | [_] => return trees
  | _ => wrap .expression trees

def augmentedMarks : List String :=
  ["+=", "-=", "*=", "/=", "@=", "//=", "%=", "**=", ">>=", "<<=", "&=", "^=", "|="]

/-- An assignment to `targets`; what is assigned may be an assignment again. -/
def assignmentTo (targets : Trees) : Part := do
  let left ← asLeft targets
  wrap .assignment (left ++ (← mark "=") ++ (← self .rightSide))

def augmentedTo (targets : Trees) : Part := do
  let left ← asLeft targets
  wrap .augmentedAssignment
    (left ++ (← token (isMarkIn augmentedMarks)) ++ (← self .rightSide))

def rightSide : Part := do
  skipBreak
  if ← nextWord "yield" then yieldExpression self
  else
    let trees ← elements self
    if ← nextMark "=" then assignmentTo self trees
    else if ← nextIs (isMarkIn augmentedMarks) then augmentedTo self trees
    else match trees with
      | [_] => return trees
      | _ => wrap .expression trees

def typeExpression : Part := self .element

def expressionStatement : Part := node .expressionStatement do
  if ← nextWord "yield" then yieldExpression self
  else
    let trees ← elements self
    if ← nextMark "=" then assignmentTo self trees
    else if ← nextIs (isMarkIn augmentedMarks) then augmentedTo self trees
    else if ← nextMark ":" then
      let left ← asLeft trees
      let annotation ← seq [mark ":", typeExpression self]
      let value ← if ← nextMark "=" then seq [mark "=", self .rightSide] else pure []
      wrap .assignment (left ++ annotation ++ value)
    else return trees

def dottedName : Part := node .dottedName do
  let first ← identifier
  let more ← many (seq [mark ".", identifier])
  return first ++ more

/-- A module or a name, possibly under another name. -/
def importedName : Part := do
  skipBreak
  let name ← dottedName
  if ← nextWord "as" then
    wrap .aliasedImport (name.map (Tree.withRole .name) ++ (← word "as") ++ (← identifier))
  else return name

def importStatement : Part := node .importStatement do
  let head ← word "import"
  let first ← importedName
  let more ← many (seq [mark ",", importedName])
  return head ++ first ++ more

def relativeImport : Part := node .relativeImport do
  let dots ← many1 (token (isMarkIn [".", "..."]))
  if (← nextIs (·.sort == .word)) && ! (← nextWord "import") then return dots ++ (← dottedName)
  else return dots

/-- What a `from` statement brings in. -/
def importedNames : Part := do
  skipBreak
  if ← nextMark "*" then node .expression (mark "*")
  else if ← nextMark "(" then
    withLines false <| seq [mark "(", importedName, many (seq [mark ",", importedName]), mark? ",",
      closing ")"]
  else
    let first ← importedName
    let more ← many (seq [mark ",", importedName])
    return first ++ more ++ (← mark? ",")

def importFromStatement : Part := do
  if (← second).isWord "__future__" then
    node .futureImportStatement <| seq
      [word "from", word "__future__", word "import", importedNames]
  else node .importFromStatement do
    let head ← word "from"
    skipBreak
    let module ← role .moduleName do
      if ← nextIs (isMarkIn [".", "..."]) then relativeImport else dottedName
    return head ++ module ++ (← word "import") ++ (← importedNames)

/-- A keyword and the expressions after it, if any stand on the line. -/
def keywordStatement (keyword : String) : Part := node .simpleStatement do
  let head ← word keyword
  if ← nextIs startsOperand then return head ++ (← elements self) else return head

def raiseStatement : Part := node .simpleStatement do
  let head ← word "raise"
  let value ←
    if (← nextIs startsOperand) && ! (← nextWord "from") then elements self else pure []
  let cause ← if ← nextWord "from" then seq [word "from", self .expression] else pure []
  return head ++ value ++ cause

def namesStatement (keyword : String) : Part := node .simpleStatement do
  let head ← word keyword
  let first ← identifier
  let more ← many (seq [mark ",", identifier])
  return head ++ first ++ more

/-- Whether a word is followed, on its line, by something that cannot continue an expression. -/
def standsBeforeOperand : Reader Bool := do
  let following ← second
  return ! following.lineBreak
    && (isName following || [TokenSort.number, .literal, .literalOpen].contains following.sort
      || isMarkIn ["\x7b", "~"] following || ["not", "lambda"].any following.isWord)

def typeAlias : Part := node .simpleStatement <| seq
  [word "type", self .expression, mark "=", self .expression]

def simpleStatement : Part := do
  let token ← next
  if token.sort != .word then expressionStatement self
  else match token.text with
    | "pass" | "break" | "continue" => node .simpleStatement (word token.text)
    | "return" | "del" | "assert" => keywordStatement self token.text
    | "raise" => raiseStatement self
    | "global" | "nonlocal" => namesStatement token.text
    | "import" => importStatement
    | "from" => importFromStatement
    | "print" | "exec" =>
      if ← standsBeforeOperand then keywordStatement self token.text else expressionStatement self
    | "type" =>
      if ← standsBeforeOperand then
        match ← attempt (typeAlias self) with
        | some trees => return trees
        | none => expressionStatement self
      else expressionStatement self
    | _ => expressionStatement self

/-- The statements of one line. -/
def lineFrom : Nat → Part
  | 0 => Reader.fail
  | limit + 1 => do
    let first ← simpleStatement self
    if ← nextMark ";" then
      let cut ← mark ";"
      if (← next).lineBreak then return first ++ cut
      else return first ++ cut ++ (← lineFrom limit)
    else return first

def line : Part := do
  let trees ← withLines true do
    skipBreak
    lineFrom self (← left)
  lineEnd
  return trees

/-- Passes the comments before the next token that belong to a block with the given indentation, and
returns where the block ends.  A block around it ends there too, or later. -/
def endOfBlock (indent : Nat) : Reader Place := fun state =>
  match state.tokens with
  | [] => (some state.last, state)
  | token :: rest =>
    let isMine (comment : Comment) : Bool := match comment.indent with
      | some column => indent ≤ column
      | none => true
    let mine := token.comments.takeWhile isMine
    let place := (mine.getLast?.map fun comment => comment.span.stop).getD state.last
    (some place, { state with
      tokens := { token with comments := token.comments.drop mine.length } :: rest
      last := place })

/-- Whether a block with the given indentation goes on. -/
def continues (indent : Nat) : Reader Bool := do
  let token ← next
  return token.sort != .stop && ! (token.lineBreak && token.indent < indent)

def blockFrom (indent : Nat) : Nat → Part
  | 0 => return []
  | limit + 1 => do
    if ← continues indent then
      let first ← self (.statement indent)
      return first ++ (← blockFrom indent limit)
    else return []

def block (indent : Nat) : Part := do blockFrom self indent (← left)

def suite (indent : Nat) : Part := role .body do
  let token ← next
  if ! token.lineBreak then node .block (line self)
  else if token.sort != .stop && indent < token.indent then
    let statements ← self (.block token.indent)
    let place ← endOfBlock token.indent
    return (← wrap .block statements).map (Tree.endingAt place)
  else wrap .block []

/-- Whether the next line carries on the statement in a block with the given indentation. -/
def nextClause (indent : Nat) (keyword : String) : Reader Bool := do
  let token ← next
  return token.isWord keyword && ! (token.lineBreak && token.indent < indent)

def elseClause (indent : Nat) : Part := do
  if ← nextClause indent "else" then
    node .elseClause <| seq [word "else", mark ":", self (.suite indent)]
  else return []

def finallyClause (indent : Nat) : Part := do
  if ← nextClause indent "finally" then
    node .finallyClause <| seq [word "finally", mark ":", self (.suite indent)]
  else return []

def ifStatement (indent : Nat) : Part := node .ifStatement do
  let head ← seq [word "if", self .expression, mark ":", self (.suite indent)]
  let more ← many do
    if ← nextClause indent "elif" then
      node .elifClause <| seq [word "elif", self .expression, mark ":", self (.suite indent)]
    else Reader.fail
  return head ++ more ++ (← elseClause self indent)

def whileStatement (indent : Nat) : Part := node .whileStatement <| seq
  [word "while", self .expression, mark ":", self (.suite indent), elseClause self indent]

def forStatement (indent : Nat) : Part := node .forStatement <| seq
  [word? "async", word "for", targets self, word "in", elementList self,
    mark ":", self (.suite indent), elseClause self indent]

def withStatement (indent : Nat) : Part := node .withStatement <| seq
  [word? "async", word "with", elementList self, mark ":", self (.suite indent)]

/-- The star of a group clause follows its keyword without a blank. -/
def nextIsGroup : Reader Bool := do
  let star ← second
  return star.isMark "*" && star.span.start == (← next).span.stop

def exceptClause (indent : Nat) : Part := do
  if ← nextIsGroup then
    node .exceptGroupClause <| seq
      [word "except", mark "*", elements self, mark ":", self (.suite indent)]
  else node .exceptClause do
    let head ← word "except"
    let what ← if ← nextMark ":" then pure [] else elements self
    return head ++ what ++ (← mark ":") ++ (← self (.suite indent))

def tryStatement (indent : Nat) : Part := node .tryStatement do
  let head ← seq [word "try", mark ":", self (.suite indent)]
  let handlers ← many do
    if ← nextClause indent "except" then exceptClause self indent else Reader.fail
  let others ← if handlers.isEmpty then pure [] else elseClause self indent
  let last ← finallyClause self indent
  if handlers.isEmpty && last.isEmpty then Reader.fail
  else return head ++ handlers ++ others ++ last

/-- One parameter, with its annotation and default; a bare star or slash counts as one. -/
def parameter : Part := do
  skipBreak
  if ← nextMark "/" then node .parameter (mark "/")
  else
    let name ←
      if ← nextIs (isMarkIn ["*", "**"]) then do
        let star ← token (isMarkIn ["*", "**"])
        if ← nextIs canBeName then pure (star ++ (← identifier)) else pure star
      else if ← nextMark "(" then parenthesized self
      else identifier
    let annotation ←
      if ← nextMark ":" then seq [mark ":", typeExpression self] else pure []
    let default ← if ← nextMark "=" then seq [mark "=", self .expression] else pure []
    match name ++ annotation ++ default with
    | [Tree.node (.kind kind) role text span children] =>
      return [Tree.node (.kind kind) role text span children]
    | trees => wrap .parameter trees

def parameters : Part := role .parameters <| node .parameters <| withLines false <| seq
  [mark "(", listUntil "," ")" (parameter self), closing ")"]

def typeParameters : Part := do
  if ← nextMark "[" then node .expression <| filled self "[" "]" do
    let name ← self .element
    if ← nextMark ":" then return name ++ (← mark ":") ++ (← typeExpression self)
    else return name
  else return []

def functionDefinition (indent : Nat) : Part := node .functionDefinition do
  let async ← word? "async"
  let head ← seq [word "def", role .name identifier, typeParameters self, parameters self]
  let result ← if ← nextMark "->" then seq [mark "->", role .returnType (typeExpression self)]
    else pure []
  return async ++ head ++ result ++ (← mark ":") ++ (← self (.suite indent))

def classDefinition (indent : Nat) : Part := node .classDefinition do
  let head ← seq [word "class", role .name identifier, typeParameters self]
  let bases ← if ← nextMark "(" then role .superclasses (argumentList self) else pure []
  return head ++ bases ++ (← mark ":") ++ (← self (.suite indent))

def decorator : Part := do
  let trees ← node .decorator <| withLines true <| seq
    [do skipBreak; mark "@", self .expression]
  lineEnd
  return trees

def decoratedDefinition (indent : Nat) : Part := node .decoratedDefinition do
  let decorators ← many1 (do
    if (← next).isMark "@" then decorator self else Reader.fail)
  let definition ← role .definition do
    if (← next).isWord "class" then classDefinition self indent else functionDefinition self indent
  return decorators ++ definition

def caseClause (indent : Nat) : Part := node .caseClause do
  let head ← word "case"
  let first ← self .casePattern
  let more ← many do
    if (← nextMark ",") && ! (← second).isWord "if" then seq [mark ",", self .casePattern]
    else Reader.fail
  let comma ← mark? ","
  let guard ← if ← nextWord "if" then node .expression (seq [word "if", self .expression])
    else pure []
  return head ++ first ++ more ++ comma ++ guard ++ (← mark ":") ++ (← self (.suite indent))

/-- The header of a match statement, which only its cases tell from an expression. -/
def matchHeader (indent : Nat) : Part := do
  let head ← seq [word "match", elements self, mark ":"]
  let token ← next
  if token.lineBreak && indent < token.indent && token.isWord "case" then return head
  else Reader.fail

def matchStatement (indent : Nat) : Part := do
  match ← attempt (matchHeader self indent) with
  | none => line self
  | some head => node .matchStatement do
    let inner := (← next).indent
    let cases ← many do
      if (← continues inner) && (← next).isWord "case" then caseClause self inner
      else Reader.fail
    let place ← endOfBlock inner
    return head ++ (← role .body (wrap .block cases)).map (Tree.endingAt place)

def asyncStatement (indent : Nat) : Part := do
  let following ← second
  if following.isWord "def" then functionDefinition self indent
  else if following.isWord "for" then forStatement self indent
  else if following.isWord "with" then withStatement self indent
  else line self

def statement (indent : Nat) : Part := withLines false do
  let token ← next
  if token.isMark "@" then decoratedDefinition self indent
  else if token.sort != .word then line self
  else match token.text with
    | "if" => ifStatement self indent
    | "while" => whileStatement self indent
    | "for" => forStatement self indent
    | "try" => tryStatement self indent
    | "with" => withStatement self indent
    | "def" => functionDefinition self indent
    | "class" => classDefinition self indent
    | "async" => asyncStatement self indent
    | "match" => matchStatement self indent
    | _ => line self

def module : Part := node .module do
  let trees ← block self 0
  if (← next).sort == .stop then return trees else Reader.fail

end Statements

/-- How each rule is read. -/
def grammar : Grammar PythonKind Rule := fun self rule =>
  match rule with
  | .module => module self
  | .statement indent => statement self indent
  | .suite indent => suite self indent
  | .block indent => block self indent
  | .rightSide => rightSide self
  | .expression => expression self
  | .binary level => binary self level
  | .unary => unary self
  | .primary => primary self
  | .element => element self
  | .target => target self
  | .interpolation => interpolation self
  | .casePattern => casePattern self

end PythonGrammar
end Syntax
end CodeSurvey
