import CodeSurvey.Language
import CodeSurvey.Syntax.PythonGrammar
import CodeSurvey.Syntax.Repair
import CodeSurvey.Text.Split

/-
The outline of a Python file, read off its syntax tree.
-/

namespace CodeSurvey
namespace PythonOutline

open Syntax

abbrev Node := Syntax.Tree PythonKind

/-- The constructs that add a branch. -/
def isBranch (node : Node) : Bool :=
  match node.kind? with
  | some .ifStatement | some .elifClause | some .forStatement | some .whileStatement
  | some .exceptClause | some .withStatement | some .tryStatement | some .booleanOperator => true
  | _ => false

/-- A name is private if it starts with an underscore, unless it is a special name. -/
def isPublicName (name : String) : Bool :=
  let text := name.toList
  text.head? != some '_' || (['_', '_'].isPrefixOf text && Text.endsWith ['_', '_'] text)

/-- The text before the annotation and the default. -/
def parameterName (node : Node) : String :=
  String.ofList (Text.trim (Text.upTo (fun c => c == ':' || c == '=') node.text.toList))

/-- The parameters that a caller names. -/
def parameterNames (parameters : Node) : List String :=
  (parameters.namedChildren.map parameterName).filter fun name =>
    ! ["", "self", "cls", "*", "/"].contains name

/-- A block is documented if its first statement begins with a string. -/
def hasDocstring (body : Node) : Bool :=
  match body.namedChildren with
  | first :: _ => first.isKind .expressionStatement
    && (first.namedChildren.head?.map (·.isKind .string)).getD false
  | [] => false

def functionOutline (node : Node) : FunctionOutline :=
  let name := node.nameText
  let body := node.child? .body
  { FunctionOutline.ofLines name node.startLine node.endLine with
    parameters := ((node.child? .parameters).map parameterNames).getD []
    returnType := ((node.child? .returnType).map (·.text)).getD ""
    isAsync := (node.children.head?.map fun c => c.label == .token && c.text == "async").getD false
    isPublic := isPublicName name
    hasDocstring := (body.map hasDocstring).getD false
    complexity := 1 + (body.map (Syntax.Tree.count isBranch)).getD 0 }

/-- The names that a statement of a class body assigns to. -/
def classFields (statement : Node) : List String :=
  (statement.namedChildren.filter (·.isKind .assignment)).filterMap fun assignment => do
    let left ← assignment.child? .left
    if left.isKind .identifier then some left.text else none

/-- The attribute that an assignment sets on the instance. -/
def selfField? (assignment : Node) : Option String := do
  let left ← assignment.child? .left
  let field ← Text.stripStart "self.".toList left.text.toList
  if field.contains '.' then none else some (String.ofList field)

def isDefinition (node : Node) : Bool :=
  node.isKind .functionDefinition || node.isKind .classDefinition

mutual

/-- The attributes set on the instance below a node, last ones first;
definitions are not entered. -/
def selfFields : Node → List String
  | .node label role text span children =>
    let node := Syntax.Tree.node label role text span children
    (if node.isKind .assignment then (selfField? node).toList else [])
      ++ if isDefinition node then [] else selfFieldsAll children

def selfFieldsAll : List Node → List String
  | [] => []
  | node :: rest => selfFieldsAll rest ++ if node.isNamed then selfFields node else []

end

def addNew (names : List String) (name : String) : List String :=
  if names.contains name then names else names ++ [name]

/-- The definition under its decorators. -/
def undecorated (node : Node) : Option Node :=
  if node.isKind .decoratedDefinition then node.child? .definition else some node

/-- Adds what one statement of a class body contributes. -/
def addMember (outline : TypeOutline) (statement : Node) : TypeOutline :=
  match undecorated statement with
  | none => outline
  | some node =>
    if node.isKind .functionDefinition then
      let fields := ((node.child? .body).map selfFields).getD []
      { outline with
        methods := outline.methods ++ [functionOutline node]
        fields := fields.foldl addNew outline.fields }
    else if node.isKind .expressionStatement then
      { outline with fields := (classFields node).foldl addNew outline.fields }
    else outline

def classOutline (node : Node) : TypeOutline :=
  let outline := TypeOutline.ofLines node.nameText .classType node.startLine node.endLine
  let bases := ((node.child? .superclasses).map fun bases =>
    (bases.namedChildren.filter (! ·.isKind .keywordArgument)).map (·.text)).getD []
  match node.child? .body with
  | none => { outline with bases }
  | some body =>
    body.namedChildren.foldl addMember { outline with bases, hasDocstring := hasDocstring body }

/-- The modules that an import statement names. -/
def importedModules (node : Node) : List Declaration :=
  (node.namedChildren.filterMap fun child =>
    if child.isKind .dottedName then some child
    else if child.isKind .aliasedImport then child.child? .name
    else none).map fun name => .import name.text

/-- The module that names are imported from. -/
def sourceModule (node : Node) : List Declaration :=
  ((node.child? .moduleName).map fun name => Declaration.import name.text).toList

/-- The imports of one statement. -/
def importsOf (node : Node) : List Declaration :=
  if node.isKind .importStatement then importedModules node
  else if node.isKind .importFromStatement then sourceModule node
  else []

/-- The parts of a guard in which imports are looked for. -/
def isGuardPart (node : Node) : Bool :=
  match node.kind? with
  | some .block | some .elseClause | some .exceptClause | some .finallyClause | some .elifClause =>
    true
  | _ => false

mutual

/-- The imports in the parts of a guard. -/
def guardedImports : Node → List Declaration
  | .node _ _ _ _ children => guardedImportsAll children

def guardedImportsAll : List Node → List Declaration
  | [] => []
  | node :: rest =>
    (if node.isNamed then
      importsOf node ++ if isGuardPart node then guardedImports node else []
    else []) ++ guardedImportsAll rest

end

def definitionOf (node : Node) : List Declaration :=
  if node.isKind .functionDefinition then [.function (functionOutline node)]
  else if node.isKind .classDefinition then [.type (classOutline node)]
  else []

/-- What one statement of the module declares. -/
def declarationsOf (node : Node) : List Declaration :=
  match node.kind? with
  | some .decoratedDefinition => ((node.child? .definition).map definitionOf).getD []
  | some .ifStatement | some .tryStatement => guardedImports node
  | _ => definitionOf node ++ importsOf node

def declarations (module : Node) : List Declaration := module.namedChildren.flatMap declarationsOf

/-- The tokens that a repair may supply. -/
def supplies : List Supply :=
  [{ sort := .word, text := "_" }, { sort := .mark, text := ")" }, { sort := .mark, text := "]" },
    { sort := .mark, text := "\x7d" }]

/-- The syntax tree of a source. -/
def parse (source : List Char) : Node :=
  let text := String.ofList source
  let slice (span : Span) : String := String.Pos.Raw.extract text ⟨span.start.byte⟩ ⟨span.stop.byte⟩
  (PythonGrammar.grammar.parse .module supplies (fun _ => .comment) .module
    (PythonTokens.ofSource source)).fill slice

/-- Python, with trees from any parser. -/
def languageBy (parse : List Char → Node) : Language :=
  .ofTree "Python" [".py", ".pyi"] .hash declarations parse

def language : Language := languageBy parse

end PythonOutline
end CodeSurvey
