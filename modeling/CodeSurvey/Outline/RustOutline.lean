import CodeSurvey.Language
import CodeSurvey.Syntax.Repair
import CodeSurvey.Syntax.RustGrammar
import CodeSurvey.Text.Split

/-
The outline of a Rust file, read off its syntax tree.
-/

namespace CodeSurvey
namespace RustOutline

open Syntax

abbrev Node := Syntax.Tree RustKind

/-- The constructs that add a branch. -/
def isBranch (node : Node) : Bool :=
  match node.kind? with
  | some .ifExpression | some .ifLetExpression | some .matchArm | some .whileExpression
  | some .whileLetExpression | some .forExpression => true
  | some .binaryExpression =>
    match node.child? .operator with
    | some operator => operator.text == "&&" || operator.text == "||"
    | none => false
  | _ => false

/-- Whether the nodes before an item, nearest first, end with a doc comment; attributes between the
comment and the item do not part them. -/
def isDocumented : List Node → Bool
  | [] => false
  | node :: before =>
    match node.kind? with
    | some .attributeItem => isDocumented before
    | some .lineComment | some .blockComment =>
      "///".toList.isPrefixOf node.text.toList || "/**".toList.isPrefixOf node.text.toList
    | _ => false

/-- The patterns of the parameters; the receiver is none. -/
def parameterNames (parameters : Node) : List String :=
  (parameters.namedChildren.filter (·.isKind .parameter)).map fun parameter =>
    ((parameter.child? .pattern).getD parameter).text

/-- An item together with whether it is documented. -/
structure Item where
  documented : Bool
  node : Node
  deriving Inhabited

def functionOutline (item : Item) : FunctionOutline :=
  let node := item.node
  let modifiers := node.children.filter (·.isKind .functionModifiers)
  { FunctionOutline.ofLines node.nameText node.startLine node.endLine with
    parameters := ((node.child? .parameters).map parameterNames).getD []
    returnType := ((node.child? .returnType).map (·.text)).getD ""
    isPublic := node.children.any (·.isKind .visibilityModifier)
    isAsync := modifiers.any fun m => Text.contains "async".toList m.text.toList
    hasDocstring := item.documented
    complexity := 1 + ((node.child? .body).map (Syntax.Tree.count isBranch)).getD 0 }

/-- Each named node of a list as an item. -/
def itemsAmong (before : List Node) : List Node → List Item
  | [] => []
  | node :: rest =>
    (if node.isNamed then [⟨isDocumented before, node⟩] else []) ++ itemsAmong (node :: before) rest

def isFunction (item : Item) : Bool :=
  item.node.isKind .functionItem || item.node.isKind .functionSignatureItem

/-- The functions in the body of an item. -/
def methodsOf (node : Node) : List FunctionOutline :=
  match node.child? .body with
  | some body => ((itemsAmong [] body.children).filter isFunction).map functionOutline
  | none => []

/-- The names of the parts of a body that have the given kind. -/
def partNames (kind : RustKind) (node : Node) : List String :=
  match node.child? .body with
  | some body => (body.namedChildren.filter (·.isKind kind)).filterMap fun part =>
      (part.child? .name).map (·.text)
  | none => []

def typeOutline (item : Item) (kind : TypeKind) : TypeOutline :=
  { TypeOutline.ofLines item.node.nameText kind item.node.startLine item.node.endLine with
    hasDocstring := item.documented }

/-- The last segment of the path of a type, without its arguments. -/
def baseTypeName (text : String) : String :=
  String.ofList (Text.trim (Text.afterLast "::".toList (Text.upTo (· == '<') text.toList)))

/-- Adds methods to the first type with the given name. -/
def extendFirst (name : String) (methods : List FunctionOutline) :
    List TypeOutline → List TypeOutline
  | [] => []
  | type :: rest =>
    if type.name == name then { type with methods := type.methods ++ methods } :: rest
    else type :: extendFirst name methods rest

/-- Methods belong to the type that they are written for, which is created if no type of that name
came before. -/
def addImplementation (types : List TypeOutline) (item : Item) : List TypeOutline :=
  match item.node.child? .subject with
  | none => types
  | some subject =>
    let name := baseTypeName subject.text
    let methods := methodsOf item.node
    if types.any (·.name == name) then extendFirst name methods types
    else
      types ++ [{ TypeOutline.ofLines name .struct item.node.startLine item.node.endLine with
        hasDocstring := item.documented
        methods }]

def addType (types : List TypeOutline) (item : Item) : List TypeOutline :=
  match item.node.kind? with
  | some .structItem =>
    types ++ [{ typeOutline item .struct with fields := partNames .fieldDeclaration item.node }]
  | some .enumItem =>
    types ++ [{ typeOutline item .struct with fields := partNames .enumVariant item.node }]
  | some .traitItem =>
      types ++ [{ typeOutline item .interface with methods := methodsOf item.node }]
  | some .implItem => addImplementation types item
  | _ => types

mutual

/-- The items of a file or of the body of a module, those of inner modules in their place. -/
def items : Node → List Item
  | .node _ _ _ _ children => itemsAll [] children

def itemsAll (before : List Node) : List Node → List Item
  | [] => []
  | node :: rest =>
    (if node.isKind .modItem then moduleItems node
      else if node.isNamed then [⟨isDocumented before, node⟩]
      else []) ++ itemsAll (node :: before) rest

def moduleItems : Node → List Item
  | .node _ _ _ _ children => bodyItems children

def bodyItems : List Node → List Item
  | [] => []
  | node :: rest => if node.role == some .body then items node else bodyItems rest

end

/-- What a node itself imports. -/
def importOf (node : Node) : List String :=
  match node.kind? with
  | some .useDeclaration => ((node.child? .argument).map (·.text)).toList
  | some .modItem =>
    match node.child? .body with
    | some _ => []
    | none => ((node.child? .name).map fun name => "self::" ++ name.text).toList
  | _ => []

mutual

/-- The imports below a node, in the order of the text. -/
def imports : Node → List String
  | .node label role text span children =>
    importOf (.node label role text span children) ++ importsAll children

def importsAll : List Node → List String
  | [] => []
  | node :: rest => imports node ++ importsAll rest

end

def declarations (file : Node) : List Declaration :=
  let items := items file
  (imports file).map Declaration.import
    ++ ((items.filter (·.node.isKind .functionItem)).map fun item =>
      .function (functionOutline item))
    ++ (items.foldl addType []).map Declaration.type

/-- The tokens that a repair may supply. -/
def supplies : List Supply :=
  [{ sort := .word, text := "_", notBefore := ["\x7b", "(", "!", "::", "@", "<"] },
    { sort := .mark, text := ";", endsText := true }, { sort := .mark, text := ")" },
    { sort := .mark, text := "]" }, { sort := .mark, text := "\x7d", endsText := true },
    { sort := .mark, text := ">" }]

/-- The syntax tree of a source. -/
def parse (source : List Char) : Node :=
  let text := String.ofList source
  let slice (span : Span) : String := String.Pos.Raw.extract text ⟨span.start.byte⟩ ⟨span.stop.byte⟩
  (RustGrammar.grammar.parse .file supplies
    (fun comment => if comment.isBlock then .blockComment else .lineComment) .sourceFile
    (RustTokens.ofSource source)).fill slice

/-- Rust, with trees from any parser. -/
def languageBy (parse : List Char → Node) : Language :=
  .ofTree "Rust" [".rs"] .cLike declarations parse

def language : Language := languageBy parse

end RustOutline
end CodeSurvey
