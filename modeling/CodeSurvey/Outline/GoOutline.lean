import CodeSurvey.Language
import CodeSurvey.Outline.GoLines
import CodeSurvey.Sum
import CodeSurvey.Text.Matcher
import CodeSurvey.Text.Split

/-
The outline of a Go file.  There is no grammar: declarations are recognised by how their first line
begins, and brackets tell where they end.
-/

namespace CodeSurvey
namespace GoOutline

open Text

/-- Opening minus closing brackets of one sort. -/
def balance (opening closing : Char) (code : List Char) : Int :=
  code.foldl
    (fun sum c => if c == opening then sum + 1 else if c == closing then sum - 1 else sum) 0

def braceBalance (line : Line) : Int := balance '\x7b' '\x7d' line.code

def parenBalance (line : Line) : Int := balance '(' ')' line.code

section Headers

open Matcher

/-- Arguments in square brackets, whatever they are. -/
def typeArguments : Matcher Unit := do
  literal "["
  let _ ← many (· != ']')
  literal "]"

/-- The receiver of a method: the name of its type. -/
def receiver : Matcher (List Char) := do
  literal "("
  blanks
  let _ ← optional (do let _ ← word; blanks1)
  let _ ← optional (literal "*")
  blanks
  let name ← word
  let _ ← optional typeArguments
  blanks
  literal ")"
  return name

/-- The header of a function up to its parameters: the type of its receiver,
if any, and its name. -/
def functionHeader : Matcher (Option (List Char) × List Char) := do
  literal "func"
  blanks
  let receiver ← optional receiver
  blanks
  let name ← word
  blanks
  let _ ← optional typeArguments
  blanks
  literal "("
  return (receiver, name)

/-- The header of a type: its name and kind. -/
def typeHeader : Matcher (List Char × TypeKind) := do
  literal "type"
  blanks1
  let name ← word
  let _ ← optional typeArguments
  blanks1
  let isStruct ← fun text =>
    (literal "struct" text).map (fun (_, rest) => (true, rest))
      ++ (literal "interface" text).map fun (_, rest) => (false, rest)
  wordEnd
  return (name, if isStruct then TypeKind.struct else .interface)

/-- An import path in quotes, possibly with a name before it. -/
def importSpec : Matcher (List Char) := do
  let _ ← optional (do let _ ← many1 (fun c => isWordChar c || c == '.'); blanks1)
  literal "\""
  let path ← many1 (· != '"')
  literal "\""
  return path

def importHeader : Matcher (List Char) := do
  literal "import"
  blanks1
  importSpec

/-- A method of an interface up to its parameters. -/
def methodHeader : Matcher (List Char) := do
  let name ← word
  blanks
  literal "("
  return name

end Headers

/-- Conjunctions and disjunctions. -/
def countJoins : List Char → Nat
  | '&' :: '&' :: rest => countJoins rest + 1
  | '|' :: '|' :: rest => countJoins rest + 1
  | _ :: rest => countJoins rest
  | [] => 0

def isBranchWord (word : List Char) : Bool :=
  ["if".toList, "for".toList, "case".toList].contains word

/-- The branches that a line of code adds. -/
def branches (code : List Char) : Nat :=
  ((splitWhere (! isWordChar ·) code).filter isBranchWord).length + countJoins code

def branchesOf (lines : List Line) : Nat := (lines.map fun line => branches line.code).sum

def isOpening (c : Char) : Bool := c == '(' || c == '[' || c == '\x7b'

def isClosing (c : Char) : Bool := c == ')' || c == ']' || c == '\x7d'

/-- The text before the bracket that closes `depth + 1` open ones, and the text after it; all of
it if there is none. -/
def splitParameters (depth : Nat) : List Char → List Char × List Char
  | [] => ([], [])
  | c :: rest =>
    if isClosing c then
      match depth with
      | 0 => ([], rest)
      | depth + 1 =>
        let (parameters, tail) := splitParameters depth rest
        (c :: parameters, tail)
    else
      let (parameters, tail) := splitParameters (if isOpening c then depth + 1 else depth) rest
      (c :: parameters, tail)

/-- Cuts at the commas outside all brackets.  A counter of 32 bits comes to the same as long as
never more than `2 ^ 31 - 1` brackets are open, or that many more closed than opened. -/
def parameterPieces (depth : Int) : List Char → List (List Char)
  | [] => [[]]
  | c :: rest =>
    if c == ',' && depth == 0 then [] :: parameterPieces depth rest
    else
      let depth := if isOpening c then depth + 1 else if isClosing c then depth - 1 else depth
      match parameterPieces depth rest with
      | [] => [[c]]
      | piece :: pieces => (c :: piece) :: pieces

/-- The first word of each piece. -/
def parameterNames (parameters : List Char) : List String :=
  (parameterPieces 0 parameters).filterMap fun piece => (words piece).head?.map String.ofList

/-- A name is public if it starts with a capital letter. -/
def isPublicName (name : List Char) : Bool := (name.head?.map isUppercase).getD false

/-- How many lines go by until open brackets are closed; none if they never are. -/
def linesToClose (delta : Line → Int) (depth : Int) : List Line → Option Nat
  | [] => none
  | line :: rest =>
    if depth + delta line ≤ 0 then some 1
    else (linesToClose delta (depth + delta line) rest).map (· + 1)

/-- How many lines a parameter list goes on after its first line, which leaves
`depth` brackets open. -/
def signatureLength (depth : Int) : List Line → Nat
  | [] => 0
  | line :: rest => if 0 < depth then signatureLength (depth + parenBalance line) rest + 1 else 0

/-- How far a declaration goes. -/
structure Extent where
  /-- the lines after the first -/
  further : Nat
  closed : Bool
  deriving Repr, DecidableEq, Inhabited

/-- The extent of a block that opens on `line`.  Without an open brace it ends there. -/
def blockExtent (line : Line) (after : List Line) : Extent :=
  if braceBalance line ≤ 0 then ⟨0, true⟩
  else match linesToClose braceBalance (braceBalance line) after with
    | some count => ⟨count, true⟩
    | none => ⟨after.length, false⟩

/-- What a line declares. -/
inductive Finding where
  | import (path : String)
  | function (receiver : Option String) (outline : FunctionOutline)
  | type (outline : TypeOutline)
  | fault (fault : SyntaxFault)
  deriving Repr, DecidableEq, Inhabited

/-- Findings, and how many of the lines after the first they take up. -/
structure Found where
  findings : List Finding
  further : Nat
  deriving Repr, DecidableEq, Inhabited

def faultAt (line : Nat) (message : String) : Finding := .fault ⟨line, 1, message⟩

/-- Lines as they are found: how many come before, the one right before, and the line itself
with those after it. -/
structure Position where
  index : Nat
  before : Option Line
  line : Line
  after : List Line
  deriving Repr, Inhabited

def Position.lineNumber (position : Position) : Nat := position.index + 1

/-- A comment on the line above documents a declaration. -/
def Position.isDocumented (position : Position) : Bool :=
  match position.before with
  | some line => "//".toList.isPrefixOf (trimStart line.raw)
  | none => false

/-- The paths of an import group and the number of its lines; none if it does not end. -/
def importGroup : List Line → List String × Option Nat
  | [] => ([], none)
  | line :: rest =>
    if (trimStart line.code).head? == some ')' then ([], some 1)
    else
      let (paths, count) := importGroup rest
      let path := (importSpec.run (trim line.raw)).map fun (path, _) => String.ofList path
      (path.toList ++ paths, count.map (· + 1))

def importAt (position : Position) : Found :=
  match importHeader.run (trim position.line.raw) with
  | some (path, _) => ⟨[.import (String.ofList path)], 0⟩
  | none =>
    if ! position.line.code.contains '(' then ⟨[], 0⟩
    else match importGroup position.after with
      | (paths, some count) => ⟨paths.map .import, count⟩
      | (paths, none) =>
        let last := position.lineNumber + position.after.length
        ⟨paths.map .import ++ [faultAt last "unterminated import block"], position.after.length⟩

def unclosed (line : Nat) : Finding := faultAt line "unexpected end of file: unclosed brace"

/-- The function whose header was read up to `tail`. -/
def functionAt (position : Position) (receiver : Option String) (name tail : List Char) : Found :=
  let signature := signatureLength (parenBalance position.line) position.after
  let headerLines := position.after.take signature
  let header := tail ++ headerLines.flatMap fun line => ' ' :: trim line.code
  let last := headerLines.getLastD position.line
  let block := blockExtent last (position.after.drop signature)
  let further := signature + block.further
  let (parameters, rest) := splitParameters 0 header
  let outline := { FunctionOutline.ofLines (String.ofList name) position.lineNumber
      (position.lineNumber + further) with
    parameters := parameterNames parameters
    returnType := String.ofList (trim (upTo (· == '\x7b') rest))
    isPublic := isPublicName name
    hasDocstring := position.isDocumented
    complexity := 1 + branchesOf (position.line :: position.after.take further) }
  let faults := if block.closed then [] else [unclosed (position.lineNumber + signature)]
  ⟨faults ++ [.function receiver outline], further⟩

/-- The method on a line of an interface. -/
def methodOn (lineNumber : Nat) (line : Line) : Option FunctionOutline :=
  (methodHeader.run (trim line.code)).map fun (name, tail) =>
    let (parameters, rest) := splitParameters 0 tail
    { FunctionOutline.ofLines (String.ofList name) lineNumber lineNumber with
      isPublic := isPublicName name
      parameters := parameterNames parameters
      returnType := String.ofList (trim rest) }

/-- The names that a line of a structure declares. -/
def fieldsOn (line : Line) : List String :=
  (splitWhere (· == ',') (trim line.code)).filterMap fun piece =>
    match (words piece).head? with
    | some name =>
      if (name.head?.map fun c => isAlphabetic c || c == '_').getD false then
        some (String.ofList (name.dropWhile (· == '*')))
      else none
    | none => none

/-- A line that declares no member. -/
def isBare (line : Line) : Bool :=
  match trim line.code with
  | [] => true
  | c :: _ => c == '\x7d'

def numberedMethods (lineNumber : Nat) : List Line → List FunctionOutline
  | [] => []
  | line :: rest =>
    (if isBare line then [] else (methodOn lineNumber line).toList)
      ++ numberedMethods (lineNumber + 1) rest

def typeAt (position : Position) (name : List Char) (kind : TypeKind) : Found :=
  let block := blockExtent position.line position.after
  let body := position.after.take (block.further - 1)
  let outline := { TypeOutline.ofLines (String.ofList name) kind position.lineNumber
      (position.lineNumber + block.further) with
    hasDocstring := position.isDocumented }
  let outline := match kind with
    | .interface => { outline with methods := numberedMethods (position.lineNumber + 1) body }
    | _ => { outline with fields := (body.filter (! isBare ·)).flatMap fieldsOn }
  let faults := if block.closed then [] else [unclosed position.lineNumber]
  ⟨faults ++ [.type outline], block.further⟩

/-- What the declaration on a line is, if it begins one. -/
def declarationAt (position : Position) : Option Found :=
  let code := trim position.line.code
  if "import".toList.isPrefixOf code then some (importAt position)
  else match functionHeader.run code with
    | some ((receiver, name), tail) =>
      some (functionAt position (receiver.map String.ofList) name tail)
    | none =>
      match typeHeader.run code with
      | some ((name, kind), _) => some (typeAt position name kind)
      | none => none

/-- Reads lines one after another.  `taken` lines belong to a declaration already found; between
declarations at most `depth` braces are open. -/
def scan (index taken : Nat) (depth : Int) (before : Option Line) : List Line → List Finding
  | [] => []
  | line :: after =>
    match taken with
    | taken + 1 => scan (index + 1) taken depth (some line) after
    | 0 =>
      match declarationAt ⟨index, before, line, after⟩ with
      | some found => found.findings ++ scan (index + 1) found.further depth (some line) after
      | none =>
        let depth := depth + braceBalance line
        if depth < 0 then
          faultAt (index + 1) "unexpected closing brace" :: scan (index + 1) 0 0 (some line) after
        else scan (index + 1) 0 depth (some line) after

/-- All findings of a source, in the order of its lines. -/
def findings (source : List Char) : List Finding := scan 0 0 0 none (stripLines source)

def imports (findings : List Finding) : List String :=
  findings.filterMap fun
    | .import path => some path
    | _ => none

def functions (findings : List Finding) : List FunctionOutline :=
  findings.filterMap fun
    | .function none outline => some outline
    | _ => none

/-- The methods with the types of their receivers. -/
def methods (findings : List Finding) : List (String × FunctionOutline) :=
  findings.filterMap fun
    | .function (some receiver) outline => some (receiver, outline)
    | _ => none

def types (findings : List Finding) : List TypeOutline :=
  findings.filterMap fun
    | .type outline => some outline
    | _ => none

def faults (findings : List Finding) : List SyntaxFault :=
  findings.filterMap fun
    | .fault fault => some fault
    | _ => none

/-- A type with the methods that are declared on it. -/
def withMethods (methods : List (String × FunctionOutline)) (type : TypeOutline) : TypeOutline :=
  { type with
    methods := type.methods ++ (methods.filter (·.1 == type.name)).map (·.2) }

/-- Adds a method to the type of its receiver, which is created for the first one. -/
def addOrphan (types : List TypeOutline) (receiver : String) (method : FunctionOutline) :
    List TypeOutline :=
  match types with
  | [] =>
    [{ TypeOutline.ofLines receiver .struct method.startLine method.endLine with
      methods := [method] }]
  | type :: rest =>
    if type.name == receiver then { type with methods := type.methods ++ [method] } :: rest
    else type :: addOrphan rest receiver method

/-- The types of receivers that are declared in other files. -/
def orphans (types : List TypeOutline) (methods : List (String × FunctionOutline)) :
    List TypeOutline :=
  (methods.filter fun (receiver, _) => ! types.any (·.name == receiver)).foldl
    (fun orphans (receiver, method) => addOrphan orphans receiver method) []

def declarations (findings : List Finding) : List Declaration :=
  let types := types findings
  let methods := methods findings
  (imports findings).map Declaration.import
    ++ (functions findings).map Declaration.function
    ++ (types.map (withMethods methods)).map Declaration.type
    ++ (orphans types methods).map Declaration.type

/-- The declarations and faults of a source. -/
def read (source : List Char) : List Declaration × List SyntaxFault :=
  let findings := findings source
  (declarations findings, faults findings)

def language : Language := .ofText "Go" [".go"] .cLike read

end GoOutline
end CodeSurvey
