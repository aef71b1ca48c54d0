import CodeSurvey.FileReport
import CodeSurvey.Text.Blank

/-
Concrete syntax trees.  A tree holds every token of the text it was read from; comments and the
traces of repairs stand among the children of the lowest node around them.
-/

namespace CodeSurvey
namespace Syntax

/-- A place in a text: bytes from the start, rows from 0, bytes from the start of the row. -/
structure Place where
  byte : Nat
  row : Nat
  column : Nat
  deriving Repr, DecidableEq, Inhabited

namespace Place

def start : Place := ⟨0, 0, 0⟩

def next (place : Place) (c : Char) : Place :=
  if c == '\n' then ⟨place.byte + 1, place.row + 1, 0⟩
  else ⟨place.byte + c.utf8Size, place.row, place.column + c.utf8Size⟩

/-- The place after a text that begins at `place`. -/
def after (place : Place) (text : List Char) : Place := text.foldl next place

end Place

structure Span where
  start : Place
  stop : Place
  deriving Repr, DecidableEq, Inhabited

/-- The part that a node plays in its parent. -/
inductive Role where
  | name
  | parameters
  | returnType
  | body
  | definition
  | moduleName
  | left
  | superclasses
  | subject
  | operator
  | pattern
  | argument
  deriving Repr, DecidableEq, Inhabited

/-- What a node stands for: a construct of the language, a token written in the text, a stretch that
the grammar could not place, or a token that the grammar needed and the text lacks. -/
inductive Label (κ : Type) where
  | kind (kind : κ)
  | token
  | error
  | missing (expected : String)
  deriving Repr, DecidableEq, Inhabited

inductive Tree (κ : Type) where
  | node (label : Label κ) (role : Option Role) (text : String) (span : Span)
      (children : List (Tree κ))
  deriving Repr, Inhabited

namespace Tree

variable {κ : Type}

def label : Tree κ → Label κ
  | node label _ _ _ _ => label

def role : Tree κ → Option Role
  | node _ role _ _ _ => role

/-- The text that the node covers. -/
def text : Tree κ → String
  | node _ _ text _ _ => text

def span : Tree κ → Span
  | node _ _ _ span _ => span

def children : Tree κ → List (Tree κ)
  | node _ _ _ _ children => children

def startLine (tree : Tree κ) : Nat := tree.span.start.row + 1

def endLine (tree : Tree κ) : Nat := tree.span.stop.row + 1

def kind? (tree : Tree κ) : Option κ :=
  match tree.label with
  | .kind kind => some kind
  | _ => none

/-- Constructs and errors are named; tokens that stand only for themselves are not. -/
def isNamed (tree : Tree κ) : Bool :=
  match tree.label with
  | .kind _ | .error => true
  | _ => false

def namedChildren (tree : Tree κ) : List (Tree κ) := tree.children.filter isNamed

/-- The first child in the given role. -/
def child? (tree : Tree κ) (role : Role) : Option (Tree κ) :=
  tree.children.find? (·.role == some role)

/-- The text of the child that names the tree. -/
def nameText (tree : Tree κ) : String := ((tree.child? .name).map text).getD "<anonymous>"

def isKind [DecidableEq κ] (tree : Tree κ) (kind : κ) : Bool := tree.kind? == some kind

mutual

/-- The number of nodes, the tree itself included, that satisfy `p`. -/
def count (p : Tree κ → Bool) : Tree κ → Nat
  | node label role text span children =>
    (if p (node label role text span children) then 1 else 0) + countAll p children

def countAll (p : Tree κ → Bool) : List (Tree κ) → Nat
  | [] => 0
  | tree :: rest => count p tree + countAll p rest

end

/-- How much of a misplaced stretch a fault quotes. -/
def quotedLength : Nat := 40

def faultOf (place : Place) (message : String) : SyntaxFault :=
  { line := place.row + 1, column := place.column + 1, message }

/-- The start of a misplaced stretch, quoted. -/
def quoted (text : String) : String :=
  "`" ++ String.ofList (Text.trim (text.toList.take quotedLength)) ++ "`"

mutual

/-- The faults of a tree in the order of the text.  What stands inside an error is not looked at. -/
def faults : Tree κ → List SyntaxFault
  | node label _ text span children =>
    match label with
    | .missing expected => [faultOf span.start ("missing `" ++ expected ++ "`")]
    | .error => [faultOf span.start ("syntax error near " ++ quoted text)]
    | _ => faultsAll children

def faultsAll : List (Tree κ) → List SyntaxFault
  | [] => []
  | tree :: rest => faults tree ++ faultsAll rest

end

def withRole (role : Role) : Tree κ → Tree κ
  | node label _ text span children => node label (some role) text span children

/-- A node over its children, from the start of the first to the end of the last. -/
def spanning (label : Label κ) (place : Place) (children : List (Tree κ)) : Tree κ :=
  let start := (children.head?.map fun tree => tree.span.start).getD place
  let stop := (children.getLast?.map fun tree => tree.span.stop).getD place
  node label none "" ⟨start, stop⟩ children

/-- The same node, ending at `place`. -/
def endingAt (place : Place) : Tree κ → Tree κ
  | node label role text span children => node label role text ⟨span.start, place⟩ children

/-- Whether a place lies strictly inside a tree. -/
def encloses (tree : Tree κ) (place : Place) : Bool :=
  tree.span.start.byte < place.byte && place.byte < tree.span.stop.byte

mutual

/-- Puts an extra node among the children of the lowest node that encloses it. -/
def insert (extra : Tree κ) : Tree κ → Tree κ
  | node label role text span children => node label role text span (insertAll extra children)

def insertAll (extra : Tree κ) : List (Tree κ) → List (Tree κ)
  | [] => [extra]
  | tree :: rest =>
    if tree.encloses extra.span.start then insert extra tree :: rest
    else if tree.span.start.byte ≤ extra.span.start.byte
        && tree.span.stop.byte ≤ extra.span.start.byte then tree :: insertAll extra rest
    else extra :: tree :: rest

end

mutual

/-- Fills in the text of every node. -/
def fill (slice : Span → String) : Tree κ → Tree κ
  | node label role _ span children => node label role (slice span) span (fillAll slice children)

def fillAll (slice : Span → String) : List (Tree κ) → List (Tree κ)
  | [] => []
  | tree :: rest => fill slice tree :: fillAll slice rest

end

end Tree
end Syntax
end CodeSurvey
