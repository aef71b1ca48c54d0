import CodeSurvey.Fault
import CodeSurvey.FileReport
import CodeSurvey.Syntax.Tree
import CodeSurvey.Text.Utf8

/-
Languages: what turns the bytes of a file into its outline.
-/

namespace CodeSurvey

/-- The delimiters of line comments, and of block comments with their closing delimiters. -/
structure CommentSyntax where
  line : List String
  block : List (String × String)
  deriving Repr, DecidableEq, Inhabited

namespace CommentSyntax

def cLike : CommentSyntax := { line := ["//"], block := [("/*", "*/")] }

def hash : CommentSyntax := { line := ["#"], block := [("\"\"\"", "\"\"\""), ("'''", "'''")] }

end CommentSyntax

/-- What an outliner does with a file. -/
inductive Outlined where
  | outlined (report : FileReport)
  | refused (fault : Fault)
  /-- the outliner broke down, with the message it left, if any -/
  | crashed (message : Option String)
  deriving Inhabited

structure Language where
  name : String
  extensions : List String
  comments : CommentSyntax := .cLike
  outline : Path → List UInt8 → Outlined

instance : Inhabited Language :=
  ⟨{ name := "", extensions := [], outline := fun _ _ => .crashed none }⟩

namespace Language

/-- A byte-order mark at the start says nothing. -/
def withoutMark : List Char → List Char
  | [] => []
  | c :: rest => if c == Text.Utf8.byteOrderMark then rest else c :: rest

/-- The text of a file, without its byte-order mark. -/
def decode (path : Path) (content : List UInt8) : Except Fault (List Char) :=
  match Text.Utf8.decode content with
  | .ok text => .ok (withoutMark text)
  | .error fault => .error (.parse path ("content is not valid UTF-8: " ++ fault.message))

/-- A language whose outlines depend on the decoded text only. -/
def ofText (name : String) (extensions : List String) (comments : CommentSyntax)
    (read : List Char → List Declaration × List SyntaxFault) : Language where
  name
  extensions
  comments
  outline path content :=
    match decode path content with
    | .ok text => .outlined (.assemble path name (read text).1 (read text).2)
    | .error fault => .refused fault

/-- A language whose outlines are read off the syntax tree that `parse` makes of a text. -/
def ofTree {κ : Type} (name : String) (extensions : List String) (comments : CommentSyntax)
    (declarations : Syntax.Tree κ → List Declaration) (parse : List Char → Syntax.Tree κ) :
    Language :=
  ofText name extensions comments fun text =>
    let tree := parse text
    (declarations tree, tree.faults.take maxSyntaxFaults)

end Language
end CodeSurvey
