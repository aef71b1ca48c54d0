import CodeSurvey.Text.Split

/-
Paths.  A path keeps the text it was written with; what it means, and how it compares, is decided by
its components: repeated separators and inner dots say nothing.
-/

namespace CodeSurvey

inductive Component where
  | root
  | current
  | parent
  | name (text : String)
  deriving Repr, DecidableEq, Inhabited

namespace Component

def rank : Component → Nat
  | root => 0
  | current => 1
  | parent => 2
  | name _ => 3

def text : Component → String
  | root => "/"
  | current => "."
  | parent => ".."
  | name text => text

/-- The root first, then dots, then names by code point. -/
def compare (a b : Component) : Ordering :=
  (Ord.compare a.rank b.rank).then (Ord.compare a.text b.text)

end Component

structure Path where
  text : String
  deriving Repr, DecidableEq, Inhabited

namespace Path

instance : ToString Path := ⟨Path.text⟩

/-- A stretch of the text between separators, with the component it stands for, if any. -/
structure Segment where
  text : List Char
  component : Option Component
  deriving Repr

/-- What a stretch stands for when it does not open the path. -/
def innerComponent (text : List Char) : Option Component :=
  if text = [] || text = ['.'] then none
  else if text = ['.', '.'] then some .parent
  else some (.name (String.ofList text))

/-- A path that opens with a separator starts at the root; an opening dot is kept. -/
def segments (path : Path) : List Segment :=
  match Text.splitWhere (· == '/') path.text.toList with
  | [] => []
  | [only] => [⟨only, if only = ['.'] then some .current else innerComponent only⟩]
  | first :: more =>
    ⟨first, if first = [] then some .root
      else if first = ['.'] then some .current else innerComponent first⟩
      :: more.map fun text => ⟨text, innerComponent text⟩

def components (path : Path) : List Component := path.segments.filterMap Segment.component

/-- Segments as text again, without trailing ones that stand for nothing. -/
def ofSegments (segments : List Segment) : Path :=
  let kept := (segments.reverse.dropWhile (·.component.isNone)).reverse
  match kept with
  | [] => ⟨""⟩
  | [⟨_, some .root⟩] => ⟨"/"⟩
  | _ => ⟨String.ofList (List.intercalate ['/'] (kept.map Segment.text))⟩

/-- The last component, if it is a name. -/
def fileName? (path : Path) : Option String :=
  match path.components.getLast? with
  | some (.name text) => some text
  | _ => none

/-- The part of the file name after its last dot, unless that dot opens the name. -/
def extension? (path : Path) : Option String := do
  let name ← path.fileName?
  let fromEnd := name.toList.reverse
  let last := fromEnd.takeWhile (· != '.')
  match fromEnd.drop last.length with
  | _ :: _ :: _ => some (String.ofList last.reverse)
  | _ => none

/-- The path without its last component; the root and the empty path have none. -/
def parent? (path : Path) : Option Path :=
  match path.segments.reverse.dropWhile (·.component.isNone) with
  | [] => none
  | ⟨_, some .root⟩ :: _ => none
  | _ :: before => some (ofSegments before.reverse)

def isAbsolute (path : Path) : Bool := path.text.toList.head? == some '/'

/-- `path` seen from the directory `base`. -/
def join (base : Path) (path : String) : Path :=
  if path.toList.head? == some '/' || base.text == "" then ⟨path⟩
  else if base.text.toList.getLast? == some '/' then ⟨base.text ++ path⟩
  else ⟨base.text ++ "/" ++ path⟩

/-- The segments left after those that stand for `wanted`. -/
def dropComponents : List Component → List Segment → Option (List Segment)
  | [], left => some left
  | _ :: _, [] => none
  | wanted :: more, segment :: left =>
    match segment.component with
    | none => dropComponents (wanted :: more) left
    | some found => if found = wanted then dropComponents more left else none

/-- The rest of `path` below `base`, as it is written. -/
def stripPrefix? (path base : Path) : Option Path :=
  match base.components with
  | [] => some (ofSegments path.segments)
  | wanted =>
    (dropComponents wanted path.segments).map fun left =>
      ofSegments (left.dropWhile (·.component.isNone))

/-- The path below `base`, or the whole path if it is not below. -/
def relativeTo (path base : Path) : Path := (path.stripPrefix? base).getD path

def compareComponents : List Component → List Component → Ordering
  | [], [] => .eq
  | [], _ :: _ => .lt
  | _ :: _, [] => .gt
  | a :: as, b :: bs => (a.compare b).then (compareComponents as bs)

/-- Component by component, so a directory's files come before a file whose name extends its own. -/
def compare (a b : Path) : Ordering := compareComponents a.components b.components

def le (a b : Path) : Bool := a.compare b != .gt

/-- With `/` for every separator. -/
def normalized (path : Path) : String := path.text.map fun c => if c == '\\' then '/' else c

end Path
end CodeSurvey
