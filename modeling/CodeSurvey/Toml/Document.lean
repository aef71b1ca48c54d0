import CodeSurvey.Toml.Scalar

/-
TOML documents: lines of keys and values under headers of tables.
-/

namespace CodeSurvey
namespace Toml

/-- What was read, and the text that is left. -/
abbrev Read (α : Type) := Option (α × List Char)

/-- Values may be nested, and keys dotted, less than this many times. -/
def depthLimit : Nat := 80

/-- Skips blanks, ends of lines and comments. -/
def skipBlank (inComment : Bool) : List Char → Option (List Char)
  | [] => some []
  | '\n' :: rest => skipBlank false rest
  | '\r' :: '\n' :: rest => skipBlank false rest
  | c :: rest =>
    if inComment then if isPlain c then skipBlank true rest else none
    else if isWs c then skipBlank false rest
    else if c == '#' then skipBlank true rest
    else some (c :: rest)

/-- Skips the rest of a line, in which only blanks and a comment may stand. -/
def lineEnd (inComment : Bool) : List Char → Option (List Char)
  | [] => some []
  | '\n' :: rest => some rest
  | '\r' :: '\n' :: rest => some rest
  | c :: rest =>
    if inComment then if isPlain c then lineEnd true rest else none
    else if isWs c then lineEnd false rest
    else if c == '#' then lineEnd true rest
    else none

def skipWs (text : List Char) : List Char := text.dropWhile isWs

def isKeyChar (c : Char) : Bool :=
  c.isDigit || ('a' ≤ c && c ≤ 'z') || ('A' ≤ c && c ≤ 'Z') || c == '_' || c == '-'

def simpleKey (text : List Char) : Read String :=
  match text with
  | '"' :: rest => (basicString rest).map fun (key, left) => (String.ofList key, left)
  | '\'' :: rest => (literalString rest).map fun (key, left) => (String.ofList key, left)
  | _ =>
    match text.takeWhile isKeyChar with
    | [] => none
    | key => some (String.ofList key, text.drop key.length)

/-- Keys with dots between them, in at most `limit` steps. -/
def dottedKey : Nat → List Char → Read (List String)
  | 0, _ => none
  | limit + 1, text =>
    match simpleKey text with
    | none => none
    | some (key, left) =>
      match skipWs left with
      | '.' :: rest => (dottedKey limit (skipWs rest)).map fun (keys, left) => (key :: keys, left)
      | left => some ([key], left)

def isWordEnd (c : Char) : Bool :=
  isWs c || c == '\n' || c == '\r' || c == ',' || c == ']' || c == '\x7d' || c == '#'

/-- A value without quotes or brackets.  A blank may stand between a date and a time. -/
def wordRead (text : List Char) : Read Value :=
  let word := text.takeWhile (! isWordEnd ·)
  let left := text.drop word.length
  let single := (wordValue word).map fun value => (value, left)
  match left with
  | ' ' :: rest =>
    let time := rest.takeWhile (! isWordEnd ·)
    if isDate word && isOffsetTime time then
      some (.dateTime (String.ofList (word ++ ' ' :: time)), rest.drop time.length)
    else single
  | _ => single

/-- The keys of a path and the last one. -/
def splitLast : List String → Option (List String × String)
  | [] => none
  | keys => (keys.getLast?).map fun last => (keys.dropLast, last)

mutual

/-- A value at the given depth, in at most `limit` steps. -/
def value : Nat → Nat → List Char → Read Value
  | 0, _, _ => none
  | limit + 1, depth, text =>
    match text with
    | '[' :: rest =>
      if depth + 1 < depthLimit then
        (elements limit (depth + 1) rest).map fun (values, left) => (.array values, left)
      else none
    | '\x7b' :: rest =>
      if depth + 1 < depthLimit then
        match skipWs rest with
        | '\x7d' :: left => some (.inline [], left)
        | start =>
          (pairs limit (depth + 1) [] start).map fun (entries, left) => (.inline entries, left)
      else none
    | '"' :: _ | '\'' :: _ =>
      (quoted text).map fun (content, left) => (.string (String.ofList content), left)
    | _ => wordRead text

/-- The elements of an array and its closing bracket. -/
def elements : Nat → Nat → List Char → Read (List Value)
  | 0, _, _ => none
  | limit + 1, depth, text =>
    match skipBlank false text with
    | none => none
    | some (']' :: left) => some ([], left)
    | some start =>
      match value limit depth start with
      | none => none
      | some (first, left) =>
        match skipBlank false left with
        | some (',' :: rest) =>
          (elements limit depth rest).map fun (values, left) => (first :: values, left)
        | some (']' :: left) => some ([first], left)
        | _ => none

/-- The keys and values of an inline table and its closing brace. -/
def pairs : Nat → Nat → Entries → List Char → Read Entries
  | 0, _, _, _ => none
  | limit + 1, depth, entries, text =>
    match dottedKey depthLimit (skipWs text) with
    | none => none
    | some (keys, left) =>
      match skipWs left with
      | '=' :: rest =>
        match splitLast keys, value limit depth (skipWs rest) with
        | some (path, key), some (content, left) =>
          match entries.set path key content with
          | none => none
          | some entries =>
            match skipWs left with
            | ',' :: rest => pairs limit depth entries rest
            | '\x7d' :: left => some (entries, left)
            | _ => none
        | _, _ => none
      | _ => none

end

/-- A document with the path of the table that its next lines belong to. -/
structure Open where
  root : Entries
  path : List String
  deriving Repr, Inhabited

/-- The keys of a header up to its closing brackets. -/
def headerKeys (closing text : List Char) : Read (List String × String) :=
  match dottedKey depthLimit (skipWs text) with
  | none => none
  | some (keys, left) =>
    match splitLast keys, Text.stripStart closing (skipWs left) with
    | some split, some left => some (split, left)
    | _, _ => none

/-- Reads one line that is not blank. -/
def line (document : Open) (text : List Char) : Read Open :=
  match text with
  | '[' :: '[' :: rest =>
    match headerKeys [']', ']'] rest with
    | none => none
    | some ((path, key), left) =>
      match document.root.alterAt (·.appendTable key) path, lineEnd false left with
      | some root, some left => some (⟨root, path ++ [key]⟩, left)
      | _, _ => none
  | '[' :: rest =>
    match headerKeys [']'] rest with
    | none => none
    | some ((path, key), left) =>
      match document.root.alterAt (·.openTable key) path, lineEnd false left with
      | some root, some left => some (⟨root, path ++ [key]⟩, left)
      | _, _ => none
  | _ =>
    match dottedKey depthLimit text with
    | none => none
    | some (keys, left) =>
      match skipWs left with
      | '=' :: rest =>
        match splitLast keys, value (2 * (rest.length + 1)) 0 (skipWs rest) with
        | some (path, key), some (content, left) =>
          match document.root.alterAt (·.set path key content) document.path,
          lineEnd false left with
          | some root, some left => some (⟨root, document.path⟩, left)
          | _, _ => none
        | _, _ => none
      | _ => none

/-- Reads the lines of a document, at most `limit` of them. -/
def linesFrom : Nat → Open → List Char → Option Entries
  | 0, _, _ => none
  | limit + 1, document, text =>
    match skipBlank false text with
    | none => none
    | some [] => some document.root
    | some start =>
      match line document start with
      | some (document, left) => linesFrom limit document left
      | none => none

/-- The entries of a document; none if it is not well formed.  A byte-order mark may come first. -/
def parse (text : List Char) : Option Entries :=
  let text := match text with
    | c :: rest => if c == '\ufeff' then rest else text
    | [] => []
  linesFrom (text.length + 1) ⟨[], []⟩ text

end Toml
end CodeSurvey
