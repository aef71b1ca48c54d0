import CodeSurvey.Syntax.Token

/-
Reading tokens by the rules of a grammar.  A rule names the rules below it, and one function with a
budget ties the knot; a reader that fails leaves behind how far it came, which is where the text
stops following the grammar.
-/

namespace CodeSurvey
namespace Syntax

structure State where
  tokens : List Token
  /-- where the last token read ends -/
  last : Place
  /-- the least number of tokens that were left at any time -/
  reach : Nat
  /-- whether the end of a line ends what is being read -/
  inLine : Bool
  /-- the constructs completed so far, the latest first, on whatever way they were found -/
  built : List Span
  deriving Repr, Inhabited

def State.start (tokens : List Token) : State :=
  { tokens, last := .start, reach := tokens.length, inLine := false, built := [] }

/-- The state again, with what an attempt to read on has shown. -/
def State.noting (state after : State) : State :=
  { state with reach := min state.reach after.reach, built := after.built }

/-- A reader either returns a value or fails; both leave a state. -/
abbrev Reader (α : Type) := OptionT (StateM State) α

namespace Reader

def fail : Reader α := fun state => (none, state)

def endToken : Token := ⟨.stop, "", ⟨.start, .start⟩, true, 0, [], false, false⟩

/-- The next token, whatever it is. -/
def next : Reader Token := fun state => (some (state.tokens.headD endToken), state)

/-- The token after the next one. -/
def second : Reader Token := fun state => (some ((state.tokens.drop 1).headD endToken), state)

/-- All tokens that are left. -/
def upcoming : Reader (List Token) := fun state => (some state.tokens, state)

/-- Whether the next token continues what is being read and satisfies `p`. -/
def nextIs (p : Token → Bool) : Reader Bool := fun state =>
  let token := state.tokens.headD endToken
  (some (p token && ! (state.inLine && token.lineBreak)), state)

def nextMark (text : String) : Reader Bool := nextIs (·.isMark text)

def nextWord (text : String) : Reader Bool := nextIs (·.isWord text)

/-- A line cannot end here, so a line break before the next token is no more than a blank. -/
def skipBreak : Reader Unit := fun state =>
  match state.tokens with
  | token :: rest => (some (), { state with tokens := { token with lineBreak := false } :: rest })
  | [] => (some (), state)

/-- Reads `m` with line breaks ending it or not. -/
def withLines (inLine : Bool) (m : Reader α) : Reader α := fun state =>
  let (result, after) := m { state with inLine }
  (result, { after with inLine := state.inLine })

/-- Reads `m` if possible; else nothing is read. -/
def attempt (m : Reader α) : Reader (Option α) := fun state =>
  match m state with
  | (some a, after) => (some (some a), after)
  | (none, after) => (some none, state.noting after)

def orElse (a b : Reader α) : Reader α := do
  match ← attempt a with
  | some value => return value
  | none => b

variable {κ : Type}

/-- Reads the token that ends a construct.  It alone may be supplied, and is reported
as `expected` then. -/
def final (expected : String) (p : Token → Bool) : Reader (List (Tree κ)) := fun state =>
  match state.tokens with
  | t :: rest =>
    if p t && t.sort != .stop && ! (state.inLine && t.lineBreak) then
      let label := if t.isSupplied then Label.missing expected else Label.token
      (some [.node label none t.text t.span []],
        { state with tokens := rest, last := t.span.stop, reach := min state.reach rest.length })
    else (none, state)
  | [] => (none, state)

/-- Reads one token. -/
def token (p : Token → Bool) : Reader (List (Tree κ)) := final "" fun t => p t && ! t.isSupplied

/-- Reads a mark that ends a construct. -/
def closing (text : String) : Reader (List (Tree κ)) := final text (·.isMark text)

def mark (text : String) : Reader (List (Tree κ)) := token (·.isMark text)

def word (text : String) : Reader (List (Tree κ)) := token (·.isWord text)

/-- Reads the token if it stands here. -/
def mark? (text : String) : Reader (List (Tree κ)) := do
  if ← nextMark text then mark text else return []

def word? (text : String) : Reader (List (Tree κ)) := do
  if ← nextWord text then word text else return []

/-- A construct over trees that are already there. -/
def wrap (kind : κ) (children : List (Tree κ)) : Reader (List (Tree κ)) := fun state =>
  let tree := Tree.spanning (.kind kind) state.last children
  (some [tree], { state with built := tree.span :: state.built })

/-- A construct over what `m` reads. -/
def node (kind : κ) (m : Reader (List (Tree κ))) : Reader (List (Tree κ)) := do wrap kind (← m)

/-- Gives what `m` reads a role. -/
def role (role : Role) (m : Reader (List (Tree κ))) : Reader (List (Tree κ)) := do
  return (← m).map (Tree.withRole role)

/-- Reads one part after another. -/
def seq : List (Reader (List (Tree κ))) → Reader (List (Tree κ))
  | [] => return []
  | m :: more => do
    let first ← m
    return first ++ (← seq more)

def left : Reader Nat := fun state => (some state.tokens.length, state)

/-- Repeats `m` while it reads something, at most `limit` times. -/
def manyUpTo (m : Reader (List (Tree κ))) : Nat → Reader (List (Tree κ))
  | 0 => return []
  | limit + 1 => do
    let before ← left
    match ← attempt m with
    | none => return []
    | some trees =>
      if (← left) < before then return trees ++ (← manyUpTo m limit) else return trees

/-- Repeats `m` as often as it reads something. -/
def many (m : Reader (List (Tree κ))) : Reader (List (Tree κ)) := do manyUpTo m (← left)

def many1 (m : Reader (List (Tree κ))) : Reader (List (Tree κ)) := do
  let first ← m
  return first ++ (← many m)

/-- Extends a tree on its right while `step` finds a way, at most `limit` times. -/
def extendUpTo (step : List (Tree κ) → Reader (Option (List (Tree κ)))) :
    Nat → List (Tree κ) → Reader (List (Tree κ))
  | 0, trees => return trees
  | limit + 1, trees => do
    match ← step trees with
    | none => return trees
    | some more => extendUpTo step limit more

def extend (step : List (Tree κ) → Reader (Option (List (Tree κ)))) (trees : List (Tree κ)) :
    Reader (List (Tree κ)) := do extendUpTo step (← left) trees

/-- At most `limit` elements with `separator` between them and possibly after the last, up to a
closing mark. -/
def listUpTo (separator close : String) (element : Reader (List (Tree κ))) :
    Nat → Reader (List (Tree κ))
  | 0 => return []
  | limit + 1 => do
    if ← nextMark close then return []
    let first ← element
    if ← nextMark separator then
      let cut ← mark separator
      return first ++ cut ++ (← listUpTo separator close element limit)
    else return first

/-- Elements with `separator` between them and possibly after the last, up to a closing mark. -/
def listUntil (separator close : String) (element : Reader (List (Tree κ))) :
    Reader (List (Tree κ)) := do listUpTo separator close element (← left)

end Reader

/-- A grammar says how each rule is read, given how the rules it names are read. -/
abbrev Grammar (κ ρ : Type) := (ρ → Reader (List (Tree κ))) → ρ → Reader (List (Tree κ))

/-- Where a text stops following the grammar. -/
structure Failure where
  /-- how many tokens are left there, the end of the text among them -/
  left : Nat
  /-- the constructs completed before -/
  built : List Span
  deriving Repr, Inhabited

namespace Grammar

variable {κ ρ : Type}

/-- Reads a rule with at most `budget` rules inside each other. -/
def read (grammar : Grammar κ ρ) : Nat → ρ → Reader (List (Tree κ))
  | 0, _ => Reader.fail
  | budget + 1, rule => grammar (read grammar budget) rule

/-- Between two tokens a rule may name this many others before it reads one. -/
def depthPerToken : Nat := 40

/-- Reads all tokens by one rule: the trees, or how it failed. -/
def readAll (grammar : Grammar κ ρ) (rule : ρ) (tokens : List Token) :
    Except Failure (List (Tree κ)) :=
  match grammar.read (depthPerToken * (tokens.length + 1)) rule (.start tokens) with
  | (some trees, state) =>
    if state.tokens.length ≤ 1 then .ok trees else .error ⟨state.reach, state.built⟩
  | (none, state) => .error ⟨state.reach, state.built⟩

end Grammar
end Syntax
end CodeSurvey
