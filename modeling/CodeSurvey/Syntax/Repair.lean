import CodeSurvey.Syntax.Grammar

/-
Repairs of texts that do not follow the grammar.  Where a reading fails, a token is supplied, or
constructs read before and tokens still to come are passed over until the reading can go on.
Several repaired readings, called versions, move through the text side by side; one that is clearly
dearer than another is given up on the way, and the cheapest one that reaches the end is taken.
-/

namespace CodeSurvey
namespace Syntax

/-- A token that may be supplied. -/
structure Supply where
  sort : TokenSort
  text : String
  /-- whether what it ends can be the last thing in a text -/
  endsText : Bool := false
  /-- the marks it is not supplied before, since they would carry on what it is to end -/
  notBefore : List String := []
  deriving Repr, DecidableEq, Inhabited

namespace Repair

def costOfRepair : Nat := 500

def costOfMissing : Nat := 610

def costPerTree : Nat := 100

def costPerLine : Nat := 30

/-- What a stretch of text costs that is passed over, besides what stands in it. -/
def costOfStretch (span : Span) : Nat :=
  costOfRepair + (span.stop.byte - span.start.byte) + costPerLine * (span.stop.row - span.start.row)

/-- How many constructs, counted from the place of failure, may be passed over. -/
def depth : Nat := 16

/-- How many versions are kept side by side. -/
def breadth : Nat := 6

/-- How many repairs are tried at the end of the text before everything is passed over. -/
def patience : Nat := 400

/-- A dearer version is given up when the difference in cost, times what the cheaper one has read
since its last repair, exceeds this. -/
def tolerance : Nat := 1600

/-- A reading of the text with repairs. -/
structure Version (κ : Type) where
  /-- the text as it is read -/
  tokens : List Token
  cost : Nat
  /-- the stretches passed over so far -/
  passed : List Span
  /-- how many tokens were left at the last repair -/
  mended : Nat
  outcome : Except Failure (List (Tree κ))

/-- Whether a version is reading, has just failed, or passes over tokens. -/
inductive Standing where
  | reading
  | stuck
  | lost
  deriving Repr, DecidableEq, Inhabited

structure Lane (κ : Type) where
  version : Version κ
  standing : Standing

/-- From the start of the first token to the end of the last. -/
def spanOf : List Token → Span
  | [] => ⟨.start, .start⟩
  | first :: rest => ⟨first.span.start, ((first :: rest).getLast?.getD first).span.stop⟩

/-- The smallest span around both. -/
def hull (a b : Span) : Span :=
  ⟨if a.start.byte ≤ b.start.byte then a.start else b.start,
    if a.stop.byte < b.stop.byte then b.stop else a.stop⟩

/-- Tokens passed over one by one.  Characters that begin no token are not counted. -/
def tokenCount (tokens : List Token) : Nat := (tokens.filter (·.sort != .stray)).length

/-- The number of constructs that make up the tokens: the largest complete ones, and single
tokens between them. -/
def treeCount (built : List Span) (tokens : List Token) : Nat :=
  let limit := (spanOf tokens).stop.byte
  let stopOf (token : Token) : Nat := built.foldl (fun stop span =>
    if span.start.byte = token.span.start.byte &&
      span.stop.byte ≤ limit then max stop span.stop.byte
    else stop) token.span.stop.byte
  (tokens.foldl (fun (count, stop) token =>
    if token.span.start.byte < stop then (count, stop) else (count + 1, stopOf token)) (0, 0)).1

/-- Whether every bracket that is closed among the tokens is opened among them. -/
def isClosedOff (tokens : List Token) : Bool :=
  let step (depth : Option Nat) (token : Token) : Option Nat :=
    if token.sort != .mark then depth
    else if ["(", "[", "\x7b"].contains token.text then depth.map (· + 1)
    else if [")", "]", "\x7d"].contains token.text then
      depth.bind fun depth => if depth = 0 then none else some (depth - 1)
    else depth
  (tokens.foldl step (some 0)).isSome

namespace Version

variable {κ : Type} (version : Version κ)

def failure : Failure :=
  match version.outcome with
  | .error failure => failure
  | .ok _ => ⟨0, []⟩

/-- The number of the token that the reading failed at. -/
def index : Nat := version.tokens.length - version.failure.left

/-- The tokens from number `first` up to number `last`. -/
def stretch (first last : Nat) : List Token := (version.tokens.drop first).take (last - first)

/-- The constructs that were complete before the last token read: none of them is
passed over in part. -/
def settled : List Span :=
  let stop := (spanOf (version.tokens.take version.index)).stop.byte
  version.failure.built.filter (·.stop.byte < stop)

/-- Where a stretch that is passed over may begin, the nearest place first. -/
def cuts : List Nat :=
  let settled := version.settled
  let isCut (number : Nat) : Bool :=
    match version.tokens.drop number with
    | [] => false
    | token :: _ =>
      let place := token.span.start.byte
      ! settled.any (fun span => span.start.byte < place && place < span.stop.byte)
        && isClosedOff (version.stretch number version.index)
  let numbers := (List.range version.index).reverse.filter isCut
  version.index :: numbers.take depth ++ (if numbers.length ≤ depth then [] else [0])

end Version

section

variable {κ ρ : Type} (grammar : Grammar κ ρ) (rule : ρ) (supplies : List Supply)

/-- Passes over the tokens from number `first` up to number `last`, and over earlier gaps among
them.  A gap right before them becomes one with theirs.  The line break before them is kept for
the token after them. -/
def pass (version : Version κ) (first last : Nat) : Option (Version κ) :=
  let gap := version.stretch first last
  match gap, version.tokens.drop last with
  | start :: _, following :: rest =>
    let before := (spanOf (version.tokens.take first)).stop.byte
    let (inside, outside) := version.passed.partition fun span =>
      before ≤ span.start.byte && span.stop.byte ≤ following.span.start.byte
    let joined := inside.filter (·.start.byte < start.span.start.byte)
    let span := inside.foldl hull (spanOf gap)
    let trees := treeCount version.failure.built (version.stretch first version.index)
      + tokenCount (version.stretch version.index last)
    let saved := (joined.map costOfStretch).foldl (· + ·) 0
    let following :=
      { following with
        lineBreak := start.lineBreak
        indent := if following.lineBreak then following.indent else start.indent
        comments := gap.flatMap Token.comments ++ following.comments
        afterGap := version.index < last }
    let tokens := version.tokens.take first ++ following :: rest
    some
      { tokens
        cost := version.cost + costOfStretch span + costPerTree * trees - saved
        passed := outside ++ [span]
        mended := rest.length + 1
        outcome := grammar.readAll rule tokens }
  | _, _ => none

/-- Whether a repair with so many tokens left lets the reading go past the next one. -/
def helps (left : Nat) (version : Version κ) : Bool :=
  match version.outcome with
  | .ok _ => true
  | .error failure => failure.left < left

/-- Supplies a token where the version failed.  No line ends there, or it would have been read. -/
def supply (version : Version κ) (supply : Supply) : Option (Version κ) :=
  match version.tokens.drop version.index with
  | [] => none
  | following :: rest =>
    let before := version.tokens.take version.index
    let place := (before.getLast?.map fun token => token.span.stop).getD .start
    let token : Token :=
      { sort := supply.sort, text := supply.text, span := ⟨place, place⟩,
        lineBreak := false, indent := 0
        comments := [], isSupplied := true }
    let tokens := before ++ token :: { following with lineBreak := false } :: rest
    let repaired : Version κ :=
      { version with
        tokens
        cost := version.cost + costOfMissing
        mended := rest.length + 1
        outcome := grammar.readAll rule tokens }
    let left := rest.length + (if following.sort == .stop && supply.endsText then 2 else 1)
    if following.sort == .mark && supply.notBefore.contains following.text then none
    else if helps left repaired then some repaired
    else none

/-- How a lane compares with others: its cost, whether it is in an error, and how
far it has come since. -/
structure Status where
  cost : Nat
  inError : Bool
  progress : Nat

/-- What a lost version has spent when it has passed over all tokens but `left`. -/
def costOfLost (version : Version κ) (left : Nat) : Nat :=
  let gap := version.stretch version.index (version.tokens.length - left)
  if gap.isEmpty then version.cost + costOfRepair
  else version.cost + costOfStretch (spanOf gap) + costPerTree * tokenCount gap

/-- The status of a lane when `left` tokens are left. -/
def Lane.status (left : Nat) (lane : Lane κ) : Status :=
  let progress := lane.version.mended - left + 1
  match lane.standing with
  | .reading => ⟨lane.version.cost, false, progress⟩
  | .stuck => ⟨lane.version.cost + costOfRepair + costPerTree, true, progress⟩
  | .lost => ⟨costOfLost lane.version left, true, 0⟩

inductive Preference where
  | takeFirst
  | preferFirst
  | preferSecond
  | takeSecond
  deriving Repr, DecidableEq

/-- Which of two statuses is better; among equals the first comes first. -/
def Status.compare (a b : Status) : Preference :=
  if ! a.inError && b.inError then if a.cost < b.cost then .takeFirst else .preferFirst
  else if a.inError && ! b.inError then if b.cost < a.cost then .takeSecond else .preferSecond
  else if a.cost < b.cost then
    if tolerance < (b.cost - a.cost) * (1 + a.progress) then .takeFirst else .preferFirst
  else if b.cost < a.cost then
    if tolerance < (a.cost - b.cost) * (1 + b.progress) then .takeSecond else .preferSecond
  else .preferFirst

/-- Puts a lane among others that are in order, and drops those that are clearly worse. -/
def enter (left : Nat) (lane : Lane κ) : List (Lane κ) → List (Lane κ)
  | [] => [lane]
  | other :: rest =>
    match (other.status left).compare (lane.status left) with
    | .takeFirst => other :: rest
    | .preferFirst => other :: enter left lane rest
    | .preferSecond => lane :: enter left other rest
    | .takeSecond => enter left lane rest

/-- The lanes worth going on with, the best first. -/
def condense (left : Nat) (lanes : List (Lane κ)) : List (Lane κ) :=
  (lanes.foldl (fun kept lane => enter left lane kept) []).take breadth

/-- Whether a lane that read all but `left` tokens makes one of the given cost pointless.  A lane
that was repaired at the token before has not come so far yet. -/
def isOutdone (left cost : Nat) (lanes : List (Lane κ)) : Bool :=
  lanes.any fun lane =>
    lane.standing == .reading && left + 1 < lane.version.mended
      && (Status.compare ⟨cost, false, 0⟩ (lane.status left)) == .takeSecond

/-- Goes on from the nearest place before the failure where the next token can be read. -/
def resume (left : Nat) (lanes : List (Lane κ)) (version : Version κ) : Option (Version κ) :=
  let next := version.tokens.length - left
  let isStray := (version.tokens.drop next).head?.any (·.sort == .stray)
  let spent := costOfLost version left
  let rec search : List Nat → Option (Version κ)
    | [] => none
    | first :: rest =>
      let gap := spanOf (version.stretch first next)
      let trees := treeCount version.failure.built (version.stretch first version.index)
      let cost := spent + costPerTree * (trees + 1) + (gap.stop.byte - gap.start.byte)
        + costPerLine * (gap.stop.row - gap.start.row)
      if isOutdone left cost lanes then none
      else match pass grammar rule version first next with
        | none => search rest
        | some repaired => if helps left repaired then some repaired else search rest
  if isStray then none else search version.cuts

/-- A failed version with `left` tokens left: it is lost from here on, and up to two
repaired ones come to be. -/
def fail (left : Nat) (lanes : List (Lane κ)) (version : Version κ) : List (Lane κ) :=
  let supplied := (supplies.filterMap (supply grammar rule version)).head?
  let resumed := resume grammar rule left lanes version
  (supplied.toList ++ resumed.toList).map (⟨·, .reading⟩)

/-- A lane meets the next token: it may turn out to be stuck there. -/
def Lane.meet (left : Nat) (lane : Lane κ) : Lane κ :=
  if lane.standing == .reading && ! helps left lane.version then { lane with standing := .stuck }
  else lane

/-- The cheaper of two complete versions; among equals the later one. -/
def better (best : Option (Version κ)) (version : Version κ) : Option (Version κ) :=
  match best with
  | none => some version
  | some other => if version.cost ≤ other.cost then some version else some other

/-- Moves all lanes past the next token, with `left` tokens left before it, until the end of the
text is reached.  At the end, versions that are complete are compared with the best so far, and
those that are stuck may still be repaired. -/
def advance : Nat → Nat → List (Lane κ) → Option (Version κ) → Option (Version κ)
  | 0, _, _, best => best
  | limit + 1, left, lanes, best =>
    let born : List (Lane κ) := lanes.filterMap fun lane =>
      if lane.standing == .lost then
        (resume grammar rule left lanes lane.version).map (⟨·, .reading⟩)
      else none
    let met := (lanes ++ born).map (·.meet left)
    let atEnd := left ≤ 1
    let isDone (lane : Lane κ) : Bool := atEnd && lane.standing == .reading
    let best := (met.filter isDone).foldl (fun best lane => better best lane.version) best
    let going := met.filter fun lane => ! isDone lane && ! (atEnd && lane.standing == .lost)
    match condense (left - 1) going with
    | [] => if atEnd then best else none
    | first :: rest =>
      let others := rest.filter (·.standing != .stuck)
      let isBeaten := atEnd
        && best.any (·.cost < first.version.cost + costOfRepair)
      if isBeaten then best
      else if first.standing == .stuck then
        let repaired := fail grammar rule supplies left (first :: others) first.version
        let lost : Lane κ := { first with standing := .lost }
        advance limit (if atEnd then left else left - 1)
          ((if atEnd then others else lost :: others) ++ repaired) best
      else advance limit (left - 1) (first :: others) best

end

end Repair

/-- Reads all tokens by one rule, with repairs where the text does not follow the grammar.  Comments
and what was passed over become nodes of the tree.  If even that fails, there is a root alone. -/
def Grammar.parse {κ ρ : Type} (grammar : Grammar κ ρ) (rule : ρ) (supplies : List Supply)
    (comment : Comment → κ) (root : κ) (tokens : List Token) : Tree κ :=
  let start : Repair.Version κ :=
    { tokens, cost := 0, passed := [], mended := tokens.length,
      outcome := grammar.readAll rule tokens }
  let found := match start.outcome with
    | .ok _ => some start
    | .error failure =>
      (Repair.advance grammar rule supplies (failure.left + Repair.patience) failure.left
        [⟨start, .reading⟩] none).or (Repair.pass grammar rule start 0 (tokens.length - 1))
  let alone := Tree.node (.kind root) none "" ⟨.start, .start⟩ []
  match found with
  | none => alone
  | some version =>
    match version.outcome with
    | .ok (tree :: _) =>
      let errors := version.passed.map fun span => Tree.node .error none "" span []
      let inGap (span : Span) : Bool := version.passed.any fun gap =>
        gap.start.byte ≤ span.start.byte && span.stop.byte ≤ gap.stop.byte
      let comments := ((tokens.flatMap Token.comments).filter (! inGap ·.span)).map fun c =>
        Tree.node (.kind (comment c)) none c.text c.span []
      (errors ++ comments).foldl (fun tree extra => Tree.insert extra tree) tree
    | _ => alone

end Syntax
end CodeSurvey
