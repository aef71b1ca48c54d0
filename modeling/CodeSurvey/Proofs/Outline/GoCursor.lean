import CodeSurvey.Proofs.Outline.Branches
import CodeSurvey.Proofs.Outline.GoRanges
import CodeSurvey.Proofs.Text.Matcher
import CodeSurvey.Proofs.Text.Utf8

/-
Reading a Go file with a cursor.  `GoOutline.scan` goes down a list of lines; here the lines are
addressed by their indices, one cursor is moved on by all loops, and texts are cut at byte offsets.
Every access is checked: a line that is not there, a stretch that is not inside, an offset within a
character, a counter that falls below its floor or a cursor that stays where it is gives `none`.
The theorem this file exists for is `Checked.findings_eq`: that never happens, and what is found is
what `scan` finds.
-/

namespace CodeSurvey
namespace GoOutline
namespace Checked

open Text

/-! ## Accesses that can fail -/

/-- The lines from `first` up to `past`, without the latter. -/
def slice (lines : List Line) (first past : Nat) : Option (List Line) :=
  if first ≤ past ∧ past ≤ lines.length then some ((lines.drop first).take (past - first)) else none

def minusOne : Nat → Option Nat
  | 0 => none
  | count + 1 => some count

/-- A signed counter after a line.  Its floor is as far below zero as the line is long. -/
def countAfter (delta : Line → Int) (depth : Int) (line : Line) : Option Int :=
  if -(line.code.length : Int) ≤ depth + delta line then some (depth + delta line) else none

/-- The text up to a byte offset and the text from there on. -/
def splitBytes (count : Nat) : List Char → Option (List Char × List Char)
  | [] => if count = 0 then some ([], []) else none
  | c :: text =>
    if count = 0 then some ([], c :: text)
    else if c.utf8Size ≤ count then
      (splitBytes (count - c.utf8Size) text).map fun (before, after) => (c :: before, after)
    else none

def takeBytes (count : Nat) (text : List Char) : Option (List Char) :=
  (splitBytes count text).map (·.1)

def dropBytes (count : Nat) (text : List Char) : Option (List Char) :=
  (splitBytes count text).map (·.2)

/-- The byte offset at which a match ends that leaves `rest` of a text. -/
def matchEnd (text rest : List Char) : Nat := Utf8.size text - Utf8.size rest

/-! ## Parameter lists -/

/-- The number of open brackets after a character. -/
def depthAfter (depth : Nat) (c : Char) : Option Nat :=
  if isClosing c then minusOne depth else some (if isOpening c then depth + 1 else depth)

/-- The byte offset of the bracket that closes `depth` open ones; `index` bytes
come before the text. -/
def closingIndex (depth index : Nat) : List Char → Option (Option Nat)
  | [] => some none
  | c :: rest =>
    (depthAfter depth c).bind fun depth =>
      if isClosing c && depth == 0 then some (some index)
      else closingIndex depth (index + c.utf8Size) rest

def splitParameters (text : List Char) : Option (List Char × List Char) := do
  match ← closingIndex 1 0 text with
  | none => some (text, [])
  | some index =>
    let parameters ← takeBytes index text
    let rest ← dropBytes (index + 1) text
    some (parameters, rest)

def prependTo (c : Char) : List (List Char) → List (List Char)
  | [] => [[c]]
  | piece :: pieces => (c :: piece) :: pieces

/-- The pieces between commas, with a counter of open brackets that must not fall below zero. -/
def parameterPieces (depth : Nat) : List Char → Option (List (List Char))
  | [] => some [[]]
  | c :: rest =>
    if c == ',' && depth == 0 then (parameterPieces depth rest).map ([] :: ·)
    else (depthAfter depth c).bind fun depth => (parameterPieces depth rest).map (prependTo c)

def parameterNames (parameters : List Char) : Option (List String) := do
  let pieces ← parameterPieces 0 parameters
  some (pieces.filterMap fun piece => (words piece).head?.map String.ofList)

/-! ## Loops that move the cursor -/

section Cursor

variable (lines : List Line)

/-- The paths of an import group, the cursor behind it, and whether it ended. -/
def importGroup (cursor : Nat) : Option (List String × Nat × Bool) :=
  if _ : cursor < lines.length then do
    let line ← lines[cursor]?
    if (trimStart line.code).head? == some ')' then some ([], cursor + 1, true)
    else
      let (paths, next, closed) ← importGroup (cursor + 1)
      let path := (importSpec.run (trim line.raw)).map fun (path, _) => String.ofList path
      some (path.toList ++ paths, next, closed)
  else some ([], cursor, false)
termination_by lines.length - cursor

/-- The line on which `depth` open braces are closed, if any, and the cursor behind it. -/
def closeBlock (depth : Int) (cursor : Nat) : Option (Option Nat × Nat) :=
  if _ : cursor < lines.length then do
    let line ← lines[cursor]?
    let depth ← countAfter braceBalance depth line
    if depth ≤ 0 then
      let last ← minusOne (cursor + 1)
      some (some last, cursor + 1)
    else closeBlock depth (cursor + 1)
  else some (none, cursor)
termination_by lines.length - cursor

/-- The last line of the block that opens on line `start`, the cursor behind it,
and whether it ended. -/
def blockEnd (start cursor : Nat) : Option (Nat × Nat × Bool) := do
  let line ← lines[start]?
  let depth ← countAfter braceBalance 0 line
  if depth ≤ 0 then some (start, cursor, true)
  else match ← closeBlock lines depth cursor with
    | (some last, next) => some (last, next, true)
    | (none, next) => some (lines.length - 1, next, false)

/-- The line on which a parameter list ends that leaves `depth` brackets open on line `last`. -/
def signatureEnd (depth : Int) (last cursor : Nat) : Option (Nat × Nat) :=
  if _ : 0 < depth ∧ cursor < lines.length then do
    let line ← lines[cursor]?
    let depth ← countAfter parenBalance depth line
    signatureEnd depth cursor (cursor + 1)
  else some (last, cursor)
termination_by lines.length - cursor

/-! ## Declarations -/

def isDocumented (start : Nat) : Option Bool :=
  if 0 < start then do
    let line ← lines[← minusOne start]?
    some ("//".toList.isPrefixOf (trimStart line.raw))
  else some false

def importAt (start cursor : Nat) : Option (List Finding × Nat) := do
  let line ← lines[start]?
  match importHeader.run (trim line.raw) with
  | some (path, _) => some ([.import (String.ofList path)], cursor)
  | none =>
    if ! line.code.contains '(' then some ([], cursor)
    else
      let (paths, next, closed) ← importGroup lines cursor
      let faults := if closed then [] else [faultAt lines.length "unterminated import block"]
      some (paths.map .import ++ faults, next)

def functionAt (start cursor : Nat) (receiver : Option String) (name : List Char) (offset : Nat) :
    Option (List Finding × Nat) := do
  let line ← lines[start]?
  let (signature, cursor) ← signatureEnd lines (← countAfter parenBalance 0 line) start cursor
  let headerLines ← slice lines (start + 1) (signature + 1)
  let tail ← dropBytes offset (trim line.code)
  let header := tail ++ headerLines.flatMap fun line => ' ' :: trim line.code
  let (last, next, closed) ← blockEnd lines signature cursor
  let (parameters, rest) ← splitParameters header
  let names ← parameterNames parameters
  let documented ← isDocumented lines start
  let body ← slice lines start (last + 1)
  let outline := { FunctionOutline.ofLines (String.ofList name) (start + 1) (last + 1) with
    parameters := names
    returnType := String.ofList (trim (upTo (· == '\x7b') rest))
    isPublic := isPublicName name
    hasDocstring := documented
    complexity := 1 + branchesOf body }
  let faults := if closed then [] else [unclosed (signature + 1)]
  some (faults ++ [.function receiver outline], next)

def methodOn (lineNumber : Nat) (line : Line) : Option (Option FunctionOutline) :=
  match methodHeader.run (trim line.code) with
  | none => some none
  | some (name, left) => do
    let tail ← dropBytes (matchEnd (trim line.code) left) (trim line.code)
    let (parameters, rest) ← splitParameters tail
    let names ← parameterNames parameters
    some (some { FunctionOutline.ofLines (String.ofList name) lineNumber lineNumber with
      isPublic := isPublicName name
      parameters := names
      returnType := String.ofList (trim rest) })

def numberedMethods (lineNumber : Nat) : List Line → Option (List FunctionOutline)
  | [] => some []
  | line :: rest => do
    let method ← if isBare line then some none else methodOn lineNumber line
    let methods ← numberedMethods (lineNumber + 1) rest
    some (method.toList ++ methods)

def typeAt (start cursor : Nat) (name : List Char) (kind : TypeKind) :
    Option (List Finding × Nat) := do
  let (last, next, closed) ← blockEnd lines start cursor
  let documented ← isDocumented lines start
  let body := (lines.take last).drop (start + 1)
  let outline := { TypeOutline.ofLines (String.ofList name) kind (start + 1) (last + 1) with
    hasDocstring := documented }
  let faults := if closed then [] else [unclosed (start + 1)]
  match kind with
  | .interface =>
    let methods ← numberedMethods (start + 2) body
    some (faults ++ [.type { outline with methods }], next)
  | _ =>
    let fields := (body.filter (! isBare ·)).flatMap fieldsOn
    some (faults ++ [.type { outline with fields }], next)

/-- What the declaration on line `start` is, if it begins one, and the cursor behind it. -/
def declarationAt (start cursor : Nat) : Option (Option (List Finding × Nat)) := do
  let line ← lines[start]?
  let code := trim line.code
  if "import".toList.isPrefixOf code then (importAt lines start cursor).map some
  else match functionHeader.run code with
    | some ((receiver, name), left) =>
      (functionAt lines start cursor (receiver.map String.ofList) name
        (matchEnd code left)).map some
    | none =>
      match typeHeader.run code with
      | some ((name, kind), _) => (typeAt lines start cursor name kind).map some
      | none => some none

/-- All findings from the cursor on. -/
def findings (cursor : Nat) (depth : Int) : Option (List Finding) :=
  if _ : cursor < lines.length then do
    let line ← lines[cursor]?
    match ← declarationAt lines cursor (cursor + 1) with
    | some (found, next) =>
      if _ : cursor < next then (findings next depth).map (found ++ ·) else none
    | none =>
      let depth ← countAfter braceBalance depth line
      if depth < 0 then
        (findings (cursor + 1) 0).map (faultAt (cursor + 1) "unexpected closing brace" :: ·)
      else findings (cursor + 1) depth
  else some []
termination_by lines.length - cursor

end Cursor

end Checked

/-! ## Where a header ends -/

open Text Matcher

theorem advances_typeArguments : Advances typeArguments :=
  (advances_literal _).bind fun _ => (advances_many _).bind fun _ => advances_literal _

theorem advances_receiver : Advances receiver :=
  (advances_literal _).bind fun _ => advances_blanks.bind fun _ =>
  ((advances_many1 _).bind fun _ => advances_blanks1).optional.bind fun _ =>
  (advances_literal _).optional.bind fun _ => advances_blanks.bind fun _ =>
    (advances_many1 _).bind fun _ =>
  advances_typeArguments.optional.bind fun _ => advances_blanks.bind fun _ =>
  (advances_literal _).bind fun _ => advances_pure _

theorem advances_functionHeader : Advances functionHeader :=
  (advances_literal _).bind fun _ => advances_blanks.bind fun _ =>
    advances_receiver.optional.bind fun _ =>
  advances_blanks.bind fun _ => (advances_many1 _).bind fun _ => advances_blanks.bind fun _ =>
  advances_typeArguments.optional.bind fun _ => advances_blanks.bind fun _ =>
  (advances_literal _).bind fun _ => advances_pure _

theorem advances_methodHeader : Advances methodHeader :=
  (advances_many1 _).bind fun _ => advances_blanks.bind fun _ => (advances_literal _).bind fun _ =>
    advances_pure _

namespace Checked

theorem size_cons (c : Char) (text : List Char) :
    Utf8.size (c :: text) = c.utf8Size + Utf8.size text := rfl

theorem size_append (a b : List Char) : Utf8.size (a ++ b) = Utf8.size a + Utf8.size b := by
  rw [Utf8.size, List.map_append, List.sum_append]
  rfl

theorem splitBytes_append (a b : List Char) : splitBytes (Utf8.size a) (a ++ b) = some (a, b) := by
  induction a with
  | nil => cases b <;> rfl
  | cons c a ih =>
      have hpos := c.utf8Size_pos
      have hsize := size_cons c a
      have hleft : Utf8.size (c :: a) - c.utf8Size = Utf8.size a := by omega
      rw [List.cons_append, splitBytes, if_neg (by omega), if_pos (by omega), hleft, ih]
      rfl

theorem dropBytes_matchEnd {text rest : List Char} (h : rest <:+ text) :
    dropBytes (matchEnd text rest) text = some rest := by
  obtain ⟨before, rfl⟩ := h
  have hend : matchEnd (before ++ rest) rest = Utf8.size before := by
    rw [matchEnd, size_append, Nat.add_sub_cancel]
  rw [hend, dropBytes, splitBytes_append, Option.map_some]

/-! ## Parameter lists -/

theorem utf8Size_closing {c : Char} (h : isClosing c = true) : c.utf8Size = 1 := by
  simp only [isClosing, Bool.or_eq_true, beq_iff_eq] at h
  rcases h with (rfl | rfl) | rfl <;> rfl

/-- A character ends the list, or both ways of reading go on behind it with the
same brackets open. -/
theorem depthAfter_cases (depth : Nat) (c : Char) (rest : List Char) :
    (depth = 0 ∧ isClosing c = true ∧ GoOutline.splitParameters depth (c :: rest) = ([], rest)) ∨
    ∃ next, depthAfter depth c = some next ∧ depthAfter (depth + 1) c = some (next + 1) ∧
      GoOutline.splitParameters depth (c :: rest) =
        (c :: (GoOutline.splitParameters next rest).1,
          (GoOutline.splitParameters next rest).2) := by
  by_cases hclosing : isClosing c = true
  · cases depth with
    | zero => exact .inl ⟨rfl, hclosing, by simp [GoOutline.splitParameters, hclosing]⟩
    | succ depth =>
        refine .inr ⟨depth, ?_, ?_, ?_⟩
        · rw [depthAfter, if_pos hclosing, minusOne]
        · rw [depthAfter, if_pos hclosing, minusOne]
        · simp [GoOutline.splitParameters, hclosing]
  · refine .inr ⟨if isOpening c then depth + 1 else depth, ?_, ?_, ?_⟩
    · rw [depthAfter, if_neg hclosing]
    · rw [depthAfter, if_neg hclosing]
      split <;> rfl
    · simp [GoOutline.splitParameters, hclosing]

/-- Either no bracket closes the list, or both ways of reading stop at the same one. -/
theorem closingIndex_cases (depth index : Nat) (text : List Char) :
    (closingIndex (depth + 1) index text = some none ∧
      GoOutline.splitParameters depth text = (text, [])) ∨
    ∃ before c after, text = before ++ c :: after ∧ isClosing c = true ∧
      closingIndex (depth + 1) index text = some (some (index + Utf8.size before)) ∧
      GoOutline.splitParameters depth text = (before, after) := by
  induction text generalizing depth index with
  | nil => exact .inl ⟨rfl, rfl⟩
  | cons c rest ih =>
      rcases depthAfter_cases depth c rest with ⟨rfl, hclosing, hsplit⟩ | ⟨next, _, hnext, hsplit⟩
      · refine .inr ⟨[], c, rest, rfl, hclosing, ?_, hsplit⟩
        simp [closingIndex, depthAfter, hclosing, minusOne, Utf8.size]
      · have hindex : closingIndex (depth + 1) index (c :: rest) =
            closingIndex (next + 1) (index + c.utf8Size) rest := by
          simp [closingIndex, hnext]
        rw [hindex, hsplit]
        rcases ih next (index + c.utf8Size) with
          ⟨hnone, hall⟩ | ⟨before, last, after, rfl, hlast, hfound, hboth⟩
        · exact .inl ⟨hnone, by rw [hall]⟩
        · refine .inr ⟨c :: before, last, after, rfl, hlast, ?_, by rw [hboth]⟩
          rw [hfound, size_cons, Nat.add_assoc]

theorem splitParameters_eq (text : List Char) :
    splitParameters text = some (GoOutline.splitParameters 0 text) := by
  unfold splitParameters
  rcases closingIndex_cases 0 0 text with
    ⟨hnone, hall⟩ | ⟨before, c, after, htext, hclosing, hfound, hboth⟩
  · rw [hnone, hall]
    rfl
  · have htake : takeBytes (Utf8.size before) text = some before := by
      rw [htext, takeBytes, splitBytes_append, Option.map_some]
    have hdrop : dropBytes (Utf8.size before + 1) text = some after := by
      have hsize : Utf8.size before + 1 = Utf8.size (before ++ [c]) := by
        rw [size_append, size_cons, utf8Size_closing hclosing]
        rfl
      rw [htext, List.append_cons, hsize, dropBytes, splitBytes_append, Option.map_some]
    rw [hfound, hboth, Nat.zero_add]
    simp [htake, hdrop]

theorem isOpening_of_isClosing {c : Char} (h : isClosing c = true) : isOpening c = false := by
  simp only [isClosing, Bool.or_eq_true, beq_iff_eq] at h
  rcases h with (rfl | rfl) | rfl <;> decide

theorem toInt_depthAfter {c : Char} {depth next : Nat} (h : depthAfter depth c = some next) :
    (if isOpening c then (depth : Int) + 1 else if isClosing c then (depth : Int) - 1 else depth) =
      (next : Int) := by
  unfold depthAfter at h
  by_cases hclosing : isClosing c = true
  · rw [if_pos hclosing] at h
    rw [isOpening_of_isClosing hclosing, if_neg Bool.false_ne_true, if_pos hclosing]
    cases depth with
    | zero => contradiction
    | succ depth =>
        rw [minusOne, Option.some.injEq] at h
        omega
  · rw [if_neg hclosing, Option.some.injEq] at h
    rw [if_neg hclosing, ← h]
    split <;> simp

/-- In a parameter list no bracket is closed that was not opened in it. -/
theorem parameterPieces_eq (depth : Nat) (text : List Char) :
    parameterPieces depth (GoOutline.splitParameters depth text).1 =
      some (GoOutline.parameterPieces depth (GoOutline.splitParameters depth text).1) := by
  induction text generalizing depth with
  | nil => rfl
  | cons c rest ih =>
      rcases depthAfter_cases depth c rest with ⟨_, _, hsplit⟩ | ⟨next, hnext, _, hsplit⟩
      · rw [hsplit]
        rfl
      · have hzero : (c == ',' && (depth : Int) == 0) = (c == ',' && depth == 0) := by
          congr 1
          rw [Bool.eq_iff_iff, beq_iff_eq, beq_iff_eq]
          omega
        rw [hsplit, parameterPieces, GoOutline.parameterPieces, hzero]
        split
        · next hcomma =>
            -- a comma is no bracket
            have hsame : next = depth := by
              have hc := beq_iff_eq.mp (Bool.and_eq_true_iff.mp hcomma).1
              rw [hc] at hnext
              exact (Option.some.inj hnext).symm
            rw [← hsame, ih next, Option.map_some]
        · rw [hnext, Option.bind_some, ih next, Option.map_some, toInt_depthAfter hnext]
          dsimp only
          cases GoOutline.parameterPieces next (GoOutline.splitParameters next rest).1 <;> rfl

theorem parameterNames_eq (text : List Char) :
    parameterNames (GoOutline.splitParameters 0 text).1 =
      some (GoOutline.parameterNames (GoOutline.splitParameters 0 text).1) := by
  rw [parameterNames, parameterPieces_eq]
  rfl

/-! ## Loops -/

/-- Every character lowers a counter by one at most. -/
theorem neg_length_le_balance (opening closing : Char) (code : List Char) :
    -(code.length : Int) ≤ balance opening closing code := by
  have hrun : ∀ (code : List Char) (sum : Int), sum - code.length ≤
      code.foldl
        (fun sum c => if c == opening then sum + 1 else if c == closing then sum - 1 else sum)
        sum := by
    intro code
    induction code with
    | nil => exact fun sum => Int.sub_nonneg.mp (by simp)
    | cons c rest ih =>
        intro sum
        have hstep : sum - 1 ≤
            if c == opening then sum + 1 else if c == closing then sum - 1 else sum := by
          split
          · omega
          · split <;> omega
        have hrest := ih (if c == opening then sum + 1 else if c == closing then sum - 1 else sum)
        rw [List.foldl_cons, List.length_cons]
        omega
  have hzero := hrun code 0
  unfold balance
  omega

theorem countAfter_brace {depth : Int} (h : 0 ≤ depth) (line : Line) :
    countAfter braceBalance depth line = some (depth + braceBalance line) := by
  have hfloor := neg_length_le_balance '\x7b' '\x7d' line.code
  exact if_pos (by unfold braceBalance; omega)

theorem countAfter_paren {depth : Int} (h : 0 ≤ depth) (line : Line) :
    countAfter parenBalance depth line = some (depth + parenBalance line) := by
  have hfloor := neg_length_le_balance '(' ')' line.code
  exact if_pos (by unfold parenBalance; omega)

section Cursor

variable {lines : List Line}

theorem drop_eq_cons {index : Nat} {line : Line} (h : lines[index]? = some line) :
    lines.drop index = line :: lines.drop (index + 1) := by
  obtain ⟨hlt, rfl⟩ := List.getElem?_eq_some_iff.mp h
  exact List.drop_eq_getElem_cons hlt

theorem of_drop_eq_cons {cursor : Nat} {line : Line} {rest : List Line}
    (h : lines.drop cursor = line :: rest) :
    cursor < lines.length ∧ lines[cursor]? = some line ∧ lines.drop (cursor + 1) = rest := by
  have hlt : cursor < lines.length := by
    refine Nat.lt_of_not_le fun hge => ?_
    rw [List.drop_eq_nil_of_le hge] at h
    contradiction
  rw [List.drop_eq_getElem_cons hlt, List.cons.injEq] at h
  exact ⟨hlt, by rw [List.getElem?_eq_getElem hlt, h.1], h.2⟩

theorem not_lt_of_drop_eq_nil {cursor : Nat} (h : lines.drop cursor = []) :
    ¬ cursor < lines.length :=
  Nat.not_lt.mpr (List.drop_eq_nil_iff.mp h)

theorem signatureEnd_eq {rest : List Line} (depth : Int) {last : Nat}
    (hrest : lines.drop (last + 1) = rest) :
    signatureEnd lines depth last (last + 1) =
      some (last + signatureLength depth rest, last + 1 + signatureLength depth rest) := by
  induction rest generalizing depth last with
  | nil =>
      rw [signatureEnd, dif_neg fun h => not_lt_of_drop_eq_nil hrest h.2]
      rfl
  | cons line rest ih =>
      obtain ⟨hlt, hline, hnext⟩ := of_drop_eq_cons hrest
      rw [signatureEnd, signatureLength]
      by_cases hdepth : 0 < depth
      · rw [dif_pos ⟨hdepth, hlt⟩, if_pos hdepth, hline, Option.bind_eq_bind, Option.bind_some,
          countAfter_paren (Int.le_of_lt hdepth), Option.bind_eq_bind, Option.bind_some, ih _ hnext]
        congr 2 <;> omega
      · rw [dif_neg fun h => hdepth h.1, if_neg hdepth]
        rfl

theorem closeBlock_eq {rest : List Line} {depth : Int} (hdepth : 0 ≤ depth) {cursor : Nat}
    (hrest : lines.drop cursor = rest) :
    closeBlock lines depth cursor = some (match linesToClose braceBalance depth rest with
      | some count => (some (cursor + count - 1), cursor + count)
      | none => (none, cursor + rest.length)) := by
  induction rest generalizing depth cursor with
  | nil =>
      rw [closeBlock, dif_neg (not_lt_of_drop_eq_nil hrest)]
      rfl
  | cons line rest ih =>
      obtain ⟨hlt, hline, hnext⟩ := of_drop_eq_cons hrest
      rw [closeBlock, dif_pos hlt, hline, Option.bind_eq_bind, Option.bind_some,
        countAfter_brace hdepth, Option.bind_eq_bind, Option.bind_some, linesToClose]
      split
      · rfl
      · rw [ih (by omega) hnext]
        cases linesToClose braceBalance (depth + braceBalance line) rest with
        | none =>
            simp only [Option.map_none, List.length_cons]
            congr 2
            omega
        | some count =>
            have hcount : cursor + (count + 1) = cursor + 1 + count := by omega
            simp only [Option.map_some, hcount]

theorem blockEnd_eq {start : Nat} {line : Line} (hline : lines[start]? = some line) :
    blockEnd lines start (start + 1) =
      some (start + (blockExtent line (lines.drop (start + 1))).further,
      start + 1 + (blockExtent line (lines.drop (start + 1))).further,
      (blockExtent line (lines.drop (start + 1))).closed) := by
  rw [blockEnd, hline, Option.bind_eq_bind, Option.bind_some, countAfter_brace (Int.le_refl 0),
    Int.zero_add, Option.bind_eq_bind, Option.bind_some, blockExtent]
  split
  · rfl
  · rw [closeBlock_eq (by omega) rfl]
    cases hclose : linesToClose braceBalance (braceBalance line) (lines.drop (start + 1)) with
    | some count =>
        have hpos := (linesToClose_le hclose).1
        simp only [Option.bind_eq_bind, Option.bind_some]
        congr 2
        omega
    | none =>
        have hlt := (List.getElem?_eq_some_iff.mp hline).1
        simp only [Option.bind_eq_bind, Option.bind_some, List.length_drop]
        congr 2
        omega

theorem importGroup_eq {rest : List Line} {cursor : Nat} (hrest : lines.drop cursor = rest) :
    importGroup lines cursor = some ((GoOutline.importGroup rest).1,
      cursor + ((GoOutline.importGroup rest).2.getD rest.length),
      (GoOutline.importGroup rest).2.isSome) := by
  induction rest generalizing cursor with
  | nil =>
      rw [importGroup, dif_neg (not_lt_of_drop_eq_nil hrest)]
      rfl
  | cons line rest ih =>
      obtain ⟨hlt, hline, hnext⟩ := of_drop_eq_cons hrest
      rw [importGroup, dif_pos hlt, hline, Option.bind_eq_bind, Option.bind_some,
        GoOutline.importGroup]
      split
      · rfl
      · rw [ih hnext]
        cases hgroup : (GoOutline.importGroup rest).2 with
        | none =>
            have hcursor : cursor + (rest.length + 1) = cursor + 1 + rest.length := by omega
            simp [hgroup, hcursor]
        | some count =>
            have hcursor : cursor + (count + 1) = cursor + 1 + count := by omega
            simp [hgroup, hcursor]

/-! ## Declarations -/

def lineBefore (lines : List Line) : Nat → Option Line
  | 0 => none
  | index + 1 => lines[index]?

/-- The lines as `scan` has them when it comes to line `start`. -/
def positionAt (lines : List Line) (start : Nat) (line : Line) : Position :=
  ⟨start, lineBefore lines start, line, lines.drop (start + 1)⟩

/-- Findings with the cursor behind the lines that they take up. -/
def Found.andCursor (start : Nat) (found : Found) : List Finding × Nat :=
  (found.findings, start + 1 + found.further)

variable {start : Nat} {line : Line}

theorem isDocumented_eq (hline : lines[start]? = some line) :
    isDocumented lines start = some (positionAt lines start line).isDocumented := by
  cases start with
  | zero => rfl
  | succ start =>
      have hlt := (List.getElem?_eq_some_iff.mp hline).1
      have hbefore : lines[start]? = some (lines[start]) := List.getElem?_eq_getElem (by omega)
      simp [isDocumented, minusOne, positionAt, Position.isDocumented, lineBefore, hbefore]

theorem importAt_eq (hline : lines[start]? = some line) :
    importAt lines start (start + 1) =
      some (Found.andCursor start (GoOutline.importAt (positionAt lines start line))) := by
  have hlt := (List.getElem?_eq_some_iff.mp hline).1
  have hlast : start + 1 + (lines.length - (start + 1)) = lines.length := by omega
  cases hheader : importHeader.run (trim line.raw) with
  | some found => simp [importAt, hline, GoOutline.importAt, positionAt, hheader, Found.andCursor]
  | none =>
      by_cases hopen : '(' ∈ line.code
      · have hread : importGroup lines (start + 1) = _ := importGroup_eq rfl
        cases hgroup : GoOutline.importGroup (lines.drop (start + 1)) with
        | mk paths count =>
            rw [hgroup] at hread
            cases count with
            | some count =>
                simp [importAt, hline, GoOutline.importAt, positionAt, hheader, hopen, hread,
                  hgroup, Found.andCursor]
            | none =>
                simp [importAt, hline, GoOutline.importAt, positionAt, hheader, hopen,
                  hread, hgroup, Found.andCursor, Position.lineNumber, hlast]
      · simp [importAt, hline, GoOutline.importAt, positionAt, hheader, hopen, Found.andCursor]

/-- The line on which a parameter list ends. -/
theorem getElem?_signature {signature : Nat} (hline : lines[start]? = some line)
    (hsignature : signature ≤ (lines.drop (start + 1)).length) :
    lines[start + signature]? = some (((lines.drop (start + 1)).take signature).getLastD line) := by
  have hdrop := congrArg (·[signature]?) (drop_eq_cons hline)
  rw [List.getElem?_drop] at hdrop
  rw [hdrop]
  cases signature with
  | zero => rfl
  | succ count =>
      have hlt : count < (lines.drop (start + 1)).length := hsignature
      rw [List.getElem?_cons_succ, List.getElem?_eq_getElem hlt,
        List.take_succ_eq_append_getElem hlt, List.getLastD_concat]

theorem slice_after {count : Nat} (hline : lines[start]? = some line)
    (hcount : count ≤ (lines.drop (start + 1)).length) :
    slice lines (start + 1) (start + count + 1) = some ((lines.drop (start + 1)).take count) := by
  have hlt := (List.getElem?_eq_some_iff.mp hline).1
  have hlines : start + count + 1 - (start + 1) = count := by omega
  rw [List.length_drop] at hcount
  rw [slice, if_pos ⟨by omega, by omega⟩, hlines]

theorem slice_from {count : Nat} (hline : lines[start]? = some line)
    (hcount : count ≤ (lines.drop (start + 1)).length) :
    slice lines start (start + 1 + count) = some (line :: (lines.drop (start + 1)).take count) := by
  have hlt := (List.getElem?_eq_some_iff.mp hline).1
  have hlines : start + 1 + count - start = count + 1 := by omega
  rw [List.length_drop] at hcount
  rw [slice, if_pos ⟨by omega, by omega⟩, hlines, drop_eq_cons hline, List.take_succ_cons]

theorem functionAt_eq (hline : lines[start]? = some line) (receiver : Option String)
    (name tail : List Char) {offset : Nat} (htail : dropBytes offset (trim line.code) = some tail) :
    functionAt lines start (start + 1) receiver name offset =
      some (Found.andCursor start
        (GoOutline.functionAt (positionAt lines start line) receiver name tail)) := by
  -- `signature` lines go by in the first loop, and `block.further` in the second, which starts
  -- where the first ended
  have hsignature := signatureLength_le (parenBalance line) (lines.drop (start + 1))
  generalize hcount : signatureLength (parenBalance line) (lines.drop (start + 1)) = signature
    at hsignature
  have hlast := getElem?_signature hline hsignature
  generalize hlastLine : ((lines.drop (start + 1)).take signature).getLastD line = last at hlast
  have hcursor : start + 1 + signature = start + signature + 1 := by omega
  have hblock := blockEnd_eq hlast
  have hdrop : lines.drop (start + signature + 1) = (lines.drop (start + 1)).drop signature := by
    rw [List.drop_drop, hcursor]
  have hfurther := further_blockExtent_le last ((lines.drop (start + 1)).drop signature)
  rw [hdrop] at hblock
  generalize hextent : blockExtent last ((lines.drop (start + 1)).drop signature) = block
    at hblock hfurther
  rw [List.length_drop] at hfurther
  -- both are among the lines that are left, so no access fails
  have hheader := slice_after hline hsignature
  have hbody :=
    slice_from hline (show signature + block.further ≤ (lines.drop (start + 1)).length by omega)
  have hend : start + signature + block.further + 1 = start + 1 + (signature + block.further) := by
    omega
  have hnext : start + signature + 1 + block.further = start + 1 + (signature + block.further) := by
    omega
  rw [functionAt, hline, Option.bind_eq_bind, Option.bind_some, countAfter_paren (Int.le_refl 0),
    Int.zero_add, Option.bind_eq_bind, Option.bind_some, signatureEnd_eq _ rfl, hcount, hcursor]
  simp only [Option.bind_eq_bind, Option.bind_some, hheader, htail, hblock, splitParameters_eq,
    parameterNames_eq, isDocumented_eq hline, hbody, hend, hnext]
  unfold GoOutline.functionAt positionAt
  simp only [hcount, hlastLine, hextent]
  rw [← hcursor]
  rfl

theorem methodOn_eq (lineNumber : Nat) (line : Line) :
    methodOn lineNumber line = some (GoOutline.methodOn lineNumber line) := by
  unfold methodOn GoOutline.methodOn
  cases hheader : methodHeader.run (trim line.code) with
  | none => rfl
  | some found =>
      have htail := dropBytes_matchEnd (advances_methodHeader.run hheader)
      simp [htail, splitParameters_eq, parameterNames_eq]

theorem numberedMethods_eq (lineNumber : Nat) (body : List Line) :
    numberedMethods lineNumber body = some (GoOutline.numberedMethods lineNumber body) := by
  induction body generalizing lineNumber with
  | nil => rfl
  | cons line rest ih =>
      rw [numberedMethods, GoOutline.numberedMethods, ih, methodOn_eq]
      split <;> rfl

theorem typeAt_eq (hline : lines[start]? = some line) (name : List Char) (kind : TypeKind) :
    typeAt lines start (start + 1) name kind =
      some (Found.andCursor start (GoOutline.typeAt (positionAt lines start line) name kind)) := by
  have hbody : (lines.take (start + (blockExtent line (lines.drop (start + 1))).further)).drop
      (start + 1) =
      (lines.drop (start + 1)).take ((blockExtent line (lines.drop (start + 1))).further - 1) := by
    rw [List.drop_take]
    congr 1
    omega
  rw [typeAt, blockEnd_eq hline, isDocumented_eq hline]
  simp only [Option.bind_eq_bind, Option.bind_some, hbody, numberedMethods_eq]
  have hend : start + (blockExtent line (lines.drop (start + 1))).further + 1 =
      start + 1 + (blockExtent line (lines.drop (start + 1))).further := by omega
  rw [hend]
  cases kind <;> rfl

theorem declarationAt_eq (hline : lines[start]? = some line) :
    declarationAt lines start (start + 1) =
      some ((GoOutline.declarationAt (positionAt lines start line)).map
        (Found.andCursor start)) := by
  have hcode : (positionAt lines start line).line = line := rfl
  rw [declarationAt, GoOutline.declarationAt, hline, hcode, Option.bind_eq_bind, Option.bind_some]
  by_cases himport : "import".toList.isPrefixOf (trim line.code) = true
  · rw [if_pos himport, if_pos himport, importAt_eq hline]
    rfl
  · rw [if_neg himport, if_neg himport]
    cases hheader : functionHeader.run (trim line.code) with
    | some found =>
        have htail := dropBytes_matchEnd (advances_functionHeader.run hheader)
        simp only [functionAt_eq hline _ _ _ htail]
        rfl
    | none =>
        cases htype : typeHeader.run (trim line.code) with
        | some found =>
            simp only [typeAt_eq hline]
            rfl
        | none => rfl

/-- Lines that belong to a declaration already found are passed by. -/
theorem scan_drop (index taken : Nat) (depth : Int) (h : index + taken ≤ lines.length) :
    scan index taken depth (lineBefore lines index) (lines.drop index) =
      scan (index + taken) 0 depth (lineBefore lines (index + taken))
        (lines.drop (index + taken)) := by
  induction taken generalizing index with
  | zero => rfl
  | succ taken ih =>
      have hlt : index < lines.length := by omega
      have hbefore : lineBefore lines (index + 1) = some lines[index] :=
        List.getElem?_eq_getElem hlt
      have hindex : index + (taken + 1) = index + 1 + taken := by omega
      rw [List.drop_eq_getElem_cons hlt, scan, ← hbefore, ih (index + 1) (by omega), hindex]

/-- From a cursor on, nothing fails, and the findings are those of `scan`. -/
theorem findings_eq_scan (cursor : Nat) {depth : Int} (hdepth : 0 ≤ depth)
    (h : cursor ≤ lines.length) :
    findings lines cursor depth =
      some (scan cursor 0 depth (lineBefore lines cursor) (lines.drop cursor)) := by
  induction hleft : lines.length - cursor using Nat.strongRecOn generalizing cursor depth with
  | ind left ih =>
      by_cases hlt : cursor < lines.length
      · have hline : lines[cursor]? = some lines[cursor] := List.getElem?_eq_getElem hlt
        have hbefore : some lines[cursor] = lineBefore lines (cursor + 1) := hline.symm
        have hposition : GoOutline.declarationAt
            ⟨cursor, lineBefore lines cursor, lines[cursor], lines.drop (cursor + 1)⟩ =
            GoOutline.declarationAt (positionAt lines cursor lines[cursor]) := rfl
        rw [findings, dif_pos hlt, hline, Option.bind_eq_bind, Option.bind_some,
          declarationAt_eq hline, drop_eq_cons hline, scan, hposition]
        cases hfound : GoOutline.declarationAt (positionAt lines cursor lines[cursor]) with
        | some found =>
            -- the cursor stands behind the lines of the declaration, which are all there
            have hfurther := (placedAt_declarationAt hfound).further
            have hnext : cursor + 1 + found.further ≤ lines.length := by
              rw [positionAt, List.length_drop] at hfurther
              omega
            simp only [Option.map_some, Option.bind_eq_bind, Option.bind_some, Found.andCursor]
            rw [dif_pos (by omega), ih _ (by omega) _ hdepth hnext rfl, hbefore,
              scan_drop _ _ _ hnext]
            rfl
        | none =>
            simp only [Option.map_none, Option.bind_eq_bind, Option.bind_some,
              countAfter_brace hdepth, hbefore]
            split
            · rw [ih _ (by omega) (cursor + 1) (Int.le_refl 0) hlt rfl]
              rfl
            · rw [ih _ (by omega) (cursor + 1) (by omega) hlt rfl]
      · rw [findings, dif_neg hlt, List.drop_eq_nil_of_le (by omega)]
        rfl

end Cursor

theorem findings_eq (source : List Char) :
    findings (stripLines source) 0 0 = some (GoOutline.findings source) :=
  findings_eq_scan 0 (Int.le_refl 0) (Nat.zero_le _)

end Checked

/-- Bytes are refused if they are not the encoding of a text, and only then.  Otherwise the lines
can be read without a failed access, and the report on what is found there keeps to them. -/
theorem outline_in_bounds (path : Path) (content : List UInt8) :
    ((¬ ∃ text, content = Utf8.encode text) ∧
      ∃ fault, language.outline path content = .refused fault) ∨
    ∃ text found report, content = Utf8.encode text ∧
      Checked.findings (stripLines (Language.withoutMark text)) 0 0 = some found ∧
      report = .assemble path "Go" (declarations found) (faults found) ∧
      language.outline path content = .outlined report ∧
      InBounds (Text.lines (Language.withoutMark text)).length found report := by
  cases hdecode : Utf8.decode content with
  | error fault =>
      refine .inl ⟨?_, ?_⟩
      · rintro ⟨text, htext⟩
        rw [Utf8.decode_eq_ok_iff.mpr htext] at hdecode
        contradiction
      · rw [language]
        dsimp only [Language.ofText, Language.decode]
        rw [hdecode]
        exact ⟨_, rfl⟩
  | ok text =>
      have htext : Language.decode path content = .ok (Language.withoutMark text) := by
        rw [Language.decode, hdecode]
      refine .inr ⟨text, _, _, Utf8.decode_eq_ok_iff.mp hdecode, Checked.findings_eq _, rfl, ?_,
        inBounds_assemble _ path⟩
      rw [language, Language.outline_ofText_eq_outlined_iff]
      exact ⟨_, htext, rfl⟩

end GoOutline
end CodeSurvey
