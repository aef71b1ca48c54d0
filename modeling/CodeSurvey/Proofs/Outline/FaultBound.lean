import CodeSurvey.Proofs.Outline.GoBraces

/-
How many syntax faults a report holds.  The faults of a syntax tree are cut off at
`maxSyntaxFaults`, which comes to the same as a search that looks at no further node once it has
that many (`gather_eq`).  Nothing cuts off those of a Go file: there is one for each line between
declarations that sinks below all that was open there, and one for a declaration that does not end
(`exists_unfinished`).
-/

namespace CodeSurvey

namespace Syntax

variable {κ : Type}

/-- A node that is a fault by itself. -/
def Label.isFault : Label κ → Bool
  | .missing _ | .error => true
  | _ => false

namespace Tree

theorem take_take_append {α : Type} (limit : Nat) (a b : List α) :
    (a.take limit ++ b).take limit = (a ++ b).take limit := by
  have hroom : limit - (a.take limit).length = limit - a.length := by
    rw [List.length_take]
    omega
  rw [List.take_append, List.take_append, List.take_take, Nat.min_self, hroom]

mutual

/-- A search that looks at no node any more once it has found `limit` faults. -/
def gather (limit : Nat) (found : List SyntaxFault) : Tree κ → List SyntaxFault
  | node label role text span children =>
    if limit ≤ found.length then found
    else if label.isFault then found ++ faults (node label role text span children)
    else gatherAll limit found children

def gatherAll (limit : Nat) (found : List SyntaxFault) : List (Tree κ) → List SyntaxFault
  | [] => found
  | tree :: rest => gatherAll limit (gather limit found tree) rest

end

mutual

theorem gather_eq (limit : Nat) :
    ∀ (tree : Tree κ) (found : List SyntaxFault), found.length ≤ limit →
    gather limit found tree = (found ++ faults tree).take limit
  | node label role text span children, found, hfound => by
      rw [gather]
      by_cases hfull : limit ≤ found.length
      · rw [if_pos hfull, List.take_append_of_le_length hfull, List.take_of_length_le hfound]
      · rw [if_neg hfull]
        have hone : ∀ fault, (found ++ [fault]).take limit = found ++ [fault] := by
          intro fault
          apply List.take_of_length_le
          rw [List.length_append, List.length_singleton]
          omega
        cases label with
        | missing expected => exact (hone _).symm
        | error => exact (hone _).symm
        | kind kind => exact gatherAll_eq limit children found hfound
        | token => exact gatherAll_eq limit children found hfound

theorem gatherAll_eq (limit : Nat) :
    ∀ (trees : List (Tree κ)) (found : List SyntaxFault), found.length ≤ limit →
    gatherAll limit found trees = (found ++ faultsAll trees).take limit
  | [], found, hfound => by
      rw [gatherAll, faultsAll, List.append_nil, List.take_of_length_le hfound]
  | tree :: rest, found, hfound => by
      rw [gatherAll, faultsAll, gather_eq limit tree found hfound, gatherAll_eq limit rest _
        (List.length_take_le _ _),
        take_take_append, List.append_assoc]

end

theorem gather_nil (limit : Nat) (tree : Tree κ) :
    gather limit [] tree = (faults tree).take limit :=
  gather_eq limit tree [] (Nat.zero_le limit)

end Tree
end Syntax

namespace GoOutline

open Text Checked

/-! ## Lines that sink -/

/-- However far back the count begins, up to this line more braces are closed than opened. -/
def Sinks (lines : List Line) (index : Nat) : Prop :=
  ∀ first ≤ index, balanceOver braceBalance lines first (index + 1) < 0

instance (lines : List Line) : DecidablePred (Sinks lines) :=
  fun _ => inferInstanceAs (Decidable (∀ _, _))

def sinking (lines : List Line) : Nat :=
  (List.range lines.length).countP fun index => decide (Sinks lines index)

/-- The same for lines before which `depth` braces are open. -/
def SinksBelow (depth : Int) (lines : List Line) (index : Nat) : Prop :=
  depth + balanceOver braceBalance lines 0 (index + 1) < 0 ∧
    ∀ first < index, balanceOver braceBalance lines (first + 1) (index + 1) < 0

instance (depth : Int) (lines : List Line) : DecidablePred (SinksBelow depth lines) :=
  fun _ => inferInstanceAs (Decidable (_ ∧ _))

def sinkingBelow (depth : Int) (lines : List Line) : Nat :=
  (List.range lines.length).countP fun index => decide (SinksBelow depth lines index)

section Sinking

variable {depth : Int} {line : Line} {rest : List Line} {index : Nat}

theorem balanceOver_cons_zero (line : Line) (rest : List Line) (past : Nat) :
    balanceOver braceBalance (line :: rest) 0 (past + 1) =
      braceBalance line + balanceOver braceBalance rest 0 past :=
  rfl

theorem balanceOver_cons_succ (line : Line) (rest : List Line) (first past : Nat) :
    balanceOver braceBalance (line :: rest) (first + 1) (past + 1) =
      balanceOver braceBalance rest first past := by
  rw [balanceOver, balanceOver, List.drop_succ_cons, Nat.add_sub_add_right]

theorem sinksBelow_zero_iff (lines : List Line) (index : Nat) :
    SinksBelow 0 lines index ↔ Sinks lines index := by
  unfold SinksBelow Sinks
  rw [Int.zero_add]
  constructor
  · intro h first hfirst
    cases first with
    | zero => exact h.1
    | succ first => exact h.2 first hfirst
  · intro h
    exact ⟨h 0 (Nat.zero_le index), fun first hfirst => h (first + 1) hfirst⟩

theorem sinksBelow_cons_zero :
    SinksBelow depth (line :: rest) 0 ↔ depth + braceBalance line < 0 := by
  unfold SinksBelow
  rw [balanceOver_cons_zero, balanceOver_self, Int.add_zero]
  simp

/-- What is open behind a line is never less than nothing, so the count begins anew
behind a line that sinks. -/
theorem sinksBelow_cons_succ : SinksBelow depth (line :: rest) (index + 1) ↔
    SinksBelow (max 0 (depth + braceBalance line)) rest index := by
  unfold SinksBelow
  simp only [balanceOver_cons_zero, balanceOver_cons_succ]
  constructor
  · intro h
    have hzero := h.2 0 (Nat.succ_pos index)
    exact ⟨by omega, fun first hfirst => h.2 (first + 1) (by omega)⟩
  · intro h
    refine ⟨by omega, fun first hfirst => ?_⟩
    cases first with
    | zero => omega
    | succ first => exact h.2 first (by omega)

theorem sinkingBelow_cons (depth : Int) (line : Line) (rest : List Line) :
    sinkingBelow depth (line :: rest) =
      sinkingBelow (max 0 (depth + braceBalance line)) rest +
        if depth + braceBalance line < 0 then 1 else 0 := by
  unfold sinkingBelow
  rw [List.length_cons, List.range_succ_eq_map, List.countP_cons, List.countP_map]
  simp only [sinksBelow_cons_zero, Function.comp_def, sinksBelow_cons_succ, decide_eq_true_eq]

theorem sinkingBelow_zero (lines : List Line) : sinkingBelow 0 lines = sinking lines := by
  unfold sinkingBelow sinking
  simp only [sinksBelow_zero_iff]

end Sinking

/-! ## Declarations that do not end -/

/-- A declaration brings one fault at most, and then it takes all lines that are left. -/
def Found.EndsOrIsLast (position : Position) (found : Found) : Prop :=
  faults found.findings = [] ∨ (faults found.findings).length = 1 ∧
    found.further = position.after.length

section Declarations

variable {position : Position} {found : Found}

theorem endsOrIsLast_importAt (position : Position) :
    (importAt position).EndsOrIsLast position := by
  unfold importAt Found.EndsOrIsLast
  split
  · exact .inl rfl
  · split
    · exact .inl rfl
    · split
      · exact .inl (faults_imports _)
      · refine .inr ⟨?_, rfl⟩
        rw [faults_append, faults_imports]
        rfl

theorem further_of_not_closed {line : Line} {after : List Line}
    (h : (blockExtent line after).closed = false) :
    (blockExtent line after).further = after.length := by
  by_cases hshut : braceBalance line ≤ 0
  · rw [blockExtent, if_pos hshut] at h
    contradiction
  · cases hcount : linesToClose braceBalance (braceBalance line) after with
    | some count =>
        rw [blockExtent, if_neg hshut, hcount] at h
        contradiction
    | none => rw [blockExtent, if_neg hshut, hcount]

theorem length_faults_of_not_closed (line : Nat) {finding : Finding}
    (hfinding : faults [finding] = []) :
    (faults ((if false then [] else [unclosed line]) ++ [finding])).length = 1 := by
  rw [faults_append, hfinding]
  rfl

theorem endsOrIsLast_functionAt (position : Position) (receiver : Option String)
    (name tail : List Char) : (functionAt position receiver name tail).EndsOrIsLast position := by
  have hfurther : (functionAt position receiver name tail).further =
      position.signatureLines + position.body.further := rfl
  cases hclosed : position.body.closed with
  | true => exact .inl ((faults_block_eq_nil_iff _ _ rfl).mpr hclosed)
  | false =>
      refine .inr ⟨?_, ?_⟩
      · show (faults ((if position.body.closed then [] else _) ++ [_])).length = 1
        rw [hclosed]
        exact length_faults_of_not_closed _ rfl
      · have hle : position.signatureLines ≤ position.after.length := signatureLength_le _ _
        rw [hfurther, Position.body, further_of_not_closed hclosed, List.length_drop]
        omega

theorem endsOrIsLast_typeAt (position : Position) (name : List Char) (kind : TypeKind) :
    (typeAt position name kind).EndsOrIsLast position := by
  cases hclosed : (blockExtent position.line position.after).closed with
  | true => exact .inl ((faults_block_eq_nil_iff _ _ rfl).mpr hclosed)
  | false =>
      refine .inr ⟨?_, further_of_not_closed hclosed⟩
      show (faults ((if (blockExtent position.line position.after).closed then [] else _) ++
        [_])).length = 1
      rw [hclosed]
      exact length_faults_of_not_closed _ rfl

theorem endsOrIsLast_declarationAt (h : declarationAt position = some found) :
    found.EndsOrIsLast position := by
  rcases declarationAt_cases h with ⟨_, rfl⟩ | ⟨_, receiver, name, tail, rfl⟩ | ⟨_, name, kind, rfl⟩
  · exact endsOrIsLast_importAt position
  · exact endsOrIsLast_functionAt position receiver name tail
  · exact endsOrIsLast_typeAt position name kind

theorem positions_eq_nil (index : Nat) {taken : Nat} (before : Option Line) {lines : List Line}
    (h : lines.length ≤ taken) : positions index taken before lines = [] := by
  induction lines generalizing index taken before with
  | nil => rfl
  | cons line after ih =>
      cases taken with
      | zero => contradiction
      | succ taken => exact ih (index + 1) (some line) (Nat.le_of_succ_le_succ h)

end Declarations

/-! ## The number of faults -/

def Position.Faultless (position : Position) : Prop :=
  ∀ found, declarationAt position = some found → faults found.findings = []

section Faultless

variable {position : Position} {found : Found}

theorem faultless_of_none (h : declarationAt position = none) : position.Faultless := by
  intro found hfound
  rw [h] at hfound
  contradiction

theorem faultless_iff_of_some (h : declarationAt position = some found) :
    position.Faultless ↔ faults found.findings = [] := by
  constructor
  · intro hall
    exact hall found h
  · intro hnone other hother
    rw [h, Option.some.injEq] at hother
    rw [← hother]
    exact hnone

theorem faultless_iff_ends {lines : List Line} (hmem : position ∈ positions 0 0 none lines) :
    position.Faultless ↔ position.Ends lines := by
  cases h : declarationAt position with
  | none => exact iff_of_true (faultless_of_none h) (ends_of_none h)
  | some found => rw [faultless_iff_of_some h, faults_eq_nil_iff_ends hmem h]

theorem length_faults_of_some (h : declarationAt position = some found) (depth : Int)
    (rest : List Position) :
    (faults (findingsAt depth (position :: rest))).length =
      (faults found.findings).length + (faults (findingsAt depth rest)).length := by
  rw [findingsAt, h]
  dsimp only
  rw [faults_append, List.length_append]

/-- Where nothing is declared, the braces of the line are counted as those of `sinkingBelow` are. -/
theorem length_faults_of_none (h : declarationAt position = none) (depth : Int)
    (rest : List Position) :
    (faults (findingsAt depth (position :: rest))).length =
      (faults (findingsAt (max 0 (depth + braceBalance position.line)) rest)).length +
        if depth + braceBalance position.line < 0 then 1 else 0 := by
  rw [findingsAt, h]
  dsimp only
  by_cases hsinks : depth + braceBalance position.line < 0
  · have hzero : max 0 (depth + braceBalance position.line) = 0 := by omega
    rw [if_pos hsinks, if_pos hsinks, hzero]
    rfl
  · have hsame : max 0 (depth + braceBalance position.line) =
        depth + braceBalance position.line := by omega
    rw [if_neg hsinks, if_neg hsinks, hsame, Nat.add_zero]

end Faultless

/-- One fault for each line that sinks and one if a declaration does not end,
which is then the last. -/
theorem exists_unfinished {depth : Int} (hdepth : 0 ≤ depth) (index taken : Nat)
    (before : Option Line) (lines : List Line) :
    ∃ unfinished ≤ 1,
      (unfinished = 0 ↔ ∀ position ∈ positions index taken before lines, position.Faultless) ∧
      (faults (findingsAt depth (positions index taken before lines))).length =
        sinkingBelow depth (outside (positions index taken before lines)) + unfinished := by
  induction lines generalizing depth index taken before with
  | nil => exact ⟨0, Nat.zero_le 1, by simp [positions], rfl⟩
  | cons line after ih =>
      cases taken with
      | succ taken =>
          rw [positions]
          exact ih hdepth (index + 1) taken (some line)
      | zero =>
          rw [positions, List.forall_mem_cons]
          cases h : declarationAt ⟨index, before, line, after⟩ with
          | none =>
              obtain ⟨unfinished, hle, hiff, hlength⟩ :=
                ih (Int.le_max_left 0 (depth + braceBalance line)) (index + 1)
                (Position.further ⟨index, before, line, after⟩) (some line)
              refine ⟨unfinished, hle, hiff.trans (and_iff_right (faultless_of_none h)).symm, ?_⟩
              rw [outside_cons_of_none h, sinkingBelow_cons, length_faults_of_none h, hlength]
              exact Nat.add_right_comm _ _ _
          | some found =>
              rw [outside_cons_of_some h, length_faults_of_some h, faultless_iff_of_some h]
              rcases endsOrIsLast_declarationAt h with hnone | ⟨hone, hlast⟩
              · obtain ⟨unfinished, hle, hiff, hlength⟩ := ih hdepth (index + 1)
                  (Position.further ⟨index, before, line, after⟩) (some line)
                refine ⟨unfinished, hle, hiff.trans (and_iff_right hnone).symm, ?_⟩
                rw [hnone, hlength, List.length_nil, Nat.zero_add]
              · have htaken : after.length ≤ Position.further ⟨index, before, line, after⟩ :=
                  Nat.le_of_eq ((further_of_some h).trans hlast).symm
                refine ⟨1, Nat.le_refl 1, iff_of_false Nat.one_ne_zero ?_, ?_⟩
                · intro hall
                  rw [hall.1] at hone
                  contradiction
                · rw [positions_eq_nil (index + 1) (some line) htaken, hone]
                  rfl

theorem exists_unfinished_scan (lines : List Line) :
    ∃ unfinished ≤ 1,
      (unfinished = 0 ↔ ∀ position ∈ positions 0 0 none lines, position.Ends lines) ∧
      (faults (scan 0 0 0 none lines)).length = sinking (outside (positions 0 0 none lines)) +
        unfinished := by
  obtain ⟨unfinished, hle, hiff, hlength⟩ := exists_unfinished (Int.le_refl 0) 0 0 none lines
  refine ⟨unfinished, hle, hiff.trans (forall₂_congr fun _ hmem => faultless_iff_ends hmem), ?_⟩
  rw [scan_eq_findingsAt, hlength, sinkingBelow_zero]

end GoOutline

open Text
open GoOutline (fileLines positions outside sinking)

/-- The faults of a text that is read by way of a tree are those that a search finds which
stops at the bound. -/
theorem Language.faults_ofTree {κ : Type} {name : String} {extensions : List String}
    {comments : CommentSyntax} {declarations : Syntax.Tree κ → List Declaration}
    (parse : List Char → Syntax.Tree κ) (path : Path) (text : List Char) :
    ∃ report,
      (ofTree name extensions comments declarations parse).outline path (Utf8.encode text) =
        .outlined report ∧
      report.faults = (parse (withoutMark text)).gather maxSyntaxFaults [] ∧
      report.faults.length ≤ maxSyntaxFaults := by
  have hdecode : Language.decode path (Utf8.encode text) = .ok (withoutMark text) := by
    rw [Language.decode, Utf8.decode_eq_ok_iff.mpr rfl]
  refine ⟨_, Language.outline_ofTree hdecode, ?_, ?_⟩
  · exact (Syntax.Tree.gather_nil maxSyntaxFaults (parse (withoutMark text))).symm
  · exact List.length_take_le _ _

/-- Whatever the tree, no report on a Python or Rust file holds more faults than are allowed.  One
on a Go file holds as many as there are lines between its declarations that sink, and one more if a
declaration does not end; so it keeps to the bound exactly if fewer lines sink than are allowed, or
just as many and every declaration ends. -/
theorem faults_bounded_iff (path : Path) (text : List Char) :
    (∀ parse, ∃ report,
      (PythonOutline.languageBy parse).outline path (Utf8.encode text) = .outlined report ∧
      report.faults = (parse (Language.withoutMark text)).gather maxSyntaxFaults [] ∧
      report.faults.length ≤ maxSyntaxFaults) ∧
    (∀ parse, ∃ report,
      (RustOutline.languageBy parse).outline path (Utf8.encode text) = .outlined report ∧
      report.faults = (parse (Language.withoutMark text)).gather maxSyntaxFaults [] ∧
      report.faults.length ≤ maxSyntaxFaults) ∧
    ∃ report, GoOutline.language.outline path (Utf8.encode text) = .outlined report ∧
      (∃ unfinished ≤ 1,
        (unfinished = 0 ↔
          ∀ position ∈ positions 0 0 none (fileLines text), position.Ends (fileLines text)) ∧
        report.faults.length =
          sinking (outside (positions 0 0 none (fileLines text))) + unfinished) ∧
      (report.faults.length ≤ maxSyntaxFaults ↔
        sinking (outside (positions 0 0 none (fileLines text))) < maxSyntaxFaults ∨
        sinking (outside (positions 0 0 none (fileLines text))) = maxSyntaxFaults ∧
          ∀ position ∈ positions 0 0 none (fileLines text), position.Ends (fileLines text)) := by
  refine ⟨fun parse => Language.faults_ofTree parse path text,
    fun parse => Language.faults_ofTree parse path text, _, GoOutline.outline_encode path text,
    GoOutline.exists_unfinished_scan (fileLines text), ?_⟩
  obtain ⟨unfinished, hle, hiff, hlength⟩ := GoOutline.exists_unfinished_scan (fileLines text)
  show (GoOutline.faults (GoOutline.scan 0 0 0 none (fileLines text))).length ≤ _ ↔ _
  rw [hlength, ← hiff]
  omega

namespace GoOutline

/-- One closing brace on each line. -/
def closingBraces (count : Nat) : List Char := (List.replicate count "\x7d\n".toList).flatten

/-- A Go file with more faults than are allowed. -/
theorem closing_braces_exceed_bound :
    ∃ report, language.outline ⟨"a.go"⟩ (Utf8.encode (closingBraces (maxSyntaxFaults + 1))) =
      .outlined report ∧
      report.faults.length = maxSyntaxFaults + 1 := by
  refine ⟨_, outline_encode _ _, ?_⟩
  show (faults (findings (Language.withoutMark (closingBraces (maxSyntaxFaults + 1))))).length = _
  decide +kernel

end GoOutline
end CodeSurvey
