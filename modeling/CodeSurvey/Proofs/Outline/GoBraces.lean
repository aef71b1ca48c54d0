import CodeSurvey.Proofs.Outline.GoBlocks
import CodeSurvey.Proofs.Outline.GoImports

/-
Which braces of a Go file are missed.  A declaration has a count of braces of its own and the lines
between declarations have another, so a fault is reported exactly if a declaration does not end or
if more braces are closed between declarations than were opened there before
(`faults_findingsAt_eq_nil_iff`).  All braces of the file are in one count or the other
(`bracesOf_flatMap_taken`), but neither has to come out even: an imbalance is missed if both are
content.
-/

namespace CodeSurvey
namespace GoOutline

open Text Checked

/-! ## Counts -/

/-- Opening minus closing braces of some lines. -/
def bracesOf (lines : List Line) : Int := balanceOf braceBalance lines

def countIn (brace : Char) (lines : List Line) : Nat := (lines.flatMap Line.code).count brace

theorem bracesOf_nil : bracesOf [] = 0 := rfl

theorem bracesOf_cons (line : Line) (rest : List Line) :
    bracesOf (line :: rest) = braceBalance line + bracesOf rest := rfl

theorem bracesOf_append (a b : List Line) : bracesOf (a ++ b) = bracesOf a + bracesOf b :=
  balanceOf_append braceBalance a b

theorem foldl_balance {opening closing : Char} (hne : opening ≠ closing) (code : List Char)
    (sum : Int) :
    code.foldl
        (fun sum c => if c == opening then sum + 1 else if c == closing then sum - 1 else sum) sum =
      sum + code.count opening - code.count closing := by
  induction code generalizing sum with
  | nil => simp
  | cons c rest ih =>
      rw [List.foldl_cons, ih]
      by_cases hopening : c = opening
      · subst hopening
        rw [if_pos (beq_self_eq_true c), List.count_cons_self, List.count_cons_of_ne hne]
        omega
      · by_cases hclosing : c = closing
        · subst hclosing
          rw [if_neg (mt eq_of_beq hopening), if_pos (beq_self_eq_true c), List.count_cons_self,
            List.count_cons_of_ne hopening]
          omega
        · rw [if_neg (mt eq_of_beq hopening), if_neg (mt eq_of_beq hclosing),
            List.count_cons_of_ne hopening, List.count_cons_of_ne hclosing]

theorem braceBalance_eq (line : Line) :
    braceBalance line = line.code.count '\x7b' - line.code.count '\x7d' := by
  rw [braceBalance, balance, foldl_balance (by decide), Int.zero_add]

theorem bracesOf_eq_countIn_sub (lines : List Line) :
    bracesOf lines = countIn '\x7b' lines - countIn '\x7d' lines := by
  induction lines with
  | nil => rfl
  | cons line rest ih =>
      rw [bracesOf_cons, ih, braceBalance_eq, countIn, countIn, countIn, countIn, List.flatMap_cons,
        List.count_append, List.count_append]
      omega

/-! ## Two counts for one file -/

/-- The lines at positions where nothing is declared. -/
def outside (places : List Position) : List Line :=
  (places.filter fun position => (declarationAt position).isNone).map Position.line

/-- The lines of declarations. -/
def declared (places : List Position) : List Line :=
  (places.filter fun position => (declarationAt position).isSome).flatMap Position.taken

section Places

variable {position : Position} {found : Found} {rest places : List Position}

theorem outside_cons_of_some (h : declarationAt position = some found) :
    outside (position :: rest) = outside rest := by
  simp [outside, h]

theorem outside_cons_of_none (h : declarationAt position = none) :
    outside (position :: rest) = position.line :: outside rest := by
  simp [outside, h]

theorem declared_cons_of_some (h : declarationAt position = some found) :
    declared (position :: rest) = position.taken ++ declared rest := by
  simp [declared, h]

theorem declared_cons_of_none (h : declarationAt position = none) :
    declared (position :: rest) = declared rest := by
  simp [declared, h]

theorem bracesOf_flatMap_taken (places : List Position) :
    bracesOf (places.flatMap Position.taken) =
      bracesOf (outside places) + bracesOf (declared places) := by
  induction places with
  | nil => rfl
  | cons position rest ih =>
      rw [List.flatMap_cons, bracesOf_append, ih]
      cases h : declarationAt position with
      | some found =>
          rw [outside_cons_of_some h, declared_cons_of_some h, bracesOf_append]
          omega
      | none =>
          have htaken : position.taken = [position.line] := by
            rw [Position.taken, further_of_none h, List.take_zero]
          rw [outside_cons_of_none h, declared_cons_of_none h, htaken, bracesOf_cons, bracesOf_cons,
            bracesOf_nil]
          omega

/-! ## Declarations that end -/

/-- What is declared at a position comes to its end: the group of an import at a line that begins
with a closing parenthesis, the body of a function or type where its braces close. -/
structure Position.Ends (lines : List Line) (position : Position) : Prop where
  group : position.line.BeginsImport → position.line.ReadsGroup →
    ∃ last, GroupEndsOn lines (position.index + 1) last
  function : position.line.BeginsFunction → ∃ last, ClosesOn braceBalance lines
    (position.index + position.signatureLines) (position.index + position.signatureLines) last
  type : position.line.BeginsType →
    ∃ last, ClosesOn braceBalance lines position.index position.index last

theorem faults_append (a b : List Finding) : faults (a ++ b) = faults a ++ faults b :=
  List.filterMap_append

theorem faults_imports (paths : List String) : faults (paths.map .import) = [] :=
  filterMap_imports (fun _ => rfl) paths

theorem faults_importAt_eq_nil_iff (position : Position) :
    faults (importAt position).findings = [] ↔
      (position.line.ReadsGroup → ∃ count, (importGroup position.after).2 = some count) := by
  unfold Line.ReadsGroup
  cases hheader : importHeader.run (trim position.line.raw) with
  | some header => simp [importAt, hheader, faults]
  | none =>
      by_cases hopen : '(' ∈ position.line.code
      · cases hgroup : importGroup position.after with
        | mk paths count =>
            cases count with
            | some count => simp [importAt, hheader, hopen, hgroup, faults_imports]
            | none => simp [importAt, hheader, hopen, hgroup, faults, faultAt]
      · simp [importAt, hheader, hopen, faults]

theorem faults_block_eq_nil_iff (closed : Bool) (line : Nat) {finding : Finding}
    (hfinding : faults [finding] = []) :
    faults ((if closed then [] else [unclosed line]) ++ [finding]) = [] ↔ closed = true := by
  rw [faults_append, hfinding]
  cases closed <;> simp [faults, unclosed, faultAt]

theorem EndsOn.closed_iff {lines : List Line} {first last : Nat} {closed : Bool}
    (h : EndsOn lines first first last closed) :
    closed = true ↔ ∃ last, ClosesOn braceBalance lines first first last := by
  rcases h with ⟨rfl, hcloses⟩ | ⟨rfl, hstays, _⟩
  · exact iff_of_true rfl ⟨last, hcloses⟩
  · refine iff_of_false Bool.false_ne_true ?_
    rintro ⟨other, ⟨hfirst, hlt, hclosed⟩, _⟩
    have hopen := hstays other hlt hfirst
    omega

/-- A declaration brings a fault exactly if it does not end. -/
theorem faults_eq_nil_iff_ends {lines : List Line} (hmem : position ∈ positions 0 0 none lines)
    (h : declarationAt position = some found) :
    faults found.findings = [] ↔ position.Ends lines := by
  obtain ⟨hline, hposition⟩ := positionAt_of_mem hmem
  rcases declarationAt_cases h with ⟨hbegins, rfl⟩ | ⟨hbegins, receiver, name, tail,
    rfl⟩ | ⟨hbegins, name, kind, rfl⟩
  · rw [faults_importAt_eq_nil_iff, ← drop_of_mem hmem, exists_importGroup_iff]
    constructor
    · intro hgroup
      exact ⟨fun _ => hgroup, fun hfunction => absurd hbegins hfunction.1,
        fun htype => absurd hbegins htype.1⟩
    · exact fun hends => hends.group hbegins
  · have hends := endsOn_body hline
    rw [← hposition] at hends
    have hfaults : faults (functionAt position receiver name tail).findings = [] ↔
        position.body.closed = true :=
      faults_block_eq_nil_iff _ _ rfl
    rw [hfaults, hends.closed_iff]
    constructor
    · intro hcloses
      exact ⟨fun himport => absurd himport hbegins.1, fun _ => hcloses,
        fun htype => absurd hbegins htype.not_function⟩
    · exact fun hends => hends.function hbegins
  · have hends := endsOn_blockExtent hline
    rw [drop_of_mem hmem] at hends
    have hfaults : faults (typeAt position name kind).findings = [] ↔
        (blockExtent position.line position.after).closed = true := faults_block_eq_nil_iff _ _ rfl
    rw [hfaults, hends.closed_iff]
    constructor
    · intro hcloses
      exact ⟨fun himport => absurd himport hbegins.1,
        fun hfunction => absurd hfunction hbegins.not_function, fun _ => hcloses⟩
    · exact fun hends => hends.type hbegins

theorem ends_of_none {lines : List Line} (h : declarationAt position = none) :
    position.Ends lines := by
  obtain ⟨himport, hfunction, htype⟩ := begins_nothing_of_none h
  exact ⟨fun hbegins => absurd hbegins himport, fun hbegins => absurd hbegins hfunction,
    fun hbegins => absurd hbegins htype⟩

theorem forall_prefix_cons {depth : Int} {line : Line} {rest : List Line} (hdepth : 0 ≤ depth) :
    (∀ front, front <+: line :: rest → 0 ≤ depth + bracesOf front) ↔
      0 ≤ depth + braceBalance line ∧
        ∀ front, front <+: rest → 0 ≤ depth + braceBalance line + bracesOf front := by
  constructor
  · intro hfronts
    have hlonger : ∀ front, front <+: rest → 0 ≤ depth + braceBalance line + bracesOf front := by
      intro front hfront
      have hnonneg := hfronts (line :: front) (List.cons_prefix_cons.mpr ⟨rfl, hfront⟩)
      rw [bracesOf_cons] at hnonneg
      omega
    have hone := hlonger [] List.nil_prefix
    rw [bracesOf_nil] at hone
    exact ⟨by omega, hlonger⟩
  · rintro ⟨_, hfronts⟩ front hfront
    rcases List.prefix_cons_iff.mp hfront with rfl | ⟨tail, rfl, htail⟩
    · rw [bracesOf_nil]
      omega
    · have hnonneg := hfronts tail htail
      rw [bracesOf_cons]
      omega

/-- No fault is found exactly if every declaration ends and no more braces are closed between
them than were opened. -/
theorem faults_findingsAt_eq_nil_iff {lines : List Line} {depth : Int} (hdepth : 0 ≤ depth)
    (hplaces : ∀ position ∈ places, position ∈ positions 0 0 none lines) :
    faults (findingsAt depth places) = [] ↔
      (∀ position ∈ places, position.Ends lines) ∧
        ∀ front, front <+: outside places → 0 ≤ depth + bracesOf front := by
  induction places generalizing depth with
  | nil =>
      refine iff_of_true rfl ⟨by simp, fun front hfront => ?_⟩
      have hnil : front = [] := List.prefix_nil.mp hfront
      rw [hnil, bracesOf_nil]
      omega
  | cons position rest ih =>
      obtain ⟨hhere, hrest⟩ := List.forall_mem_cons.mp hplaces
      rw [List.forall_mem_cons, findingsAt]
      cases h : declarationAt position with
      | some found =>
          rw [faults_append, List.append_eq_nil_iff, faults_eq_nil_iff_ends hhere h,
            ih hdepth hrest, outside_cons_of_some h, and_assoc]
      | none =>
          rw [outside_cons_of_none h, forall_prefix_cons hdepth]
          by_cases hsurplus : depth + braceBalance position.line < 0
          -- A fault is found here exactly if the lines up to this one close too much: the count
          -- begins anew behind a fault, but then one has been found.
          · rw [if_pos hsurplus]
            refine iff_of_false ?_ ?_
            · exact List.cons_ne_nil _ _
            · rintro ⟨_, hnonneg, _⟩
              omega
          · have hnonneg : 0 ≤ depth + braceBalance position.line := by omega
            rw [if_neg hsurplus, ih hnonneg hrest]
            constructor
            · rintro ⟨hends, hfronts⟩
              exact ⟨⟨ends_of_none h, hends⟩, hnonneg, hfronts⟩
            · rintro ⟨⟨_, hends⟩, _, hfronts⟩
              exact ⟨hends, hfronts⟩

/-! ## Braces of declarations that end -/

/-- The lines whose braces are in no count do not leave any open: those of an import, and those of a
signature before its last. -/
def HeadsClose (lines : List Line) : Prop :=
  ∀ position ∈ positions 0 0 none lines,
    (position.line.BeginsImport → bracesOf position.taken ≤ 0) ∧
    (position.line.BeginsFunction → bracesOf (position.taken.take position.signatureLines) ≤ 0)

instance (lines : List Line) : Decidable (HeadsClose lines) :=
  inferInstanceAs (Decidable (∀ position ∈ _, (_ → _) ∧ (_ → _)))

theorem taken_eq {lines : List Line} (hmem : position ∈ positions 0 0 none lines) :
    position.taken = (lines.drop position.index).take (position.further + 1) := by
  obtain ⟨hline, _⟩ := positionAt_of_mem hmem
  rw [drop_eq_cons hline, List.take_succ_cons, drop_of_mem hmem, Position.taken]

theorem bracesOf_take_taken {lines : List Line} (hmem : position ∈ positions 0 0 none lines)
    {count : Nat} (hcount : count ≤ position.further + 1) :
    bracesOf (position.taken.take count) =
      balanceOver braceBalance lines position.index (position.index + count) := by
  rw [taken_eq hmem, List.take_take, Nat.min_eq_left hcount, balanceOver,
    Nat.add_sub_cancel_left, bracesOf]

theorem bracesOf_taken {lines : List Line} (hmem : position ∈ positions 0 0 none lines) :
    bracesOf position.taken =
      balanceOver braceBalance lines position.index (position.index + (position.further + 1)) := by
  rw [taken_eq hmem, balanceOver, Nat.add_sub_cancel_left, bracesOf]

theorem EndsOn.balanceOver_le {lines : List Line} {first last : Nat} {closed : Bool}
    (h : EndsOn lines first first last closed)
    (hcloses : ∃ last, ClosesOn braceBalance lines first first last) :
    balanceOver braceBalance lines first (last + 1) ≤ 0 := by
  have hclosed := h.closed_iff.mpr hcloses
  rcases h with ⟨_, hlast, _⟩ | ⟨hopen, _⟩
  · exact hlast.2.2
  · rw [hopen] at hclosed
    contradiction

theorem bracesOf_taken_le {lines : List Line} (hmem : position ∈ positions 0 0 none lines)
    (h : declarationAt position = some found) (hends : position.Ends lines)
    (himport : position.line.BeginsImport → bracesOf position.taken ≤ 0)
    (hfunction : position.line.BeginsFunction →
      bracesOf (position.taken.take position.signatureLines) ≤ 0) :
    bracesOf position.taken ≤ 0 := by
  obtain ⟨hline, hposition⟩ := positionAt_of_mem hmem
  have hwhole := bracesOf_taken hmem
  have hfurther := further_of_some h
  rcases declarationAt_cases h with ⟨hbegins, rfl⟩ | ⟨hbegins, receiver, name, tail,
    rfl⟩ | ⟨hbegins, name, kind, rfl⟩
  · exact himport hbegins
  · have hlength : position.further = position.signatureLines + position.body.further := hfurther
    have hhead := hfunction hbegins
    rw [bracesOf_take_taken hmem (by omega)] at hhead
    have hbody := endsOn_body hline
    rw [← hposition] at hbody
    have hbody := hbody.balanceOver_le (hends.function hbegins)
    rw [Nat.add_assoc, Nat.add_assoc, ← Nat.add_assoc position.signatureLines, ← hlength] at hbody
    have hsum :=
      balanceOver_add braceBalance lines (Nat.le_add_right position.index position.signatureLines)
      (show _ ≤ position.index + (position.further + 1) by omega)
    omega
  · have hblock := endsOn_blockExtent hline
    rw [drop_of_mem hmem] at hblock
    have hlength : position.further = (blockExtent position.line position.after).further := hfurther
    rw [hwhole, hlength]
    exact hblock.balanceOver_le (hends.type hbegins)

end Places

/-! ## Imbalance -/

/-- The braces of a file do not balance, but every declaration ends and between declarations no more
braces are closed than were opened. -/
structure UnbalancedUnseen (lines : List Line) : Prop where
  ends : ∀ position ∈ positions 0 0 none lines, position.Ends lines
  covered : ∀ front, front <+: outside (positions 0 0 none lines) → 0 ≤ bracesOf front
  uneven : bracesOf (outside (positions 0 0 none lines)) +
    bracesOf (declared (positions 0 0 none lines)) ≠ 0

theorem bracesOf_eq_outside_add_declared (lines : List Line) :
    bracesOf lines =
      bracesOf (outside (positions 0 0 none lines)) +
        bracesOf (declared (positions 0 0 none lines)) := by
  rw [← bracesOf_flatMap_taken, flatMap_taken_positions, List.drop_zero]

theorem faults_scan_eq_nil_iff (lines : List Line) :
    faults (scan 0 0 0 none lines) = [] ↔
      (∀ position ∈ positions 0 0 none lines, position.Ends lines) ∧
      ∀ front, front <+: outside (positions 0 0 none lines) → 0 ≤ bracesOf front := by
  rw [scan_eq_findingsAt, faults_findingsAt_eq_nil_iff (Int.le_refl 0) fun _ hmem => hmem]
  simp only [Int.zero_add]

theorem bracesOf_declared_of_forall {p : Int → Prop} {places : List Position} (hzero : p 0)
    (hadd : ∀ a b, p a → p b → p (a + b))
    (h : ∀ position ∈ places, (declarationAt position).isSome = true →
      p (bracesOf position.taken)) :
    p (bracesOf (declared places)) := by
  induction places with
  | nil => exact hzero
  | cons position rest ih =>
      obtain ⟨hhere, hrest⟩ := List.forall_mem_cons.mp h
      cases hfound : declarationAt position with
      | none =>
          rw [declared_cons_of_none hfound]
          exact ih hrest
      | some found =>
          rw [hfound] at hhere
          rw [declared_cons_of_some hfound, bracesOf_append]
          exact hadd _ _ (hhere rfl) (ih hrest)

/-- An imbalance of the braces is reported unless every declaration ends and no more are closed
between declarations than were opened.  So a surplus of closing braces is reported if no declaration
closes more than it opens.  A surplus of opening braces is reported if none are left open between
declarations, in imports and in signatures before their last line. -/
theorem imbalance_reported_iff (path : Path) (text : List Char) :
    ∃ report, language.outline path (Utf8.encode text) = .outlined report ∧
      ((countIn '\x7b' (fileLines text) ≠ countIn '\x7d' (fileLines text) → report.faults ≠ []) ↔
        ¬ UnbalancedUnseen (fileLines text)) ∧
      ((∀ position ∈ positions 0 0 none (fileLines text),
          (declarationAt position).isSome = true → 0 ≤ bracesOf position.taken) →
        countIn '\x7b' (fileLines text) < countIn '\x7d' (fileLines text) → report.faults ≠ []) ∧
      (HeadsClose (fileLines text) → bracesOf (outside (positions 0 0 none (fileLines text))) ≤ 0 →
        countIn '\x7d' (fileLines text) < countIn '\x7b' (fileLines text) →
        report.faults ≠ []) := by
  refine ⟨_, outline_encode path text, ?_⟩
  have hfaults := faults_scan_eq_nil_iff (fileLines text)
  have hcounts := bracesOf_eq_countIn_sub (fileLines text)
  rw [bracesOf_eq_outside_add_declared] at hcounts
  refine ⟨?_, ?_, ?_⟩
  · constructor
    · rintro hreported ⟨hends, hcovered, huneven⟩
      exact hreported (by omega) (hfaults.mpr ⟨hends, hcovered⟩)
    · intro hseen hne hnone
      obtain ⟨hends, hcovered⟩ := hfaults.mp hnone
      exact hseen ⟨hends, hcovered, by omega⟩
  · intro hdeclarations hsurplus hnone
    have hcovered := (hfaults.mp hnone).2 _ (List.prefix_refl _)
    have hdeclared :=
      bracesOf_declared_of_forall (Int.le_refl 0) (fun _ _ => Int.add_nonneg) hdeclarations
    omega
  · intro hheads houtside hsurplus hnone
    have hends := (hfaults.mp hnone).1
    have hdeclared : bracesOf (declared (positions 0 0 none (fileLines text))) ≤ 0 := by
      refine bracesOf_declared_of_forall (p := (· ≤ 0)) (Int.le_refl 0) (fun a b => by omega) ?_
      intro position hmem hsome
      obtain ⟨found, hfound⟩ := Option.isSome_iff_exists.mp hsome
      obtain ⟨himport, hfunction⟩ := hheads position hmem
      exact bracesOf_taken_le hmem hfound (hends position hmem) himport hfunction
    omega

/-- A brace too many behind a function, and one too few. -/
def strayBrace : List Char := "func f() \x7b\n\x7d\n\x7d\n".toList

def openFunction : List Char := "func f() \x7b\n\tif a \x7b\n\x7d\n".toList

theorem imbalance_reported_iff_functions :
    (∃ report, language.outline ⟨"f.go"⟩ (Utf8.encode strayBrace) = .outlined report ∧
      report.faults ≠ []) ∧
    ∃ report, language.outline ⟨"f.go"⟩ (Utf8.encode openFunction) = .outlined report ∧
    report.faults ≠ [] := by
  have hstray : (∀ position ∈ positions 0 0 none (fileLines strayBrace),
        (declarationAt position).isSome = true → 0 ≤ bracesOf position.taken) ∧
      countIn '\x7b' (fileLines strayBrace) < countIn '\x7d' (fileLines strayBrace) := by
        decide +kernel
  have hopen : HeadsClose (fileLines openFunction) ∧
      bracesOf (outside (positions 0 0 none (fileLines openFunction))) ≤ 0 ∧
      countIn '\x7d' (fileLines openFunction) < countIn '\x7b' (fileLines openFunction) := by
        decide +kernel
  obtain ⟨report, houtline, _, hclosing, _⟩ := imbalance_reported_iff ⟨"f.go"⟩ strayBrace
  obtain ⟨report', houtline', _, _, hopening⟩ := imbalance_reported_iff ⟨"f.go"⟩ openFunction
  exact ⟨⟨report, houtline, hclosing hstray.1 hstray.2⟩, report', houtline',
    hopening hopen.1 hopen.2.1 hopen.2.2⟩

/-- A composite literal that is never closed. -/
def openLiteral : List Char := "var x = T\x7b\n".toList

/-- The brace is opened between declarations, and how many are open there at the end is not
looked at. -/
theorem open_literal_not_reported :
    countIn '\x7b' (stripLines openLiteral) ≠ countIn '\x7d' (stripLines openLiteral) ∧
      faults (findings openLiteral) = [] := by
  decide +kernel

end GoOutline
end CodeSurvey
