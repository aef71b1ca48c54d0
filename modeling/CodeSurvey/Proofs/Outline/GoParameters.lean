import Mathlib.Data.List.TakeWhile
import CodeSurvey.Proofs.Outline.GoCursor
import CodeSurvey.Proofs.Text.Split

/-
Where a parameter list of Go ends and where its parameters do.  Two counts of brackets are taken
over one text: one begins below an open parenthesis and looks for the bracket that closes it, the
other begins at zero and looks for commas.  Both add `nesting` to what they begin with, as long as
it does not take them below their start (`splitParameters_append`, `parameterPieces_append`), so on
texts that close what they open they agree.
-/

namespace CodeSurvey
namespace GoOutline

open Text

/-- Opening minus closing brackets, of whatever sort. -/
def nesting (text : List Char) : Int := text.countP isOpening - text.countP isClosing

/-- No bracket is closed before it was opened. -/
def Covered (text : List Char) : Prop := ∀ front, front <+: text → 0 ≤ nesting front

/-- What stands between two commas of a parameter list: the brackets of the text balance, and it has
commas only inside them. -/
structure IsParameter (piece : List Char) : Prop where
  balanced : nesting piece = 0
  covered : Covered piece
  commas : ∀ front, front ++ [','] <+: piece → nesting front ≠ 0

instance (text : List Char) : Decidable (Covered text) :=
  decidable_of_iff (∀ front ∈ text.inits, 0 ≤ nesting front)
    (by simp only [List.mem_inits, Covered])

instance (piece : List Char) : Decidable (IsParameter piece) :=
  decidable_of_iff
    (nesting piece = 0 ∧ Covered piece ∧ ∀ front ∈ piece.inits, front ++ [','] <+: piece →
      nesting front ≠ 0) (by
      constructor
      · intro h
        refine ⟨h.1, h.2.1, fun front hfront => h.2.2 front ?_ hfront⟩
        exact (List.mem_inits _ _).mpr ((List.prefix_append front [',']).trans hfront)
      · intro h
        exact ⟨h.balanced, h.covered, fun front _ => h.commas front⟩)

section Nesting

variable {c : Char} {text rest : List Char}

theorem nesting_nil : nesting [] = 0 := rfl

theorem nesting_cons (c : Char) (rest : List Char) :
    nesting (c :: rest) = (if isOpening c then 1 else if isClosing c then -1 else 0) +
      nesting rest := by
  unfold nesting
  by_cases hclosing : isClosing c = true
  · have hopening := Checked.isOpening_of_isClosing hclosing
    rw [List.countP_cons_of_pos hclosing, List.countP_cons_of_neg (by simp [hopening]), hopening,
      if_neg Bool.false_ne_true, if_pos hclosing]
    omega
  · rw [List.countP_cons_of_neg hclosing, if_neg hclosing]
    by_cases hopening : isOpening c = true
    · rw [List.countP_cons_of_pos hopening, if_pos hopening]
      omega
    · rw [List.countP_cons_of_neg hopening, if_neg hopening]
      omega

theorem nesting_append (a b : List Char) : nesting (a ++ b) = nesting a + nesting b := by
  unfold nesting
  rw [List.countP_append, List.countP_append]
  omega

/-- A count that is not taken below zero goes on with the nesting of the character. -/
theorem exists_depthAfter {depth : Nat} (h : 0 ≤ depth + nesting [c]) :
    ∃ next, Checked.depthAfter depth c = some next ∧ (next : Int) = depth + nesting [c] := by
  have hone := nesting_cons c []
  rw [nesting_nil, Int.add_zero] at hone
  unfold Checked.depthAfter
  by_cases hclosing : isClosing c = true
  · rw [Checked.isOpening_of_isClosing hclosing, if_neg Bool.false_ne_true, if_pos hclosing] at hone
    rw [if_pos hclosing, hone]
    cases depth with
    | zero => omega
    | succ depth => exact ⟨depth, rfl, by omega⟩
  · rw [if_neg hclosing] at hone
    rw [if_neg hclosing]
    by_cases hopening : isOpening c = true
    · rw [if_pos hopening] at hone
      exact ⟨depth + 1, by rw [if_pos hopening], by omega⟩
    · rw [if_neg hopening] at hone
      exact ⟨depth, by rw [if_neg hopening], by omega⟩

end Nesting

/-! ## Two counts -/

section Counts

variable {text more first : List Char} {others : List (List Char)}

/-- The bracket that ends a parameter list is not looked for inside a text that
closes none but its own. -/
theorem splitParameters_append {depth next : Nat}
    (hcovered : ∀ front, front <+: text → 0 ≤ depth + nesting front)
    (hnext : (next : Int) = depth + nesting text) :
    splitParameters depth (text ++ more) =
      (text ++ (splitParameters next more).1, (splitParameters next more).2) := by
  induction text generalizing depth with
  | nil =>
      have hsame : depth = next := by
        rw [nesting_nil] at hnext
        omega
      rw [hsame]
      rfl
  | cons c text ih =>
      obtain ⟨middle, hmiddle, hdepth⟩ := exists_depthAfter (hcovered [c] (by simp))
      have hrest : splitParameters middle (text ++ more) =
          (text ++ (splitParameters next more).1, (splitParameters next more).2) := by
        apply ih
        · intro front hfront
          have hlonger := hcovered (c :: front) (List.cons_prefix_cons.mpr ⟨rfl, hfront⟩)
          rw [← List.singleton_append, nesting_append] at hlonger
          omega
        · rw [← List.singleton_append, nesting_append] at hnext
          omega
      rw [List.cons_append]
      rcases Checked.depthAfter_cases depth c (text ++ more) with
        ⟨hzero, hclosing, _⟩ | ⟨other, hother, _, hsplit⟩
      · rw [hzero, Checked.depthAfter, if_pos hclosing] at hmiddle
        contradiction
      · rw [hmiddle, Option.some.injEq] at hother
        rw [hsplit, ← hother, hrest]
        rfl

/-- A text with no comma outside its brackets goes to one piece. -/
theorem parameterPieces_append {depth : Int}
    (hcommas : ∀ front, front ++ [','] <+: text → depth + nesting front ≠ 0)
    (hmore : parameterPieces (depth + nesting text) more = first :: others) :
    parameterPieces depth (text ++ more) = (text ++ first) :: others := by
  induction text generalizing depth with
  | nil =>
      rw [nesting_nil, Int.add_zero] at hmore
      exact hmore
  | cons c text ih =>
      have hgoes : (c == ',' && depth == 0) = false := by
        rw [Bool.eq_false_iff, Ne, Bool.and_eq_true, beq_iff_eq, beq_iff_eq]
        intro h
        have hcut := hcommas [] (by rw [h.1]; simp)
        rw [nesting_nil] at hcut
        omega
      have hdepth : (if isOpening c then depth + 1 else if isClosing c then depth - 1 else depth) =
          depth + nesting [c] := by
        rw [nesting_cons, nesting_nil]
        split
        · omega
        · split <;> omega
      have hrest : parameterPieces (depth + nesting [c]) (text ++ more) =
          (text ++ first) :: others := by
        apply ih
        · intro front hfront
          have hlonger := hcommas (c :: front) (List.cons_prefix_cons.mpr ⟨rfl, hfront⟩)
          rw [← List.singleton_append, nesting_append] at hlonger
          omega
        · rw [← List.singleton_append, nesting_append, ← Int.add_assoc] at hmore
          exact hmore
      rw [List.cons_append, parameterPieces, hgoes, if_neg Bool.false_ne_true, hdepth]
      simp only [hrest, List.cons_append]

end Counts

/-! ## Parameters one after the other -/

section Lists

variable {pieces : List (List Char)}

/-- All pieces of a joined list are passed over before the end of the list is found. -/
theorem splitParameters_intercalate (h : ∀ piece ∈ pieces, IsParameter piece) (more : List Char) :
    splitParameters 0 (List.intercalate [','] pieces ++ more) =
      (List.intercalate [','] pieces ++ (splitParameters 0 more).1,
        (splitParameters 0 more).2) := by
  induction pieces with
  | nil => simp
  | cons piece rest ih =>
      obtain ⟨hpiece, hrest⟩ := List.forall_mem_cons.mp h
      have hover : ∀ more, splitParameters 0 (piece ++ more) =
          (piece ++ (splitParameters 0 more).1, (splitParameters 0 more).2) := by
        intro more
        apply splitParameters_append
        · intro front hfront
          have hnonneg := hpiece.covered front hfront
          omega
        · have hzero := hpiece.balanced
          omega
      cases rest with
      | nil =>
          rw [List.intercalate_singleton]
          exact hover more
      | cons second rest =>
          have hcomma : ∀ more, splitParameters 0 (',' :: more) =
              (',' :: (splitParameters 0 more).1, (splitParameters 0 more).2) := by
            intro more
            rfl
          rw [List.intercalate_cons_cons, List.append_assoc, List.append_assoc,
            List.singleton_append, hover, hcomma, ih hrest]
          simp

/-- Cutting at the commas outside brackets gives the pieces back. -/
theorem parameterPieces_intercalate (hne : pieces ≠ []) (h : ∀ piece ∈ pieces, IsParameter piece) :
    parameterPieces 0 (List.intercalate [','] pieces) = pieces := by
  induction pieces with
  | nil => contradiction
  | cons piece rest ih =>
      obtain ⟨hpiece, hrest⟩ := List.forall_mem_cons.mp h
      have hcommas : ∀ front, front ++ [','] <+: piece → 0 + nesting front ≠ 0 := by
        intro front hfront
        rw [Int.zero_add]
        exact hpiece.commas front hfront
      cases rest with
      | nil =>
          have hend : parameterPieces (0 + nesting piece) [] = [] :: [] := rfl
          have hpieces := parameterPieces_append hcommas hend
          rw [List.append_nil] at hpieces
          rw [List.intercalate_singleton]
          exact hpieces
      | cons second rest =>
          have hcomma : parameterPieces (0 + nesting piece)
              (',' :: List.intercalate [','] (second :: rest)) =
              [] :: second :: rest := by
            rw [hpiece.balanced, parameterPieces, if_pos (by decide), Int.zero_add,
              ih (List.cons_ne_nil _ _) hrest]
          have hpieces := parameterPieces_append hcommas hcomma
          rw [List.append_nil] at hpieces
          rw [List.intercalate_cons_cons, List.append_assoc, List.singleton_append]
          exact hpieces

/-- The names are the first words, whatever the pieces are. -/
theorem filterMap_words (pieces : List (List Char)) :
    (pieces.filterMap fun piece => (words piece).head?.map String.ofList) =
      (pieces.filter fun piece => ! piece.all isBlank).map fun piece =>
        String.ofList (upTo isBlank (trimStart piece)) := by
  induction pieces with
  | nil => rfl
  | cons piece rest ih =>
      have hblank : trimStart piece = [] ↔ piece.all isBlank = true := by
        rw [trimStart, List.dropWhile_eq_nil_iff, List.all_eq_true]
      rw [List.filterMap_cons, head?_words, ih]
      by_cases hall : piece.all isBlank = true
      · rw [if_pos (hblank.mpr hall), List.filter_cons_of_neg (by simp [hall])]
        rfl
      · rw [if_neg (mt hblank.mp hall), List.filter_cons_of_pos (by simpa using hall)]
        rfl

theorem parameterNames_intercalate (h : ∀ piece ∈ pieces, IsParameter piece) :
    parameterNames (List.intercalate [','] pieces) =
      (pieces.filter fun piece => ! piece.all isBlank).map fun piece =>
        String.ofList (upTo isBlank (trimStart piece)) := by
  rw [← filterMap_words, parameterNames]
  cases pieces with
  | nil => rfl
  | cons piece rest => rw [parameterPieces_intercalate (List.cons_ne_nil piece rest) h]

end Lists

/-- Parameters that are joined by commas and followed by the parenthesis that ends the list
are read as they are, and named by their first words; neither counter of brackets falls
below zero on the way. -/
theorem parameters_split_at_commas (pieces : List (List Char)) (rest : List Char)
    (h : ∀ piece ∈ pieces, IsParameter piece) :
    splitParameters 0 (List.intercalate [','] pieces ++ ')' :: rest) =
      (List.intercalate [','] pieces, rest) ∧
    parameterNames (List.intercalate [','] pieces) =
      (pieces.filter fun piece => ! piece.all isBlank).map (fun piece =>
        String.ofList (upTo isBlank (trimStart piece))) ∧
    Checked.splitParameters (List.intercalate [','] pieces ++ ')' :: rest) =
      some (List.intercalate [','] pieces, rest) ∧
    Checked.parameterNames (List.intercalate [','] pieces) =
      some (parameterNames (List.intercalate [','] pieces)) := by
  have hend : splitParameters 0 (')' :: rest) = ([], rest) := rfl
  have hsplit : splitParameters 0 (List.intercalate [','] pieces ++ ')' :: rest) =
      (List.intercalate [','] pieces, rest) := by
    rw [splitParameters_intercalate h, hend, List.append_nil]
  have hchecked := Checked.parameterNames_eq (List.intercalate [','] pieces ++ ')' :: rest)
  rw [hsplit] at hchecked
  refine ⟨hsplit, parameterNames_intercalate h, ?_, hchecked⟩
  rw [Checked.splitParameters_eq, hsplit]

/-- A function, a map and a structure among the types, and a comma after the last parameter. -/
def nestedParameters : List (List Char) :=
  ["ctx context.Context".toList, " f func(a int, b map[string][]int) (int, error)".toList,
    " o struct \x7b p, q int \x7d".toList, " ".toList]

theorem parameters_split_at_commas_nested :
    (∀ piece ∈ nestedParameters, IsParameter piece) ∧
    splitParameters 0 (List.intercalate [','] nestedParameters ++ ") error \x7b".toList) =
      (List.intercalate [','] nestedParameters, " error \x7b".toList) ∧
    parameterNames (List.intercalate [','] nestedParameters) = ["ctx", "f", "o"] := by
  have hparameters : ∀ piece ∈ nestedParameters, IsParameter piece := by decide +kernel
  obtain ⟨hsplit, hnames, _⟩ :=
    parameters_split_at_commas nestedParameters " error \x7b".toList hparameters
  refine ⟨hparameters, hsplit, ?_⟩
  rw [hnames]
  decide +kernel

end GoOutline
end CodeSurvey
