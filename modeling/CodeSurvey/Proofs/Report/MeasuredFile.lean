import Mathlib.Data.List.Forall2
import CodeSurvey.Measures
import CodeSurvey.Proofs.Lines.Counts

/-
What measuring does to a report, whatever outline it starts from: the classes of the lines add up,
no function counts less than 1, the sums are those of the figures they stand beside, and the rest is
kept.  Measuring again with the same text changes nothing, since every figure rests on parts of the
report that are settled after the first time.

The sums are exact numbers.  A machine that adds in words finds them too if the sum of all fits in
one, and only then (`FileReport.addsUp_measured_iff`).
-/

namespace CodeSurvey

/-! ## Sums in words -/

/-- The numbers below this one fit in a word of the machine. -/
def wordSize : Nat := Nat.pow 2 64

/-- The sum of two words, if it is one. -/
def addWords (a b : Nat) : Option Nat := if a + b < wordSize then some (a + b) else none

/-- The sum of words that are added one after another. -/
def wordSum (counts : List Nat) : Option Nat := counts.foldlM addWords 0

theorem addWords_eq_some_iff {a b total : Nat} :
    addWords a b = some total ↔ a + b = total ∧ total < wordSize := by
  unfold addWords
  split <;> simp <;> omega

/-- Sums that fit are found word by word, as every sum on the way fits too. -/
theorem wordSum_eq_some_iff {counts : List Nat} {total : Nat} :
    wordSum counts = some total ↔ counts.sum = total ∧ total < wordSize := by
  have hrun : ∀ start < wordSize,
      counts.foldlM addWords start = some total ↔ start + counts.sum = total ∧
        total < wordSize := by
    induction counts with
    | nil =>
        intro start hstart
        simp only [List.foldlM_nil, Option.pure_def, Option.some.injEq, List.sum_nil, Nat.add_zero]
        omega
    | cons count counts ih =>
        intro start hstart
        rw [List.foldlM_cons, List.sum_cons, ← Nat.add_assoc, addWords]
        split
        · next hfits => exact ih _ hfits
        · next hover =>
            constructor
            · intro h
              contradiction
            · omega
  rw [wordSum, hrun 0 (by decide), Nat.zero_add]

namespace FunctionOutline

/-- A measured function is the one it was, with a complexity of at least 1. -/
structure MeasuredAs (before after : FunctionOutline) : Prop where
  complexity : after.complexity = max 1 before.complexity
  kept : { after with complexity := before.complexity } = before

theorem measuredAs_withLeastComplexity (f : FunctionOutline) : f.MeasuredAs f.withLeastComplexity :=
  ⟨Nat.max_comm _ _, rfl⟩

theorem withLeastComplexity_withLeastComplexity (f : FunctionOutline) :
    f.withLeastComplexity.withLeastComplexity = f.withLeastComplexity := by
  simp [withLeastComplexity]

end FunctionOutline

namespace TypeOutline

/-- A measured type is the one it was, with measured methods and their sum. -/
structure MeasuredAs (before after : TypeOutline) : Prop where
  methods : List.Forall₂ FunctionOutline.MeasuredAs before.methods after.methods
  complexity : after.complexity = (after.methods.map FunctionOutline.complexity).sum
  kept : { after with methods := before.methods, complexity := before.complexity } = before

theorem measuredAs_measured (t : TypeOutline) : t.MeasuredAs t.measured := by
  refine ⟨?_, rfl, rfl⟩
  show List.Forall₂ _ t.methods (t.methods.map FunctionOutline.withLeastComplexity)
  rw [List.forall₂_map_right_iff, List.forall₂_same]
  intro f _
  exact f.measuredAs_withLeastComplexity

theorem measured_measured (t : TypeOutline) : t.measured.measured = t.measured := by
  have hmethods : t.measured.methods.map FunctionOutline.withLeastComplexity =
      t.measured.methods := by
    show (t.methods.map FunctionOutline.withLeastComplexity).map _ = t.methods.map _
    rw [List.map_map]
    exact List.map_congr_left fun f _ => f.withLeastComplexity_withLeastComplexity
  rw [measured, hmethods]
  rfl

end TypeOutline

namespace FileReport

/-- What a measured report has from the report it comes from. -/
structure MeasuredAs (before after : FileReport) : Prop where
  lines : after.lineCount = after.codeLines + after.commentLines + after.blankLines
  functions : List.Forall₂ FunctionOutline.MeasuredAs before.functions after.functions
  types : List.Forall₂ TypeOutline.MeasuredAs before.types after.types
  complexity : after.complexity =
    max 1 (((after.functions ++ after.methods).map FunctionOutline.complexity).sum)
  dependencies : after.dependencies = before.imports.map fun name =>
    { name, kind := .ofImport before.language name, file := before.path, usageCount := 1,
      version := none }
  path : after.path = before.path
  language : after.language = before.language
  imports : after.imports = before.imports
  faults : after.faults = before.faults

theorem measuredAs_measured (report : FileReport) (content : List UInt8)
    (delimiters : CommentSyntax) : report.MeasuredAs (report.measured content delimiters) where
  lines := LineCounts.total_eq_add delimiters (Text.Utf8.decodeLossy content)
  functions := by
    show List.Forall₂ _ report.functions (report.functions.map FunctionOutline.withLeastComplexity)
    rw [List.forall₂_map_right_iff, List.forall₂_same]
    intro f _
    exact f.measuredAs_withLeastComplexity
  types := by
    show List.Forall₂ _ report.types (report.types.map TypeOutline.measured)
    rw [List.forall₂_map_right_iff, List.forall₂_same]
    intro t _
    exact t.measuredAs_measured
  complexity := by
    rw [List.map_append, List.sum_append, Nat.max_comm]
    rfl
  dependencies := rfl
  path := rfl
  language := rfl
  imports := rfl
  faults := rfl

/-- Debt looks at the outlines, the longest line and the lines of code and comments only. -/
theorem debt_congr {a b : FileReport} (hfunctions : a.functions = b.functions)
    (htypes : a.types = b.types) (hlength : a.maxLineLength = b.maxLineLength)
    (hcode : a.codeLines = b.codeLines) (hcomment : a.commentLines = b.commentLines) :
    a.debt = b.debt := by
  simp only [debt, methods, hfunctions, htypes, hlength, hcode, hcomment]

theorem totalComplexity_congr {a b : FileReport} (hfunctions : a.functions = b.functions)
    (htypes : a.types = b.types) : a.totalComplexity = b.totalComplexity := by
  simp only [totalComplexity, methods, hfunctions, htypes]

/-- Measuring forgets the figures of the report it starts from. -/
theorem measured_congr {a b : FileReport} (content : List UInt8) (delimiters : CommentSyntax)
    (hpath : a.path = b.path) (hlanguage : a.language = b.language)
    (hfunctions : a.functions.map FunctionOutline.withLeastComplexity =
      b.functions.map FunctionOutline.withLeastComplexity)
    (htypes : a.types.map TypeOutline.measured = b.types.map TypeOutline.measured)
    (himports : a.imports = b.imports) (hfaults : a.faults = b.faults) :
    a.measured content delimiters = b.measured content delimiters := by
  have hcomplexity : (a.measured content delimiters).complexity =
      (b.measured content delimiters).complexity := totalComplexity_congr hfunctions htypes
  have hdebt : (a.measured content delimiters).technicalDebt =
      (b.measured content delimiters).technicalDebt := debt_congr hfunctions htypes rfl rfl rfl
  have hdependencies : a.imports.map a.dependencyOn = b.imports.map b.dependencyOn := by
    rw [himports]
    exact List.map_congr_left fun name _ => by rw [dependencyOn, dependencyOn, hlanguage, hpath]
  simp only [measured] at hcomplexity hdebt ⊢
  rw [hcomplexity, hdebt, hdependencies, hpath, hlanguage, hfunctions, htypes, himports, hfaults]

theorem measured_measured (report : FileReport) (content : List UInt8)
    (delimiters : CommentSyntax) :
    (report.measured content delimiters).measured content delimiters =
      report.measured content delimiters := by
  refine measured_congr content delimiters rfl rfl ?_ ?_ rfl rfl
  · show (report.functions.map FunctionOutline.withLeastComplexity).map _ = report.functions.map _
    rw [List.map_map]
    exact List.map_congr_left fun f _ => f.withLeastComplexity_withLeastComplexity
  · show (report.types.map TypeOutline.measured).map _ = report.types.map _
    rw [List.map_map]
    exact List.map_congr_left fun t _ => t.measured_measured

/-- The complexities of a report are what a machine finds that adds in words. -/
structure AddsUp (report : FileReport) : Prop where
  types : ∀ t ∈ report.types,
    wordSum (t.methods.map FunctionOutline.complexity) = some t.complexity
  total : ∃ functions methods total,
    wordSum (report.functions.map FunctionOutline.complexity) = some functions ∧
    wordSum (report.methods.map FunctionOutline.complexity) = some methods ∧
    addWords functions methods = some total ∧ report.complexity = max 1 total

/-- The complexities of the functions and methods, each at least 1, add up to a word. -/
def Fits (report : FileReport) : Prop :=
  ((report.functions ++ report.methods).map fun f => max 1 f.complexity).sum < wordSize

instance (report : FileReport) : Decidable report.Fits := inferInstanceAs (Decidable (_ < wordSize))

theorem map_complexity_functions (report : FileReport) (content : List UInt8)
    (delimiters : CommentSyntax) :
    (report.measured content delimiters).functions.map FunctionOutline.complexity =
      report.functions.map fun f => max 1 f.complexity := by
  show (report.functions.map FunctionOutline.withLeastComplexity).map _ = _
  rw [List.map_map]
  exact List.map_congr_left fun f _ => Nat.max_comm f.complexity 1

theorem map_complexity_methods (report : FileReport) (content : List UInt8)
    (delimiters : CommentSyntax) :
    (report.measured content delimiters).methods.map FunctionOutline.complexity =
      report.methods.map fun f => max 1 f.complexity := by
  have hmethods : (report.measured content delimiters).methods =
      report.methods.map FunctionOutline.withLeastComplexity := by
    simp only [methods, measured, List.flatMap_map, List.map_flatMap]
    rfl
  rw [hmethods, List.map_map]
  exact List.map_congr_left fun f _ => Nat.max_comm f.complexity 1

/-- The methods of one type are among all. -/
theorem sum_methods_le {report : FileReport} {t : TypeOutline} (ht : t ∈ report.types) :
    (t.methods.map FunctionOutline.complexity).sum ≤
      (report.methods.map FunctionOutline.complexity).sum := by
  obtain ⟨before, after, htypes⟩ := List.append_of_mem ht
  simp only [methods, htypes, List.flatMap_append, List.flatMap_cons, List.map_append,
    List.sum_append]
  omega

/-- A machine that adds in words finds the sums of a measured report if all of it fits in a
word, and only then. -/
theorem addsUp_measured_iff (report : FileReport) (content : List UInt8)
    (delimiters : CommentSyntax) : (report.measured content delimiters).AddsUp ↔ report.Fits := by
  have hfunctions := report.map_complexity_functions content delimiters
  have hmethods := report.map_complexity_methods content delimiters
  rw [Fits, List.map_append, List.sum_append, ← hfunctions, ← hmethods]
  constructor
  · intro h
    obtain ⟨functions, methods, total, hf, hm, htotal, _⟩ := h.total
    rw [wordSum_eq_some_iff] at hf hm
    rw [addWords_eq_some_iff] at htotal
    omega
  · intro hfits
    refine ⟨fun t ht => ?_, _, _, _, wordSum_eq_some_iff.mpr ⟨rfl, ?_⟩,
      wordSum_eq_some_iff.mpr ⟨rfl, ?_⟩, addWords_eq_some_iff.mpr ⟨rfl, hfits⟩, Nat.max_comm _ _⟩
    · obtain ⟨before, _, rfl⟩ := List.mem_map.mp ht
      have hle := sum_methods_le ht
      rw [wordSum_eq_some_iff]
      exact ⟨rfl, show (before.measured.methods.map FunctionOutline.complexity).sum < _ by omega⟩
    · omega
    · omega

/-- A measured report is in order whatever outline, text and comment delimiters it comes from, as
long as its complexities fit in a word of the machine together: every figure is the one it should
be, a machine that adds in words finds it, and measuring once more changes nothing. -/
theorem measured_settled (report : FileReport) (content : List UInt8) (delimiters : CommentSyntax)
    (hfits : report.Fits) :
    report.MeasuredAs (report.measured content delimiters) ∧
      (report.measured content delimiters).AddsUp ∧
      (report.measured content delimiters).lineCount =
        (Text.lines (Text.Utf8.decodeLossy content)).length ∧
      (report.measured content delimiters).measured content delimiters =
        report.measured content delimiters :=
  ⟨report.measuredAs_measured content delimiters,
    (report.addsUp_measured_iff content delimiters).mpr hfits,
    LineCounts.total_eq_length delimiters _, report.measured_measured content delimiters⟩

/-- A report with a function that counts nothing and a type with a stale sum over two methods. -/
def staleReport : FileReport where
  path := ⟨"a.py"⟩
  language := "Python"
  functions := [{ name := "f", startLine := 1, endLine := 1, complexity := 0 }]
  types := [
    { name := "T"
      kind := .classType
      startLine := 2
      endLine := 4
      methods := [
        { name := "g", startLine := 3, endLine := 3, complexity := 2 },
        { name := "h", startLine := 4, endLine := 4, complexity := 3 }]
      complexity := 9 }]

/-- Its sums are made anew: 5 for the type and 6 for the file. -/
theorem measured_settled_staleReport :
    staleReport.Fits ∧ (staleReport.measured [] .hash).AddsUp ∧
    (staleReport.measured [] .hash).types.map TypeOutline.complexity = [5] ∧
    (staleReport.measured [] .hash).complexity = 6 :=
  have hfits : staleReport.Fits := by decide
  ⟨hfits, (measured_settled staleReport [] .hash hfits).2.1, rfl, rfl⟩

end FileReport
end CodeSurvey
