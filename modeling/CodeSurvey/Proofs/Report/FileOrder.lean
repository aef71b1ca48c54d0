import Mathlib.Data.List.Nodup
import CodeSurvey.ProjectReport

/-
The order of the files in a report.  Paths compare by their components, so two that say the same
with other text are equal in this order.  Among files that say different things the order is total,
and sorting forgets the order in which the reports came (`ofFiles_eq_of_perm`) and nothing else
(`report_forgets_order`).
-/

namespace CodeSurvey

namespace Component

theorem compare_eq_compareLex :
    Component.compare = compareLex (compareOn rank) (compareOn text) := rfl

instance : Std.TransCmp Component.compare := by
  rw [compare_eq_compareLex]
  infer_instance

theorem eq_of_rank_text {a b : Component} (hrank : a.rank = b.rank) (htext : a.text = b.text) :
    a = b := by
  cases a <;> cases b <;> simp [rank] at hrank
  · rfl
  · rfl
  · rfl
  · exact congrArg Component.name htext

instance : Std.LawfulEqCmp Component.compare where
  eq_of_compare {a b} h := by
    rw [compare_eq_compareLex, compareLex_eq_eq] at h
    exact eq_of_rank_text (Std.LawfulEqCmp.eq_of_compare h.1) (Std.LawfulEqCmp.eq_of_compare h.2)

end Component

namespace Path

theorem compareComponents_eq_compareLex (as bs : List Component) :
    compareComponents as bs = List.compareLex Component.compare as bs := by
  induction as generalizing bs with
  | nil =>
      cases bs with
      | nil => rfl
      | cons b bs => rfl
  | cons a as ih =>
      cases bs with
      | nil => rfl
      | cons b bs => rw [compareComponents, ih, List.compareLex_cons_cons]

theorem le_iff (a b : Path) :
    a.le b = true ↔ (List.compareLex Component.compare a.components b.components).isLE = true := by
  rw [le, compare, compareComponents_eq_compareLex]
  cases List.compareLex Component.compare a.components b.components <;> simp

theorem le_trans {a b c : Path} (hab : a.le b = true) (hbc : b.le c = true) : a.le c = true := by
  rw [le_iff] at hab hbc ⊢
  exact Std.TransCmp.isLE_trans hab hbc

theorem le_total (a b : Path) : (a.le b || b.le a) = true := by
  rw [Bool.or_eq_true, le_iff, le_iff]
  have hswap := @Std.OrientedCmp.eq_swap _ (List.compareLex Component.compare) _ b.components
    a.components
  rw [hswap]
  cases List.compareLex Component.compare a.components b.components <;> simp

/-- Paths that compare equal say the same, whatever their text. -/
theorem components_eq_of_le {a b : Path} (hab : a.le b = true) (hba : b.le a = true) :
    a.components = b.components := by
  rw [le_iff] at hab hba
  exact Std.LawfulEqCmp.eq_of_compare (Std.OrientedCmp.isLE_antisymm hab hba)

theorem compare_eq_eq_iff {a b : Path} : a.compare b = .eq ↔ a.components = b.components := by
  rw [compare, compareComponents_eq_compareLex]
  exact Std.LawfulEqCmp.compare_eq_iff_eq

theorem compare_eq_lt_of_le {a b : Path} (hle : a.le b = true) (hne : a.components ≠ b.components) :
    a.compare b = .lt := by
  rw [Ne, ← compare_eq_eq_iff] at hne
  rw [le] at hle
  cases hcompare : a.compare b with
  | lt => rfl
  | eq => exact absurd hcompare hne
  | gt =>
      rw [hcompare] at hle
      contradiction

end Path

namespace ProjectReport

theorem pairwise_le_sort (reports : List FileReport) :
    (reports.mergeSort fun a b => a.path.le b.path).Pairwise fun a b => a.path.le b.path = true :=
  @List.pairwise_mergeSort FileReport (fun a b => a.path.le b.path) (fun _ _ _ => Path.le_trans)
    (fun a b => Path.le_total a.path b.path) reports

theorem sort_eq_of_perm {as bs : List FileReport} (hperm : as.Perm bs)
    (hdistinct : (as.map fun report => report.path.components).Nodup) :
    (as.mergeSort fun a b => a.path.le b.path) = bs.mergeSort fun a b => a.path.le b.path := by
  refine List.Perm.eq_of_pairwise ?_ (pairwise_le_sort as) (pairwise_le_sort bs)
    ((List.mergeSort_perm as _).trans (hperm.trans (List.mergeSort_perm bs _).symm))
  intro a b ha hb hab hba
  have ha' : a ∈ as := List.mem_mergeSort.mp ha
  have hb' : b ∈ as := hperm.mem_iff.mpr (List.mem_mergeSort.mp hb)
  exact List.inj_on_of_nodup_map hdistinct ha' hb' (Path.components_eq_of_le hab hba)

/-- A report does not depend on the order in which the files came. -/
theorem ofFiles_eq_of_perm (root : Path) {as bs : List FileReport} (hperm : as.Perm bs)
    (hdistinct : (as.map fun report => report.path.components).Nodup) :
    ofFiles root as = ofFiles root bs := by
  simp only [ofFiles, sort_eq_of_perm hperm hdistinct]

theorem nodup_components_iff {reports : List FileReport} :
    (reports.map fun report => report.path.components).Nodup ↔
      reports.Pairwise fun a b => a.path.compare b.path ≠ .eq := by
  rw [List.Nodup, List.pairwise_map]
  simp only [Ne, Path.compare_eq_eq_iff]

/-- Where no two files have one path, a report tells which files came and nothing about the order in
which they did: it lists them by ascending paths, and two reports on them agree in all parts. -/
theorem report_forgets_order (root : Path) {reports : List FileReport}
    (hdistinct : reports.Pairwise fun a b => a.path.compare b.path ≠ .eq) :
    (∀ others, ofFiles root others = ofFiles root reports ↔ others.Perm reports) ∧
    (ofFiles root reports).files.Perm reports ∧
    (ofFiles root reports).files.Pairwise fun a b => a.path.compare b.path = .lt := by
  have hnodup := nodup_components_iff.mpr hdistinct
  have hfiles : ∀ reports, (ofFiles root reports).files.Perm reports :=
    fun reports => List.mergeSort_perm reports _
  refine ⟨fun others => ⟨fun hsame => ?_, fun hperm => ?_⟩, hfiles reports, ?_⟩
  · have hsorted : (ofFiles root others).files = (ofFiles root reports).files :=
      congrArg ProjectReport.files hsame
    have hothers := (hfiles others).symm
    rw [hsorted] at hothers
    exact hothers.trans (hfiles reports)
  · exact (ofFiles_eq_of_perm root hperm.symm hnodup).symm
  · have hapart : (ofFiles root reports).files.Pairwise fun a b =>
        a.path.components ≠ b.path.components :=
      List.pairwise_map.mp (((hfiles reports).map _).nodup_iff.mpr hnodup)
    exact (pairwise_le_sort reports).imp₂ (fun a b => Path.compare_eq_lt_of_le) hapart

/-- Paths with a repeated separator and an inner dot, of files that import each other.  A directory
comes before another whose name extends its own, though its text does not. -/
def scatteredFiles : List FileReport :=
  let importing (file name : String) : Dependency := { name, kind := .internal, file := ⟨file⟩ }
  [{ path := ⟨"src-old/x.py"⟩, language := "Python", maintainability := 61.25 },
    { path := ⟨"src//y.py"⟩, language := "Python", maintainability := 0.1
      dependencies := [importing "src//y.py" ".x"] },
    { path := ⟨"src/./x.py"⟩, language := "Python", maintainability := 0.2
      dependencies := [importing "src/./x.py" ".y"] }]

theorem report_forgets_order_scatteredFiles :
    (scatteredFiles.Pairwise fun a b => a.path.compare b.path ≠ .eq) ∧
    ofFiles ⟨"."⟩ scatteredFiles.reverse = ofFiles ⟨"."⟩ scatteredFiles ∧
    (ofFiles ⟨"."⟩ scatteredFiles).files.Pairwise fun a b => a.path.compare b.path = .lt := by
  have hdistinct : scatteredFiles.Pairwise fun a b => a.path.compare b.path ≠ .eq := by
    decide +kernel
  obtain ⟨hsame, _, hascending⟩ := report_forgets_order ⟨"."⟩ hdistinct
  exact ⟨hdistinct, (hsame _).mpr scatteredFiles.reverse_perm, hascending⟩

end ProjectReport
end CodeSurvey
