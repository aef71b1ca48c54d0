import CodeSurvey.Text.Blank
import CodeSurvey.Text.Letter

/-
Blank characters are no part of a word.  The tables of letters are long, so they are gone through
once, run by run, and not once for each blank character.
-/

namespace CodeSurvey
namespace Text

/-- The blank characters beyond the first 128, as stretches of code points. -/
def wideBlanks : List (Nat × Nat) :=
  [(0x85, 0x85), (0xA0, 0xA0), (0x1680, 0x1680), (0x2000, 0x200A), (0x2028, 0x2029),
    (0x202F, 0x202F), (0x205F, 0x205F), (0x3000, 0x3000)]

/-- No run of the table touches one of these stretches. -/
def MissesBlanks (runs : Array (Nat × Nat × Nat)) : Prop :=
  (runs.toList.all fun run => wideBlanks.all fun blank => Nat.blt run.2.1 blank.1 ||
    Nat.blt blank.2 run.1) = true

theorem missesBlanks_alphabetic : MissesBlanks ClassTable.alphabetic := by
  unfold MissesBlanks
  decide +kernel

theorem missesBlanks_wordOnly : MissesBlanks ClassTable.wordOnly := by
  unfold MissesBlanks
  decide +kernel

theorem MissesBlanks.onRuns_eq_false {runs : Array (Nat × Nat × Nat)}
    (h : MissesBlanks runs) {n : Nat} {blank : Nat × Nat} (hblank : blank ∈ wideBlanks)
    (hn : blank.1 ≤ n ∧ n ≤ blank.2) : onRuns runs n = false := by
  rw [onRuns, Array.any_eq_false']
  intro run hrun
  have hapart :=
    List.all_eq_true.mp (List.all_eq_true.mp h run (Array.mem_toList_iff.mpr hrun)) blank hblank
  rw [Bool.or_eq_true, Nat.blt_eq, Nat.blt_eq] at hapart
  obtain ⟨first, last, step⟩ := run
  simp only [Bool.and_eq_true, decide_eq_true_eq, beq_iff_eq] at hapart ⊢
  omega

theorem isBlank_cases {c : Char} (h : isBlank c = true) :
    c.toNat ∈ [9, 10, 11, 12, 13, 32] ∨
      0x80 ≤ c.toNat ∧ ∃ blank ∈ wideBlanks, blank.1 ≤ c.toNat ∧ c.toNat ≤ blank.2 := by
  simp only [isBlank, Bool.or_eq_true, Bool.and_eq_true, decide_eq_true_eq, beq_iff_eq] at h
  simp only [wideBlanks, List.mem_cons, List.not_mem_nil, or_false, exists_eq_or_imp,
    exists_eq_left]
  omega

theorem isWordChar_of_isBlank {c : Char} (h : isBlank c = true) : isWordChar c = false := by
  rcases isBlank_cases h with hnarrow | ⟨hwide, blank, hblank, hn⟩
  · have hall : ∀ n ∈ [9, 10, 11, 12, 13, 32], isWordChar (Char.ofNat n) = false := by
      decide +kernel
    have hc := hall c.toNat hnarrow
    rw [Char.ofNat_toNat] at hc
    exact hc
  · rw [isWordChar, if_neg (by omega), missesBlanks_alphabetic.onRuns_eq_false hblank hn,
      missesBlanks_wordOnly.onRuns_eq_false hblank hn]
    rfl

theorem isBlank_of_isWordChar {c : Char} (h : isWordChar c = true) : isBlank c = false := by
  rw [Bool.eq_false_iff]
  intro hblank
  rw [isWordChar_of_isBlank hblank] at h
  contradiction

end Text
end CodeSurvey
