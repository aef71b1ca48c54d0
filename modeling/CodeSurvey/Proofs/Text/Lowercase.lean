import Mathlib.Data.List.Basic
import CodeSurvey.Proofs.Text.Letter
import CodeSurvey.Proofs.Text.Utf8
import CodeSurvey.Text.Lowercase

/-
Lower-case forms are settled: none of their characters has another lower-case form, so lowering a
second time changes nothing (`lower_lower`).  They hold no mark (a blank, a dot or a slash) that the
text did not have at the same end.  The table of forms is gone through once, run against run.
-/

namespace CodeSurvey
namespace Text

/-- A run `(first, last, step, shift)` of the table of lower-case forms. -/
abbrev CaseRun := Nat × Nat × Nat × Int

namespace CaseRun

def Holds (run : CaseRun) (n : Nat) : Prop := run.1 ≤ n ∧ n ≤ run.2.1 ∧ (n - run.1) % run.2.2.1 = 0

instance (run : CaseRun) (n : Nat) : Decidable (run.Holds n) := inferInstanceAs (Decidable (_ ∧ _))

def image (run : CaseRun) (n : Nat) : Nat := ((n : Int) + run.2.2.2).toNat

/-- The images of a run lie outside the stretch from `low` to `high`. -/
def avoids (run : CaseRun) (low high : Nat) : Bool :=
  Nat.blt (run.image run.2.1) low || Nat.blt high (run.image run.1)

/-- The images of a run are not on the other run: they lie before or after it, or always
between two of its steps. -/
def misses (run other : CaseRun) : Bool :=
  run.avoids other.1 other.2.1 ||
    ((run.1 == run.2.1 || run.2.2.1 % other.2.2.1 == 0) &&
      (Nat.ble other.1 (run.image run.1) && (run.image run.1 - other.1) % other.2.2.1 != 0))

/-- The images of a run are characters beyond the first 96, not blank, and not on any run. -/
def leadsOut (run : CaseRun) : Bool :=
  Nat.ble 0x61 (run.image run.1) && Nat.blt (run.image run.2.1) 0x110000 &&
    run.avoids 0xD800 0xDFFF &&
    run.avoids 0x130 0x130 && wideBlanks.all (fun blank => run.avoids blank.1 blank.2) &&
    CaseTable.lower.toList.all run.misses

variable {run other : CaseRun} {n : Nat}

theorem image_add (hlow : 0 < run.image run.1) (hn : run.1 ≤ n) :
    run.image n = run.image run.1 + (n - run.1) := by
  unfold image at hlow ⊢
  omega

theorem image_bounds (hlow : 0 < run.image run.1) (hn : run.Holds n) :
    run.image run.1 ≤ run.image n ∧ run.image n ≤ run.image run.2.1 := by
  obtain ⟨hfirst, hlast, -⟩ := hn
  rw [image_add hlow hfirst, image_add hlow (Nat.le_trans hfirst hlast)]
  omega

theorem lt_or_lt_of_avoids {low high : Nat} (hlow : 0 < run.image run.1) (hn : run.Holds n)
    (havoids : run.avoids low high = true) : run.image n < low ∨ high < run.image n := by
  have hbounds := image_bounds hlow hn
  rw [avoids, Bool.or_eq_true, Nat.blt_eq, Nat.blt_eq] at havoids
  omega

theorem not_holds_of_misses (hlow : 0 < run.image run.1) (hn : run.Holds n)
    (hmisses : run.misses other = true) : ¬ other.Holds (run.image n) := by
  rintro ⟨hfirst, hlast, hstep⟩
  rw [misses, Bool.or_eq_true] at hmisses
  rcases hmisses with havoids | hbetween
  · have hout := lt_or_lt_of_avoids hlow hn havoids
    omega
  · simp only [Bool.and_eq_true, Bool.or_eq_true, beq_iff_eq, Nat.ble_eq, bne_iff_ne] at hbetween
    obtain ⟨hsteps, hbefore, hoff⟩ := hbetween
    -- all images are off the other run's steps by what the first of them is off
    have hsum : run.image n - other.1 = (n - run.1) + (run.image run.1 - other.1) := by
      rw [image_add hlow hn.1]
      omega
    have hdvd : other.2.2.1 ∣ n - run.1 := by
      rcases hsteps with hsingle | hsteps
      · have hzero : n - run.1 = 0 := by
          have := hn.2.1
          omega
        exact hzero ▸ Nat.dvd_zero _
      · exact Nat.dvd_trans (Nat.dvd_of_mod_eq_zero hsteps) (Nat.dvd_of_mod_eq_zero hn.2.2)
    rw [hsum] at hstep
    exact hoff (Nat.mod_eq_zero_of_dvd ((Nat.dvd_add_right hdvd).mp (Nat.dvd_of_mod_eq_zero hstep)))

end CaseRun

theorem leadsOut_of_mem {run : CaseRun} (h : run ∈ CaseTable.lower) : run.leadsOut = true := by
  have hall : CaseTable.lower.toList.all CaseRun.leadsOut = true := by decide +kernel
  exact List.all_eq_true.mp hall run (Array.mem_toList_iff.mpr h)

/-- Beyond the capital letters at its start, the table has no character of the first 128. -/
theorem capitals_or_wide {run : CaseRun} (h : run ∈ CaseTable.lower) :
    run = (0x41, 0x5A, 1, 32) ∨ 0x80 ≤ run.1 := by
  have hall : ∀ run ∈ CaseTable.lower.toList, run = (0x41, 0x5A, 1, 32) ∨ 0x80 ≤ run.1 := by
    decide +kernel
  exact hall run (Array.mem_toList_iff.mpr h)

/-! ## Forms of one character -/

/-- The character is its own lower-case form. -/
def IsSettled (c : Char) : Prop :=
  c.toNat ≠ 0x130 ∧ ∀ run ∈ CaseTable.lower, ¬ CaseRun.Holds run c.toNat

/-- A character that texts are cut at or trimmed of. -/
def isMark (c : Char) : Bool := isBlank c || c == '.' || c == '/'

/-- What is asked of the lower-case form of a character: a mark comes from nothing but itself. -/
structure IsForm (c : Char) (form : List Char) : Prop where
  ne_nil : form ≠ []
  settled : ∀ d ∈ form, IsSettled d
  eq_of_isMark : ∀ d ∈ form, isMark d = true → d = c

theorem isSettled_of_forms {n : Nat} (h : n ∈ [0x69, 0x307, 0x3C2, 0x3C3]) :
    IsSettled (Char.ofNat n) := by
  have hforms : ∀ n ∈ [0x69, 0x307, 0x3C2, 0x3C3], (Char.ofNat n).toNat ≠ 0x130 ∧
      ∀ run ∈ CaseTable.lower.toList, ¬ CaseRun.Holds run (Char.ofNat n).toNat := by decide +kernel
  obtain ⟨hdotted, hruns⟩ := hforms n h
  exact ⟨hdotted, fun run hrun => hruns run (Array.mem_toList_iff.mpr hrun)⟩

theorem isMark_eq_false {c : Char} (hlow : 0x61 ≤ c.toNat)
    (hblanks : ∀ blank ∈ wideBlanks, c.toNat < blank.1 ∨ blank.2 < c.toNat) : isMark c = false := by
  have hblank : isBlank c = false := by
    rw [Bool.eq_false_iff]
    intro hblank
    rcases isBlank_cases hblank with hnarrow | ⟨-, blank, hmem, hn⟩
    · simp only [List.mem_cons, List.not_mem_nil, or_false] at hnarrow
      omega
    · have hout := hblanks blank hmem
      omega
  have hne : ∀ d : Char, d.toNat < 0x61 → (c == d) = false := by
    intro d hd
    rw [beq_eq_false_iff_ne]
    rintro rfl
    omega
  rw [isMark, hblank, hne '.' (by decide), hne '/' (by decide)]
  rfl

theorem IsForm.of_not_isMark {c d : Char} (hsettled : IsSettled d) (hmark : isMark d = false) :
    IsForm c [d] where
  ne_nil := List.cons_ne_nil d []
  settled e he := List.mem_singleton.mp he ▸ hsettled
  eq_of_isMark e he hmark' := by
    rw [List.mem_singleton.mp he, hmark] at hmark'
    contradiction

theorem isForm_image {run : CaseRun} {c : Char} (hrun : run ∈ CaseTable.lower)
    (hc : run.Holds c.toNat) : IsForm c [Char.ofNat (run.image c.toNat)] := by
  have hout := leadsOut_of_mem hrun
  simp only [CaseRun.leadsOut, Bool.and_eq_true, Nat.ble_eq, Nat.blt_eq, List.all_eq_true] at hout
  obtain ⟨⟨⟨⟨⟨hletters, hbound⟩, hsurrogates⟩, hdotted⟩, hblanks⟩, hruns⟩ := hout
  have hlow : 0 < run.image run.1 := by omega
  have hbounds := CaseRun.image_bounds hlow hc
  have hapart := CaseRun.lt_or_lt_of_avoids hlow hc hsurrogates
  have hvalid : (run.image c.toNat).isValidChar := by
    unfold Nat.isValidChar
    omega
  have htoNat : (Char.ofNat (run.image c.toNat)).toNat = run.image c.toNat := Utf8.toNat_char hvalid
  refine IsForm.of_not_isMark ⟨?_, ?_⟩ (isMark_eq_false ?_ ?_)
  · have hne := CaseRun.lt_or_lt_of_avoids hlow hc hdotted
    omega
  · intro other hother
    rw [htoNat]
    exact CaseRun.not_holds_of_misses hlow hc (hruns other (Array.mem_toList_iff.mpr hother))
  · omega
  · intro blank hblank
    rw [htoNat]
    exact CaseRun.lt_or_lt_of_avoids hlow hc (hblanks blank hblank)

theorem lowerChar_of_wide {c : Char} (hwide : 0x80 ≤ c.toNat) (hdotted : c.toNat ≠ 0x130) :
    lowerChar c = (CaseTable.lower.find? fun run => decide (CaseRun.Holds run c.toNat)).elim [c]
      fun run => [Char.ofNat (CaseRun.image run c.toNat)] := by
  have hholds : (fun run : CaseRun => decide (run.Holds c.toNat)) = fun run : CaseRun =>
      run.1 ≤ c.toNat && c.toNat ≤ run.2.1 && (c.toNat - run.1) % run.2.2.1 == 0 := by
    funext run
    rw [Bool.eq_iff_iff, decide_eq_true_iff]
    simp only [CaseRun.Holds, Bool.and_eq_true, decide_eq_true_eq, beq_iff_eq, and_assoc]
  unfold lowerChar
  rw [if_neg (by omega), if_neg (mt beq_iff_eq.mp hdotted), hholds]
  cases CaseTable.lower.find? fun run : CaseRun =>
    run.1 ≤ c.toNat && c.toNat ≤ run.2.1 && (c.toNat - run.1) % run.2.2.1 == 0
  all_goals rfl

theorem lowerChar_of_narrow {c : Char} (hnarrow : c.toNat < 0x80) :
    lowerChar c = if 0x41 ≤ c.toNat ∧ c.toNat ≤ 0x5A then [Char.ofNat (c.toNat + 32)] else [c] := by
  unfold lowerChar
  rw [if_pos hnarrow]
  simp only [Bool.and_eq_true, decide_eq_true_eq, Char.le_def, UInt32.le_iff_toNat_le]
  rfl

/-- A character is settled, or the one with a form of two characters, or on a run. -/
theorem lowerChar_cases (c : Char) :
    (IsSettled c ∧ lowerChar c = [c]) ∨
      (c.toNat = 0x130 ∧ lowerChar c = [Char.ofNat 0x69, Char.ofNat 0x307]) ∨
      ∃ run ∈ CaseTable.lower, CaseRun.Holds run c.toNat ∧
        lowerChar c = [Char.ofNat (CaseRun.image run c.toNat)] := by
  by_cases hnarrow : c.toNat < 0x80
  · rw [lowerChar_of_narrow hnarrow]
    by_cases hcapital : 0x41 ≤ c.toNat ∧ c.toNat ≤ 0x5A
    · rw [if_pos hcapital]
      exact .inr (.inr ⟨(0x41, 0x5A, 1, 32), by decide +kernel,
        ⟨hcapital.1, hcapital.2, Nat.mod_one _⟩, rfl⟩)
    · refine .inl ⟨⟨by omega, ?_⟩, if_neg hcapital⟩
      rintro run hrun ⟨hfirst, hlast, -⟩
      rcases capitals_or_wide hrun with rfl | hwide
      · exact hcapital ⟨hfirst, hlast⟩
      · omega
  · by_cases hdotted : c.toNat = 0x130
    · refine .inr (.inl ⟨hdotted, ?_⟩)
      rw [lowerChar, if_neg hnarrow, if_pos (beq_iff_eq.mpr hdotted)]
    · rw [lowerChar_of_wide (Nat.le_of_not_lt hnarrow) hdotted]
      cases hfind : CaseTable.lower.find? fun run => decide (CaseRun.Holds run c.toNat) with
      | none =>
          refine .inl ⟨⟨hdotted, ?_⟩, rfl⟩
          intro run hrun hholds
          exact Array.find?_eq_none.mp hfind run hrun (decide_eq_true hholds)
      | some run =>
          have hholds := Array.find?_some hfind
          exact .inr (.inr ⟨run, Array.mem_of_find?_eq_some hfind, of_decide_eq_true hholds, rfl⟩)

theorem lowerChar_of_isSettled {c : Char} (h : IsSettled c) : lowerChar c = [c] := by
  rcases lowerChar_cases c with ⟨-, hself⟩ | ⟨hdotted, -⟩ | ⟨run, hrun, hholds, -⟩
  · exact hself
  · exact absurd hdotted h.1
  · exact absurd hholds (h.2 run hrun)

theorem isForm_lowerChar (c : Char) : IsForm c (lowerChar c) := by
  rcases lowerChar_cases c with ⟨hsettled, hself⟩ | ⟨-, htwo⟩ | ⟨run, hrun, hholds, himage⟩
  · rw [hself]
    exact ⟨List.cons_ne_nil c [], fun d hd => List.mem_singleton.mp hd ▸ hsettled,
      fun d hd _ => List.mem_singleton.mp hd⟩
  · rw [htwo]
    refine ⟨by simp, ?_, ?_⟩
    · intro d hd
      rcases List.mem_pair.mp hd with rfl | rfl
      · exact isSettled_of_forms (by decide)
      · exact isSettled_of_forms (by decide)
    · intro d hd hmark
      rcases List.mem_pair.mp hd with rfl | rfl
      · exact absurd hmark (by decide)
      · exact absurd hmark (by decide)
  · rw [himage]
    exact isForm_image hrun hholds

/-! ## Forms of a text -/

/-- The form of a character in its place. -/
theorem exists_isForm (before : List Char) (c : Char) (rest : List Char) :
    ∃ form, IsForm c form ∧
    lowerFrom before (c :: rest) = form ++ lowerFrom (c :: before) rest := by
  refine ⟨_, ?_, rfl⟩
  split
  · split
    · exact IsForm.of_not_isMark (isSettled_of_forms (by decide)) (by decide)
    · exact IsForm.of_not_isMark (isSettled_of_forms (by decide)) (by decide)
  · exact isForm_lowerChar c

theorem lowerFrom_of_isSettled {text : List Char} (h : ∀ c ∈ text, IsSettled c)
    (before : List Char) : lowerFrom before text = text := by
  induction text generalizing before with
  | nil => rfl
  | cons c rest ih =>
      obtain ⟨hc, hrest⟩ := List.forall_mem_cons.mp h
      -- the capital sigma is on a run of the table, so the rule for it does not apply
      have hsigma : c.toNat ≠ 0x3A3 := by
        intro hsigma
        exact hc.2 (0x3A3, 0x3AB, 1, 32) (by decide +kernel) (by rw [hsigma]; decide)
      rw [lowerFrom, ih hrest, if_neg (mt beq_iff_eq.mp hsigma), lowerChar_of_isSettled hc]
      rfl

theorem isSettled_of_mem_lowerFrom {before text : List Char} {d : Char}
    (h : d ∈ lowerFrom before text) : IsSettled d := by
  induction text generalizing before with
  | nil => exact absurd h List.not_mem_nil
  | cons c rest ih =>
      obtain ⟨form, hform, heq⟩ := exists_isForm before c rest
      rw [heq] at h
      exact (List.mem_append.mp h).elim (hform.settled d) ih

/-- Lowering a second time changes nothing. -/
theorem lower_lower (text : List Char) : lower (lower text) = lower text :=
  lowerFrom_of_isSettled (fun _ hd => isSettled_of_mem_lowerFrom hd) []

theorem lowerFrom_eq_nil_iff {before text : List Char} :
    lowerFrom before text = [] ↔ text = [] := by
  cases text with
  | nil => exact iff_of_true rfl rfl
  | cons c rest =>
      obtain ⟨form, hform, heq⟩ := exists_isForm before c rest
      rw [heq, List.append_eq_nil_iff]
      exact iff_of_false (fun h => hform.ne_nil h.1) (List.cons_ne_nil c rest)

theorem mem_of_mem_lowerFrom {before text : List Char} {d : Char} (hmark : isMark d = true)
    (h : d ∈ lowerFrom before text) : d ∈ text := by
  induction text generalizing before with
  | nil => exact absurd h List.not_mem_nil
  | cons c rest ih =>
      obtain ⟨form, hform, heq⟩ := exists_isForm before c rest
      rw [heq] at h
      rcases List.mem_append.mp h with hd | hd
      · exact hform.eq_of_isMark d hd hmark ▸ List.mem_cons_self
      · exact List.mem_cons_of_mem c (ih hd)

theorem head?_of_head?_lowerFrom {before text : List Char} {d : Char} (hmark : isMark d = true)
    (h : (lowerFrom before text).head? = some d) : text.head? = some d := by
  cases text with
  | nil => exact h
  | cons c rest =>
      obtain ⟨form, hform, heq⟩ := exists_isForm before c rest
      rw [heq, List.head?_append_of_ne_nil _ hform.ne_nil] at h
      rw [hform.eq_of_isMark d (List.mem_of_head? h) hmark]
      rfl

theorem getLast?_of_getLast?_lowerFrom {before text : List Char} {d : Char}
    (hmark : isMark d = true) (h : (lowerFrom before text).getLast? = some d) :
    text.getLast? = some d := by
  induction text generalizing before with
  | nil => exact h
  | cons c rest ih =>
      obtain ⟨form, hform, heq⟩ := exists_isForm before c rest
      rw [heq] at h
      by_cases hrest : rest = []
      · subst hrest
        rw [lowerFrom, List.append_nil] at h
        rw [hform.eq_of_isMark d (List.mem_of_getLast? h) hmark]
        rfl
      · rw [List.getLast?_append_of_ne_nil _ (mt lowerFrom_eq_nil_iff.mp hrest)] at h
        rw [List.getLast?_cons_of_ne_nil hrest]
        exact ih h

theorem all_not_isBlank {before after : Option Char}
    (hmarks : ∀ d, isMark d = true → after = some d → before = some d)
    (h : before.all (! isBlank ·) = true) : after.all (! isBlank ·) = true := by
  cases after with
  | none => rfl
  | some d =>
      rw [Option.all_some]
      cases hblank : isBlank d with
      | false => rfl
      | true =>
          have hmark : isMark d = true := by
            rw [isMark, hblank]
            rfl
          rw [hmarks d hmark rfl, Option.all_some, hblank] at h
          contradiction

theorem head?_lower_all {text : List Char} (h : text.head?.all (! isBlank ·) = true) :
    (lower text).head?.all (! isBlank ·) = true :=
  all_not_isBlank (fun _ hmark => head?_of_head?_lowerFrom hmark) h

theorem getLast?_lower_all {text : List Char} (h : text.getLast?.all (! isBlank ·) = true) :
    (lower text).getLast?.all (! isBlank ·) = true :=
  all_not_isBlank (fun _ hmark => getLast?_of_getLast?_lowerFrom hmark) h

end Text
end CodeSurvey
