import Mathlib.Data.List.Basic
import CodeSurvey.Text.Lines

/-
The lines of a text.  A text that is empty or ends with a line feed is made of whole lines, so what
follows it starts a new one.
-/

namespace CodeSurvey
namespace Text

variable {c : Char} {text rest : List Char}

/-- A character that ends no line stands at the start of the next one. -/
theorem lines_cons_inside (hfeed : c ≠ '\n') (hreturn : c = '\r' → rest.head? ≠ some '\n') :
    lines (c :: rest) = (c :: (lines rest).headD []) :: (lines rest).tail := by
  have hpair : ∀ after, c = '\r' → rest = '\n' :: after → False := by
    rintro after hc rfl
    exact hreturn hc rfl
  cases hlines : lines rest with
  | nil => simp [lines, hlines]
  | cons line more => simp [lines, hlines]

theorem lines_eq_nil_iff : lines text = [] ↔ text = [] := by
  constructor
  · intro h
    fun_cases lines text with
    | case1 => rfl
    | case2 rest => simp [lines] at h
    | case3 rest => simp [lines] at h
    | case4 c rest hfeed hreturn hnone => simp_all [lines]
    | case5 c rest hfeed hreturn line more hlines => simp_all [lines]
  · rintro rfl
    rfl

/-- A text of whole lines: nothing stands after its last line feed. -/
def EndsLine (text : List Char) : Prop := text = [] ∨ text.getLast? = some '\n'

instance (text : List Char) : Decidable (EndsLine text) := inferInstanceAs (Decidable (_ ∨ _))

theorem endsLine_cons : EndsLine (c :: rest) ↔ EndsLine rest ∧ (rest = [] → c = '\n') := by
  cases rest with
  | nil => simp [EndsLine]
  | cons d rest => simp [EndsLine]

theorem lines_append {a : List Char} (ha : EndsLine a) (b : List Char) :
    lines (a ++ b) = lines a ++ lines b := by
  fun_induction lines a with
  | case1 => rfl
  | case2 rest ih =>
      rw [List.cons_append, lines, ih (endsLine_cons.mp ha).1, List.cons_append]
  | case3 rest ih =>
      have hrest := (endsLine_cons.mp (endsLine_cons.mp ha).1).1
      rw [List.cons_append, List.cons_append, lines, ih hrest, List.cons_append]
  | case4 c rest hfeed _ hnone =>
      exact absurd ((endsLine_cons.mp ha).2 (lines_eq_nil_iff.mp hnone)) hfeed
  | case5 c rest hfeed hreturn line more hlines ih =>
      have hnonempty : rest ≠ [] := by
        rintro rfl
        contradiction
      have hinside : c = '\r' → (rest ++ b).head? ≠ some '\n' := by
        intro hc hfirst
        obtain ⟨d, after, rfl⟩ := List.exists_cons_of_ne_nil hnonempty
        rw [List.cons_append, List.head?_cons, Option.some.injEq] at hfirst
        exact hreturn after hc (by rw [hfirst])
      rw [List.cons_append, lines_cons_inside hfeed hinside, ih (endsLine_cons.mp ha).1, hlines]
      rfl

/-- There is a line for each line feed, and one more if the text goes on after the last. -/
theorem length_lines (text : List Char) :
    (lines text).length = text.count '\n' + if EndsLine text then 0 else 1 := by
  fun_induction lines text with
  | case1 => simp [EndsLine]
  | case2 rest ih =>
      have hends : EndsLine ('\n' :: rest) ↔ EndsLine rest := by simp [endsLine_cons]
      rw [List.length_cons, ih, List.count_cons_self, if_congr hends rfl rfl]
      omega
  | case3 rest ih =>
      have hends : EndsLine ('\r' :: '\n' :: rest) ↔ EndsLine rest := by simp [endsLine_cons]
      rw [List.length_cons, ih, List.count_cons_of_ne (by decide), List.count_cons_self,
        if_congr hends rfl rfl]
      omega
  | case4 c rest hfeed _ hnone =>
      obtain rfl := lines_eq_nil_iff.mp hnone
      have hends : ¬ EndsLine [c] := fun h => hfeed ((endsLine_cons.mp h).2 rfl)
      rw [List.count_cons_of_ne (by simpa using hfeed), if_neg hends]
      rfl
  | case5 c rest hfeed _ line more hlines ih =>
      have hnonempty : rest ≠ [] := by
        rintro rfl
        contradiction
      have hends : EndsLine (c :: rest) ↔ EndsLine rest := by simp [endsLine_cons, hnonempty]
      rw [List.count_cons_of_ne (by simpa using hfeed), if_congr hends rfl rfl, ← ih, hlines]
      rfl

theorem mem_of_mem_lines {line : List Char} (hline : line ∈ lines text) (hc : c ∈ line) :
    c ∈ text := by
  fun_induction lines text generalizing line with
  | case1 => contradiction
  | case2 rest ih =>
      rcases List.mem_cons.mp hline with rfl | hmore
      · contradiction
      · exact List.mem_cons_of_mem _ (ih hmore hc)
  | case3 rest ih =>
      rcases List.mem_cons.mp hline with rfl | hmore
      · contradiction
      · exact List.mem_cons_of_mem _ (List.mem_cons_of_mem _ (ih hmore hc))
  | case4 d rest _ _ _ =>
      rw [List.mem_singleton] at hline
      rw [hline, List.mem_singleton] at hc
      exact hc ▸ List.mem_cons_self
  | case5 d rest _ _ first more hlines ih =>
      rw [hlines] at ih
      rcases List.mem_cons.mp hline with rfl | hmore
      · rcases List.mem_cons.mp hc with rfl | hc
        · exact List.mem_cons_self
        · exact List.mem_cons_of_mem d (ih List.mem_cons_self hc)
      · exact List.mem_cons_of_mem d (ih (List.mem_cons_of_mem first hmore) hc)

end Text
end CodeSurvey
