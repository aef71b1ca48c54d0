import Mathlib.Data.List.Infix
import CodeSurvey.Text.Split

/-
Searching a text for a fixed part.  A search that fails says that the part is no infix, and one that
succeeds gives the first of its places (`breakOn_eq_some_iff`); what is said here of a text with
something before or after it follows the search character by character.  Trimming takes blanks away
on both sides, and no part without blanks is lost by it.
-/

namespace CodeSurvey
namespace Text

variable {part separator text before after : List Char}

/-! ## The first occurrence -/

theorem breakOn_eq_none_iff : breakOn part text = none ↔ ¬ part <:+: text := by
  induction text with
  | nil =>
      rw [breakOn]
      split
      · next hempty => simp [List.isEmpty_iff.mp hempty]
      · next hne => simpa [List.infix_nil] using hne
  | cons c rest ih =>
      rw [breakOn]
      split
      · next hstarts =>
          have hbegins := List.isPrefixOf_iff_prefix.mp hstarts
          simp [hbegins.isInfix]
      · next hstarts =>
          have hnot := mt List.isPrefixOf_iff_prefix.mpr hstarts
          rw [Option.map_eq_none_iff, ih, List.infix_cons_iff, not_or]
          exact (and_iff_right hnot).symm

theorem contains_iff : contains part text = true ↔ part <:+: text := by
  rw [contains, Option.isSome_iff_ne_none, ne_eq, breakOn_eq_none_iff, not_not]

theorem eq_of_breakOn (h : breakOn part text = some (before, after)) :
    text = before ++ part ++ after := by
  induction text generalizing before with
  | nil =>
      rw [breakOn] at h
      split at h
      · next hempty =>
          obtain ⟨rfl, rfl⟩ := Prod.mk.inj (Option.some.inj h)
          simp [List.isEmpty_iff.mp hempty]
      · contradiction
  | cons c rest ih =>
      rw [breakOn] at h
      split at h
      · next hstarts =>
          obtain ⟨rfl, rfl⟩ := Prod.mk.inj (Option.some.inj h)
          obtain ⟨tail, htail⟩ := List.isPrefixOf_iff_prefix.mp hstarts
          rw [← htail, List.drop_left, List.nil_append]
      · obtain ⟨⟨front, back⟩, hrest, heq⟩ := Option.map_eq_some_iff.mp h
        obtain ⟨rfl, rfl⟩ := Prod.mk.inj heq
        rw [ih hrest]
        rfl

/-- No occurrence begins earlier. -/
theorem length_le_of_breakOn (h : breakOn part text = some (before, after)) {front back : List Char}
    (hother : text = front ++ part ++ back) : before.length ≤ front.length := by
  induction text generalizing before front with
  | nil =>
      have hlength := congrArg List.length (eq_of_breakOn h)
      simp only [List.length_nil, List.length_append] at hlength
      omega
  | cons c rest ih =>
      rw [breakOn] at h
      split at h
      · obtain ⟨rfl, rfl⟩ := Prod.mk.inj (Option.some.inj h)
        exact Nat.zero_le front.length
      · next hstarts =>
          obtain ⟨⟨found, left⟩, hrest, heq⟩ := Option.map_eq_some_iff.mp h
          obtain ⟨rfl, rfl⟩ := Prod.mk.inj heq
          cases front with
          | nil =>
              have hnot := mt List.isPrefixOf_iff_prefix.mpr hstarts
              exact absurd ⟨back, by rw [hother, List.nil_append]⟩ hnot
          | cons d front =>
              have htail : rest = front ++ part ++ back := (List.cons.inj hother).2
              have hle := ih hrest htail
              simp only [List.length_cons]
              omega

theorem breakOn_eq_some_iff : breakOn part text = some (before, after) ↔
    text = before ++ part ++ after ∧ ∀ front back, text = front ++ part ++ back →
    before.length ≤ front.length := by
  constructor
  · intro h
    exact ⟨eq_of_breakOn h, fun front back hother => length_le_of_breakOn h hother⟩
  · rintro ⟨htext, hfirst⟩
    cases hfound : breakOn part text with
    | none => exact absurd ⟨before, after, htext.symm⟩ (breakOn_eq_none_iff.mp hfound)
    | some found =>
        obtain ⟨front, back⟩ := found
        have hsame := eq_of_breakOn hfound
        have hlength : before.length = front.length :=
          Nat.le_antisymm (hfirst front back hsame) (length_le_of_breakOn hfound htext)
        rw [htext, List.append_assoc, List.append_assoc] at hsame
        obtain ⟨rfl, htail⟩ := List.append_inj hsame hlength
        rw [List.append_cancel_left htail]

/-- A character is found before a place if it stands there somewhere. -/
theorem find_lt_iff (c : Char) (before rest : List Char) :
    (∃ position, find [c] (before ++ rest) = some position ∧ position < before.length) ↔
      c ∈ before := by
  constructor
  · rintro ⟨position, hfind, hlt⟩
    obtain ⟨⟨start, after⟩, hfound, hposition⟩ := Option.map_eq_some_iff.mp hfind
    have hlength : start.length = position := hposition
    have hchar : (before ++ rest)[position]? = some c := by
      rw [eq_of_breakOn hfound, List.append_assoc, ← hlength]
      simp
    rw [List.getElem?_append_left hlt] at hchar
    exact List.mem_of_getElem? hchar
  · intro hmem
    obtain ⟨front, back, rfl⟩ := List.append_of_mem hmem
    have hoccurs : front ++ c :: back ++ rest = front ++ [c] ++ (back ++ rest) := by simp
    cases hfound : breakOn [c] (front ++ c :: back ++ rest) with
    | none => exact absurd ⟨front, back ++ rest, hoccurs.symm⟩ (breakOn_eq_none_iff.mp hfound)
    | some found =>
        have hfirst : found.1.length ≤ front.length := length_le_of_breakOn hfound hoccurs
        refine ⟨found.1.length, by rw [find, hfound]; rfl, ?_⟩
        rw [List.length_append, List.length_cons]
        omega

/-! ## Something before or after the text -/

/-- A search passes over characters with which nothing that is looked for begins. -/
theorem breakOn_append {first : Char} {start : List Char}
    (hseparator : separator.head? = some first) (hstart : first ∉ start) (text : List Char) :
    breakOn separator (start ++ text) =
      (breakOn separator text).map fun (before, after) => (start ++ before, after) := by
  obtain ⟨more, rfl⟩ : ∃ more, separator = first :: more := by
    cases separator with
    | nil => contradiction
    | cons d more =>
        rw [List.head?_cons, Option.some.injEq] at hseparator
        exact ⟨more, by rw [hseparator]⟩
  induction start with
  | nil => simp
  | cons d start ih =>
      rw [List.mem_cons, not_or] at hstart
      rw [List.cons_append, breakOn, ih hstart.2]
      have hne : (first == d) = false := beq_eq_false_iff_ne.mpr hstart.1
      cases breakOn (first :: more) text <;> simp [List.isPrefixOf, hne]

theorem find_append {first : Char} {start : List Char} (hpart : part.head? = some first)
    (hstart : first ∉ start) (text : List Char) :
    find part (start ++ text) = (find part text).map (· + start.length) := by
  rw [find, find, breakOn_append hpart hstart]
  cases breakOn part text <;> simp [Nat.add_comm]

/-- A search does not see what comes after the text if no character that is
looked for stands there. -/
theorem breakOn_append_right {rest : List Char} (hne : part ≠ []) (hrest : ∀ c ∈ part, c ∉ rest)
    (text : List Char) :
    breakOn part (text ++ rest) = (breakOn part text).map fun found =>
      (found.1, found.2 ++ rest) := by
  have hstarts : ∀ text, part <+: text ++ rest → part <+: text := by
    intro text hpart
    rcases List.prefix_or_prefix_of_prefix hpart
      (List.prefix_append text rest) with hshorter | hlonger
    · exact hshorter
    · obtain ⟨excess, rfl⟩ := hlonger
      have hexcess : excess <+: rest := (List.prefix_append_right_inj text).mp hpart
      cases excess with
      | nil => simp
      | cons c excess => exact absurd (hexcess.subset List.mem_cons_self) (hrest c (by simp))
  induction text with
  | nil =>
      have hnone : breakOn part rest = none := by
        rw [breakOn_eq_none_iff]
        intro hfound
        obtain ⟨c, more, rfl⟩ := List.exists_cons_of_ne_nil hne
        exact hrest c List.mem_cons_self (hfound.subset List.mem_cons_self)
      rw [List.nil_append, hnone, breakOn, if_neg (mt List.isEmpty_iff.mp hne)]
      rfl
  | cons c text ih =>
      rw [List.cons_append, breakOn, breakOn]
      by_cases hhere : part <+: c :: text
      · have hlonger : part <+: c :: (text ++ rest) :=
          hhere.trans (List.prefix_append (c :: text) rest)
        have hbegins := List.isPrefixOf_iff_prefix.mpr hhere
        have hbegins' := List.isPrefixOf_iff_prefix.mpr hlonger
        rw [if_pos hbegins, if_pos hbegins', ← List.cons_append,
          List.drop_append_of_le_length hhere.length_le]
        rfl
      · have hnot : ¬ part <+: c :: (text ++ rest) :=
          fun hlonger => hhere (hstarts (c :: text) hlonger)
        rw [if_neg (mt List.isPrefixOf_iff_prefix.mp hhere),
          if_neg (mt List.isPrefixOf_iff_prefix.mp hnot), ih]
        cases breakOn part text <;> rfl

/-! ## Trimming -/

theorem exists_eq_dropEndWhile (p : Char → Bool) (text : List Char) :
    ∃ dropped, text = dropEndWhile p text ++ dropped ∧ ∀ c ∈ dropped, p c = true := by
  refine ⟨(text.reverse.takeWhile p).reverse, ?_, ?_⟩
  · rw [dropEndWhile, ← List.reverse_append, List.takeWhile_append_dropWhile, List.reverse_reverse]
  · intro c hc
    exact List.all_eq_true.mp List.all_takeWhile c (List.mem_reverse.mp hc)

/-- Trimming takes blanks from both ends and nothing else. -/
theorem exists_eq_trim (line : List Char) :
    ∃ leading trailing, line = leading ++ trim line ++ trailing ∧
      (∀ c ∈ leading, isBlank c = true) ∧ ∀ c ∈ trailing, isBlank c = true := by
  obtain ⟨trailing, hend, htrailing⟩ := exists_eq_dropEndWhile isBlank (trimStart line)
  refine ⟨line.takeWhile isBlank, trailing, ?_, ?_, htrailing⟩
  · rw [trim, trimEnd, List.append_assoc, ← hend, trimStart, List.takeWhile_append_dropWhile]
  · exact List.all_eq_true.mp List.all_takeWhile

theorem not_mem_of_blanks {c : Char} {blanks : List Char} (hc : isBlank c = false)
    (hblanks : ∀ d ∈ blanks, isBlank d = true) : c ∉ blanks := by
  intro hmem
  rw [hblanks c hmem] at hc
  contradiction

/-- A part without blanks is found in a line where it is found in the trimmed line. -/
theorem exists_breakOn_trim (line : List Char) :
    ∃ leading trailing, (∀ c ∈ leading, isBlank c = true) ∧ (∀ c ∈ trailing, isBlank c = true) ∧
      ∀ part, part ≠ [] → (∀ c ∈ part, isBlank c = false) →
        breakOn part line =
          (breakOn part (trim line)).map fun found =>
            (leading ++ found.1, found.2 ++ trailing) := by
  obtain ⟨leading, trailing, hline, hleading, htrailing⟩ := exists_eq_trim line
  refine ⟨leading, trailing, hleading, htrailing, ?_⟩
  intro part hne hpart
  obtain ⟨first, more, rfl⟩ := List.exists_cons_of_ne_nil hne
  have hfirst : first ∉ leading := not_mem_of_blanks (hpart first List.mem_cons_self) hleading
  have hall : ∀ c ∈ first :: more, c ∉ trailing :=
    fun c hc => not_mem_of_blanks (hpart c hc) htrailing
  have hsearch : breakOn (first :: more) (leading ++ trim line ++ trailing) =
      (breakOn (first :: more) (trim line)).map fun found =>
        (leading ++ found.1, found.2 ++ trailing) := by
    rw [List.append_assoc, breakOn_append rfl hfirst, breakOn_append_right hne hall]
    cases breakOn (first :: more) (trim line) <;> rfl
  rwa [← hline] at hsearch

end Text
end CodeSurvey
