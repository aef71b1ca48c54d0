import CodeSurvey.Proofs.Text.Search

/-
Cutting a text at characters, or at a separator of several, and joining the pieces.  Joining undoes
cutting, and cutting undoes joining as far as the parts hold no separator of their own.
-/

namespace CodeSurvey
namespace Text

variable {p : Char → Bool}

theorem takeWhile_append_of_head {before after : List Char} (hbefore : ∀ c ∈ before, p c = true)
    (hafter : after.head?.all (! p ·) = true) : (before ++ after).takeWhile p = before := by
  rw [List.takeWhile_append_of_pos hbefore]
  cases after with
  | nil => rw [List.takeWhile_nil, List.append_nil]
  | cons c after => rw [List.takeWhile_cons_of_neg (by simpa using hafter), List.append_nil]

theorem dropWhile_append_of_head {before after : List Char} (hbefore : ∀ c ∈ before, p c = true)
    (hafter : after.head?.all (! p ·) = true) : (before ++ after).dropWhile p = after := by
  rw [List.dropWhile_append_of_pos hbefore]
  cases after with
  | nil => rfl
  | cons c after => exact List.dropWhile_cons_of_neg (by simpa using hafter)

theorem dropEndWhile_append {kept dropped : List Char} (hkept : kept.getLast?.all (! p ·) = true)
    (hdropped : ∀ c ∈ dropped, p c = true) : dropEndWhile p (kept ++ dropped) = kept := by
  have hhead : kept.reverse.head?.all (! p ·) = true := by rwa [List.head?_reverse]
  rw [dropEndWhile, List.reverse_append,
    dropWhile_append_of_head (fun c hc => hdropped c (List.mem_reverse.mp hc)) hhead,
    List.reverse_reverse]

theorem head?_dropWhile_all (p : Char → Bool) (text : List Char) :
    (text.dropWhile p).head?.all (! p ·) = true := by
  have hhead := List.head?_dropWhile_not p text
  cases hfirst : (text.dropWhile p).head? with
  | none => rfl
  | some c =>
      rw [hfirst] at hhead
      simpa using hhead

theorem getLast?_trim (text : List Char) : (trim text).getLast?.all (! isBlank ·) = true := by
  rw [trim, trimEnd, dropEndWhile, List.getLast?_reverse]
  exact head?_dropWhile_all isBlank _

theorem head?_trim (text : List Char) : (trim text).head?.all (! isBlank ·) = true := by
  obtain ⟨dropped, hdropped, -⟩ := exists_eq_dropEndWhile isBlank (trimStart text)
  have hstart := head?_dropWhile_all isBlank text
  by_cases hempty : trim text = []
  · rw [hempty]
    rfl
  · rw [← trimStart, hdropped] at hstart
    rwa [← trimEnd, ← trim, List.head?_append_of_ne_nil _ hempty] at hstart

/-- A text that neither starts nor ends with a blank is left as it is. -/
theorem trim_eq_self {text : List Char} (hfirst : text.head?.all (! isBlank ·) = true)
    (hlast : text.getLast?.all (! isBlank ·) = true) : trim text = text := by
  have hstart : trimStart ([] ++ text) = text := dropWhile_append_of_head (by simp) hfirst
  have hend : dropEndWhile isBlank (text ++ []) = text := dropEndWhile_append hlast (by simp)
  rw [List.nil_append] at hstart
  rw [List.append_nil] at hend
  rw [trim, hstart, trimEnd, hend]

theorem splitWhere_append {c : Char} (hc : p c = true) (before after : List Char) :
    splitWhere p (before ++ c :: after) = splitWhere p before ++ splitWhere p after := by
  induction before with
  | nil => simp [splitWhere, hc]
  | cons d before ih =>
      by_cases hd : p d = true
      · simp [splitWhere, hd, ih]
      · obtain ⟨piece, pieces, hpieces⟩ :=
          List.exists_cons_of_ne_nil (splitWhere_ne_nil (p := p) before)
        simp [splitWhere, hd, ih, hpieces]

theorem splitWhere_eq_singleton {text : List Char} (h : ∀ c ∈ text, p c = false) :
    splitWhere p text = [text] := by
  induction text with
  | nil => rfl
  | cons c rest ih =>
      have hrest := ih fun d hd => h d (List.mem_cons_of_mem c hd)
      simp [splitWhere, h c List.mem_cons_self, hrest]

theorem splitWhere_append_left {before after first : List Char} {others : List (List Char)}
    (hbefore : ∀ c ∈ before, p c = false) (hafter : splitWhere p after = first :: others) :
    splitWhere p (before ++ after) = (before ++ first) :: others := by
  induction before with
  | nil => exact hafter
  | cons c before ih =>
      obtain ⟨hc, hrest⟩ := List.forall_mem_cons.mp hbefore
      simp [splitWhere, hc, ih hrest]

theorem head?_splitWhere (text : List Char) : (splitWhere p text).head? = some (upTo p text) := by
  induction text with
  | nil => rfl
  | cons c rest ih =>
      by_cases hc : p c = true
      · simp [splitWhere, upTo, hc]
      · obtain ⟨piece, pieces, hpieces⟩ :=
          List.exists_cons_of_ne_nil (splitWhere_ne_nil (p := p) rest)
        rw [hpieces, List.head?_cons, Option.some.injEq] at ih
        simp [splitWhere, upTo, hc, hpieces, ih]

/-- The first word comes right after the blanks at the start; there is none in a text of blanks. -/
theorem head?_words (text : List Char) :
    (words text).head? = if trimStart text = [] then none
      else some (upTo isBlank (trimStart text)) := by
  induction text with
  | nil => rfl
  | cons c rest ih =>
      by_cases hc : isBlank c = true
      · have hwords : words (c :: rest) = words rest := by simp [words, splitWhere, hc]
        have htrim : trimStart (c :: rest) = trimStart rest := List.dropWhile_cons_of_pos hc
        rw [hwords, htrim, ih]
      · have htrim : trimStart (c :: rest) = c :: rest := List.dropWhile_cons_of_neg hc
        have hfirst := head?_splitWhere (p := isBlank) (c :: rest)
        obtain ⟨piece, pieces, hpieces⟩ :=
          List.exists_cons_of_ne_nil (splitWhere_ne_nil (p := isBlank) (c :: rest))
        rw [hpieces, List.head?_cons, Option.some.injEq] at hfirst
        have hne : piece ≠ [] := by
          rw [hfirst]
          simp [upTo, hc]
        rw [htrim, if_neg (List.cons_ne_nil c rest), ← hfirst, words, hpieces]
        simp [hne]

theorem eq_nil_of_splitWhere {text : List Char} (h : splitWhere p text = [[]]) : text = [] := by
  cases text with
  | nil => rfl
  | cons c rest =>
      rw [splitWhere] at h
      split at h
      · simp [splitWhere_ne_nil] at h
      · split at h <;> simp at h

theorem not_of_mem_splitWhere {text piece : List Char} (h : piece ∈ splitWhere p text) :
    ∀ c ∈ piece, p c = false := by
  induction text generalizing piece with
  | nil =>
      rw [splitWhere, List.mem_singleton] at h
      simp [h]
  | cons c rest ih =>
      rw [splitWhere] at h
      split at h
      · rcases List.mem_cons.mp h with rfl | h
        · simp
        · exact ih h
      · next hc =>
          obtain ⟨first, more, hpieces⟩ :=
            List.exists_cons_of_ne_nil (splitWhere_ne_nil (p := p) rest)
          rw [hpieces] at h ih
          rcases List.mem_cons.mp h with rfl | h
          · exact List.forall_mem_cons.mpr ⟨Bool.eq_false_iff.mpr hc, ih List.mem_cons_self⟩
          · exact ih (List.mem_cons_of_mem first h)

/-- Joined again, the pieces give the text. -/
theorem intercalate_splitWhere (separator : Char) (text : List Char) :
    List.intercalate [separator] (splitWhere (· == separator) text) = text := by
  induction text with
  | nil => rfl
  | cons c rest ih =>
      obtain ⟨first, more, hpieces⟩ :=
        List.exists_cons_of_ne_nil (splitWhere_ne_nil (p := (· == separator)) rest)
      rw [hpieces] at ih
      rw [splitWhere, hpieces]
      split
      · next hc =>
          rw [List.intercalate_cons_cons, ih, eq_of_beq hc]
          rfl
      · cases more with
        | nil =>
            rw [List.intercalate_singleton] at ih ⊢
            rw [ih]
        | cons second more =>
            rw [List.intercalate_cons_cons] at ih ⊢
            rw [← ih]
            rfl

/-- Cutting what was joined cuts every part. -/
theorem splitWhere_intercalate {separator : Char} (hseparator : p separator = true)
    {parts : List (List Char)} (hparts : parts ≠ []) :
    splitWhere p (List.intercalate [separator] parts) = parts.flatMap (splitWhere p) := by
  induction parts with
  | nil => contradiction
  | cons first rest ih =>
      cases rest with
      | nil => rw [List.intercalate_singleton, List.flatMap_singleton]
      | cons second rest =>
          rw [List.intercalate_cons_cons, List.append_assoc, List.singleton_append,
            splitWhere_append hseparator, ih (List.cons_ne_nil second rest)]
          exact List.flatMap_cons.symm

/-- A text without a separator is its own last piece; in any other, the last piece follows
the last separator. -/
theorem getLastD_splitWhere_eq_iff {separator : Char} {text last : List Char}
    (h : separator ∉ last) :
    (splitWhere (· == separator) text).getLastD [] = last ↔
      text = last ∨ ∃ before, text = before ++ separator :: last := by
  have hfree : ∀ {piece : List Char}, separator ∉ piece →
      splitWhere (· == separator) piece = [piece] := by
    intro piece hpiece
    refine splitWhere_eq_singleton fun c hc => ?_
    rw [beq_eq_false_iff_ne]
    rintro rfl
    exact hpiece hc
  have hcut : ∀ (before : List Char) {piece : List Char}, separator ∉ piece →
      (splitWhere (· == separator) (before ++ separator :: piece)).getLastD [] = piece := by
    intro before piece hpiece
    rw [splitWhere_append (p := (· == separator)) (beq_self_eq_true separator), hfree hpiece,
      List.getLastD_concat]
  constructor
  · rintro rfl
    by_cases hmem : separator ∈ text.reverse
    · obtain ⟨after, before, hreverse, hafter⟩ := List.eq_append_cons_of_mem hmem
      have htext : text = before.reverse ++ separator :: after.reverse := by
        rw [← List.reverse_reverse text, hreverse]
        simp
      refine .inr ⟨before.reverse, ?_⟩
      rw [htext, hcut before.reverse (by simpa using hafter)]
    · rw [hfree (by simpa using hmem)]
      exact .inl rfl
  · rintro (rfl | ⟨before, rfl⟩)
    · rw [hfree h]
      rfl
    · exact hcut before h

theorem head?_intercalate {separator first : List Char} (h : first ≠ []) (rest : List (List Char)) :
    (List.intercalate separator (first :: rest)).head? = first.head? := by
  cases rest with
  | nil => rw [List.intercalate_singleton]
  | cons second rest =>
      rw [List.intercalate_cons_cons, List.append_assoc, List.head?_append_of_ne_nil first h]

theorem getLast?_intercalate {separator : List Char} {parts : List (List Char)}
    (h : ∀ part ∈ parts, part ≠ []) :
    (List.intercalate separator parts).getLast? = parts.getLast?.bind List.getLast? := by
  induction parts with
  | nil => rfl
  | cons first rest ih =>
      cases rest with
      | nil => rw [List.intercalate_singleton]; rfl
      | cons second rest =>
          have hrest := ih fun part hpart => h part (List.mem_cons_of_mem first hpart)
          have hsecond : second ≠ [] := h second (by simp)
          have hne : List.intercalate separator (second :: rest) ≠ [] := by
            rw [Ne, ← List.head?_eq_none_iff, head?_intercalate hsecond, List.head?_eq_none_iff]
            exact hsecond
          rw [List.intercalate_cons_cons, List.getLast?_append_of_ne_nil _ hne, hrest,
            List.getLast?_cons_cons]

theorem mem_intercalate {c : Char} {separator : List Char} {parts : List (List Char)}
    (h : c ∈ List.intercalate separator parts) : c ∈ separator ∨ ∃ part ∈ parts, c ∈ part := by
  induction parts with
  | nil => simp at h
  | cons first rest ih =>
      cases rest with
      | nil =>
          rw [List.intercalate_singleton] at h
          exact .inr ⟨first, List.mem_singleton_self first, h⟩
      | cons second rest =>
          rw [List.intercalate_cons_cons, List.mem_append, List.mem_append] at h
          rcases h with (hfirst | hseparator) | hrest
          · exact .inr ⟨first, List.mem_cons_self, hfirst⟩
          · exact .inl hseparator
          · rcases ih hrest with hseparator | ⟨part, hpart, hc⟩
            · exact .inl hseparator
            · exact .inr ⟨part, List.mem_cons_of_mem first hpart, hc⟩

theorem splitOn_of_none {separator text : List Char} (hne : separator ≠ [])
    (h : breakOn separator text = none) : splitOn separator text = [text] := by
  rw [splitOn, dif_neg (mt List.length_eq_zero_iff.mp hne)]
  split
  · rfl
  · next hfound =>
      rw [h] at hfound
      contradiction

theorem splitOn_of_some {separator text before after : List Char} (hne : separator ≠ [])
    (h : breakOn separator text = some (before, after)) :
    splitOn separator text = before :: splitOn separator after := by
  rw [splitOn, dif_neg (mt List.length_eq_zero_iff.mp hne)]
  split
  · next hfound =>
      rw [h] at hfound
      contradiction
  · next hfound =>
      rw [h] at hfound
      obtain ⟨rfl, rfl⟩ := Prod.mk.inj (Option.some.inj hfound)
      rfl

/-- Parts that do not hold the first character of the separator are found again. -/
theorem splitOn_intercalate {first : Char} {separator : List Char}
    (hseparator : separator.head? = some first) {parts : List (List Char)} (hne : parts ≠ [])
    (hparts : ∀ part ∈ parts, first ∉ part) :
    splitOn separator (List.intercalate separator parts) = parts := by
  have hnonempty : separator ≠ [] := by
    rintro rfl
    contradiction
  induction parts with
  | nil => contradiction
  | cons part rest ih =>
      obtain ⟨hpart, hrest⟩ := List.forall_mem_cons.mp hparts
      cases rest with
      | nil =>
          rw [List.intercalate_singleton]
          apply splitOn_of_none hnonempty
          have hsearch := breakOn_append hseparator hpart []
          rw [List.append_nil, breakOn, if_neg (mt List.isEmpty_iff.mp hnonempty)] at hsearch
          exact hsearch
      | cons second rest =>
          have hhere : breakOn separator
              (separator ++ List.intercalate separator (second :: rest)) =
              some ([], List.intercalate separator (second :: rest)) := by
            rw [breakOn_eq_some_iff]
            exact ⟨rfl, fun front back _ => Nat.zero_le front.length⟩
          have hfound : breakOn separator (List.intercalate separator (part :: second :: rest)) =
              some (part, List.intercalate separator (second :: rest)) := by
            rw [List.intercalate_cons_cons, List.append_assoc, breakOn_append hseparator hpart,
              hhere]
            simp
          rw [splitOn_of_some hnonempty hfound, ih (List.cons_ne_nil second rest) hrest]

end Text
end CodeSurvey
