import CodeSurvey.Text.Matcher

/-
What a matcher leaves of a text is always the end of it, so a match ends inside the text and at a
character.  What it takes is told by one lemma for each way to build a matcher; `mem_bind` puts the
parts of a sequence together.
-/

namespace CodeSurvey
namespace Text
namespace Matcher

variable {α β : Type}

/-! ## What is matched -/

section Matches

variable {text rest run : List Char} {p : Char → Bool}

theorem mem_bind {m : Matcher α} {f : α → Matcher β} {found : β × List Char} :
    found ∈ (m >>= f) text ↔ ∃ a rest, (a, rest) ∈ m text ∧ found ∈ f a rest := by
  show found ∈ (m text).flatMap _ ↔ _
  simp only [List.mem_flatMap, Prod.exists]

theorem mem_pure {a b : α} : (b, rest) ∈ (Pure.pure a : Matcher α) text ↔ b = a ∧ rest = text := by
  show (b, rest) ∈ [(a, text)] ↔ _
  rw [List.mem_singleton, Prod.mk.injEq]

theorem mem_literal {expected : String} (none : Unit) :
    (none, rest) ∈ literal expected text ↔ text = expected.toList ++ rest := by
  unfold literal
  by_cases hstarts : expected.toList.isPrefixOf text = true
  · obtain ⟨after, rfl⟩ := List.isPrefixOf_iff_prefix.mp hstarts
    rw [if_pos hstarts, List.mem_singleton, Prod.mk.injEq, ← String.length_toList, List.drop_left,
      List.append_cancel_left_eq, eq_comm (a := rest)]
    exact and_iff_right rfl
  · rw [if_neg hstarts]
    refine iff_of_false List.not_mem_nil ?_
    intro htext
    exact hstarts (List.isPrefixOf_iff_prefix.mpr ⟨rest, htext.symm⟩)

theorem mem_many : (run, rest) ∈ many p text ↔ text = run ++ rest ∧ ∀ c ∈ run, p c = true := by
  induction text generalizing run with
  | nil =>
      show (run, rest) ∈ [([], [])] ↔ _
      rw [List.mem_singleton, Prod.mk.injEq, List.nil_eq, List.append_eq_nil_iff]
      refine (and_iff_left_of_imp ?_).symm
      intro h
      simp [h.1]
  | cons c after ih =>
      rw [many]
      constructor
      · intro h
        split at h
        · next hc =>
            rcases List.mem_append.mp h with h | h
            · obtain ⟨⟨longer, left⟩, hlonger, heq⟩ := List.mem_map.mp h
              obtain ⟨rfl, rfl⟩ := Prod.mk.inj heq
              obtain ⟨htext, hall⟩ := ih.mp hlonger
              exact ⟨by rw [htext, List.cons_append], List.forall_mem_cons.mpr ⟨hc, hall⟩⟩
            · obtain ⟨rfl, rfl⟩ := Prod.mk.inj (List.mem_singleton.mp h)
              simp
        · obtain ⟨rfl, rfl⟩ := Prod.mk.inj (List.mem_singleton.mp h)
          simp
      · intro h
        obtain ⟨htext, hall⟩ := h
        cases run with
        | nil =>
            rw [List.nil_append] at htext
            rw [← htext]
            split
            · exact List.mem_append_right _ List.mem_cons_self
            · exact List.mem_cons_self
        | cons d run =>
            obtain ⟨hd, htail⟩ := List.cons.inj htext
            obtain ⟨hfirst, hlater⟩ := List.forall_mem_cons.mp hall
            rw [← hd] at hfirst ⊢
            rw [if_pos hfirst]
            exact List.mem_append_left _ (List.mem_map.mpr ⟨(run, rest),
              ih.mpr ⟨htail, hlater⟩, rfl⟩)

theorem mem_oneOf {c : Char} : (c, rest) ∈ oneOf p text ↔ text = c :: rest ∧ p c = true := by
  cases text with
  | nil => exact iff_of_false List.not_mem_nil (by simp)
  | cons d after =>
      rw [oneOf]
      by_cases hd : p d = true
      · rw [if_pos hd, List.mem_singleton, Prod.mk.injEq, List.cons.injEq]
        constructor
        · intro h
          exact ⟨⟨h.1.symm, h.2.symm⟩, by rw [h.1]; exact hd⟩
        · intro h
          exact ⟨h.1.1.symm, h.1.2.symm⟩
      · rw [if_neg hd]
        refine iff_of_false List.not_mem_nil ?_
        intro h
        rw [(List.cons.inj h.1).1] at hd
        exact hd h.2

theorem mem_many1 : (run, rest) ∈ many1 p text ↔ text = run ++ rest ∧ run ≠ [] ∧
    ∀ c ∈ run, p c = true := by
  unfold many1
  simp only [mem_bind, mem_oneOf, mem_many]
  constructor
  · intro h
    obtain ⟨first, after, ⟨htext, hfirst⟩, more, left, ⟨hafter, hmore⟩, hpure⟩ := h
    obtain ⟨rfl, rfl⟩ := mem_pure.mp hpure
    exact ⟨by rw [htext, hafter, List.cons_append], List.cons_ne_nil _ _,
      List.forall_mem_cons.mpr ⟨hfirst, hmore⟩⟩
  · intro h
    obtain ⟨htext, hne, hall⟩ := h
    obtain ⟨first, more, rfl⟩ := List.exists_cons_of_ne_nil hne
    obtain ⟨hfirst, hmore⟩ := List.forall_mem_cons.mp hall
    exact ⟨first, more ++ rest, ⟨htext, hfirst⟩, more, rest, ⟨rfl, hmore⟩, mem_pure.mpr ⟨rfl, rfl⟩⟩

theorem mem_blanks (none : Unit) :
    (none, rest) ∈ blanks text ↔ ∃ gap, text = gap ++ rest ∧ ∀ c ∈ gap, isBlank c = true := by
  unfold blanks
  simp only [mem_bind, mem_many]
  constructor
  · intro h
    obtain ⟨gap, left, hgap, hpure⟩ := h
    obtain ⟨_, rfl⟩ := mem_pure.mp hpure
    exact ⟨gap, hgap⟩
  · intro h
    obtain ⟨gap, hgap⟩ := h
    exact ⟨gap, rest, hgap, mem_pure.mpr ⟨rfl, rfl⟩⟩

theorem mem_blanks1 (none : Unit) : (none, rest) ∈ blanks1 text ↔
    ∃ gap, text = gap ++ rest ∧ gap ≠ [] ∧ ∀ c ∈ gap, isBlank c = true := by
  unfold blanks1
  simp only [mem_bind, mem_many1]
  constructor
  · intro h
    obtain ⟨gap, left, hgap, hpure⟩ := h
    obtain ⟨_, rfl⟩ := mem_pure.mp hpure
    exact ⟨gap, hgap⟩
  · intro h
    obtain ⟨gap, hgap⟩ := h
    exact ⟨gap, rest, hgap, mem_pure.mpr ⟨rfl, rfl⟩⟩

theorem mem_wordEnd (none : Unit) :
    (none, rest) ∈ wordEnd text ↔ rest = text ∧ text.head?.all (! isWordChar ·) = true := by
  cases text with
  | nil => simp [wordEnd]
  | cons c after => cases hc : isWordChar c <;> simp [wordEnd, hc]

theorem mem_optional {m : Matcher α} {found : Option α} :
    (found, rest) ∈ Matcher.optional m text ↔
      (found = none ∧ rest = text) ∨ ∃ a, found = some a ∧ (a, rest) ∈ m text := by
  unfold Matcher.optional
  rw [List.mem_append, List.mem_map, List.mem_singleton, Prod.mk.injEq, or_comm]
  constructor
  · intro h
    rcases h with h | ⟨⟨a, left⟩, hfound, heq⟩
    · exact .inl h
    · obtain ⟨rfl, rfl⟩ := Prod.mk.inj heq
      exact .inr ⟨a, rfl, hfound⟩
  · intro h
    rcases h with h | ⟨a, rfl, hfound⟩
    · exact .inl h
    · exact .inr ⟨(a, rest), hfound, rfl⟩

theorem isSome_run_iff {m : Matcher α} :
    (m.run text).isSome = true ↔ ∃ a rest, (a, rest) ∈ m text := by
  unfold Matcher.run
  cases m text with
  | nil => simp
  | cons found others => exact iff_of_true rfl ⟨found.1, found.2, List.mem_cons_self⟩

end Matches

/-! ## What is left -/

/-- What a matcher leaves is the end of the text. -/
def Advances (m : Matcher α) : Prop := ∀ text, ∀ found ∈ m text, found.2 <:+ text

theorem Advances.bind {m : Matcher α} {f : α → Matcher β} (hm : Advances m)
    (hf : ∀ a, Advances (f a)) : Advances (m >>= f) := by
  intro text found hfound
  obtain ⟨a, rest, hfirst, hfound⟩ := mem_bind.mp hfound
  exact (hf a rest found hfound).trans (hm text (a, rest) hfirst)

theorem advances_pure (a : α) : Advances (Pure.pure a : Matcher α) :=
  fun _ _ hfound => ⟨[], (mem_pure.mp hfound).2⟩

theorem advances_literal (expected : String) : Advances (literal expected) :=
  fun _ found hfound => ⟨expected.toList, ((mem_literal found.1).mp hfound).symm⟩

theorem advances_oneOf (p : Char → Bool) : Advances (oneOf p) :=
  fun _ found hfound => ⟨[found.1], (mem_oneOf.mp hfound).1.symm⟩

theorem advances_many (p : Char → Bool) : Advances (many p) :=
  fun _ found hfound => ⟨found.1, (mem_many.mp hfound).1.symm⟩

theorem Advances.optional {m : Matcher α} (hm : Advances m) : Advances (Matcher.optional m) := by
  intro text found hfound
  rcases mem_optional.mp hfound with ⟨_, hrest⟩ | ⟨a, _, hgiven⟩
  · exact ⟨[], hrest⟩
  · exact hm text (a, found.2) hgiven

theorem advances_many1 (p : Char → Bool) : Advances (many1 p) :=
  (advances_oneOf p).bind fun _ => (advances_many p).bind fun _ => advances_pure _

theorem advances_blanks : Advances blanks := (advances_many _).bind fun _ => advances_pure _

theorem advances_blanks1 : Advances blanks1 := (advances_many1 _).bind fun _ => advances_pure _

/-- A match of a sequence that begins with a fixed text has it at its start. -/
theorem startsWith_of_run_literal {expected : String} {f : Unit → Matcher β} {text : List Char}
    {found : β × List Char} (h : Matcher.run (literal expected >>= f) text = some found) :
    expected.toList <+: text := by
  obtain ⟨_, rest, hliteral, _⟩ := mem_bind.mp (List.mem_of_head? h)
  exact ⟨rest, ((mem_literal ()).mp hliteral).symm⟩

theorem Advances.run {m : Matcher α} (hm : Advances m) {text rest : List Char} {a : α}
    (h : m.run text = some (a, rest)) : rest <:+ text := hm text _ (List.mem_of_head? h)

end Matcher
end Text
end CodeSurvey
