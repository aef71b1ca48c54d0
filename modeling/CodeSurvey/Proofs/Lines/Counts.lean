import CodeSurvey.LineCounts
import CodeSurvey.Proofs.Text.Lines
import CodeSurvey.Proofs.Text.Search

/-
What the counts of a text are made of.  Every line has one class, so the classes add up to the
lines.  All that one line tells the next is which block comment is open, so two texts are counted as
one by counting each, if the first ends its last line and leaves no block open (`adds_ofText`); if
it leaves one open, the lines of the second belong to the block up to the first that holds the
closing delimiter.
-/

namespace CodeSurvey

namespace LineClass

open Text

theorem length_ofLines (delimiters : CommentSyntax) (openBlock : Option String)
    (lines : List (List Char)) : (ofLines delimiters openBlock lines).length = lines.length := by
  induction lines generalizing openBlock with
  | nil => rfl
  | cons line rest ih =>
      rw [ofLines, List.length_cons, List.length_cons, ih]

theorem count_add_count_add_count (classes : List LineClass) :
    classes.count .code + classes.count .comment + classes.count .blank = classes.length := by
  induction classes with
  | nil => rfl
  | cons lineClass rest ih =>
      rw [List.length_cons, ← ih]
      cases lineClass <;> simp <;> omega

theorem ofLines_cons (delimiters : CommentSyntax) (openBlock : Option String) (line : List Char)
    (rest : List (List Char)) : ofLines delimiters openBlock (line :: rest) =
      (ofLine delimiters openBlock line).1 ::
        ofLines delimiters (ofLine delimiters openBlock line).2 rest := rfl

theorem openAfter_append (delimiters : CommentSyntax) (openBlock : Option String)
    (a b : List (List Char)) :
    openAfter delimiters openBlock (a ++ b) =
      openAfter delimiters (openAfter delimiters openBlock a) b := by
  induction a generalizing openBlock with
  | nil => rfl
  | cons line rest ih => exact ih _

/-- A line that does not hold the closing delimiter leaves a block as it is. -/
theorem ofLine_of_not_closing (delimiters : CommentSyntax) {closing : String} {line : List Char}
    (h : ¬ closing.toList <:+: line) :
    ofLine delimiters (some closing) line = (.comment, some closing) := by
  obtain ⟨leading, trailing, hline, _⟩ := exists_eq_trim line
  have htrim : contains closing.toList (trim line) = false := by
    rw [Bool.eq_false_iff, ne_eq, contains_iff]
    exact fun hfound => h (hfound.trans ⟨leading, trailing, hline.symm⟩)
  simp [ofLine, htrim]

theorem ofLines_of_not_closing (delimiters : CommentSyntax) {closing : String}
    {lines : List (List Char)} (h : ∀ line ∈ lines, ¬ closing.toList <:+: line) :
    ofLines delimiters (some closing) lines = List.replicate lines.length .comment ∧
      openAfter delimiters (some closing) lines = some closing := by
  induction lines with
  | nil => exact ⟨rfl, rfl⟩
  | cons line rest ih =>
      obtain ⟨hline, hrest⟩ := List.forall_mem_cons.mp h
      obtain ⟨hclasses, hopen⟩ := ih hrest
      rw [ofLines_cons, openAfter, ofLine_of_not_closing delimiters hline, hclasses, hopen]
      exact ⟨rfl, rfl⟩

theorem ofLine_of_code {delimiters : CommentSyntax} {line : List Char}
    (h : (ofLine delimiters none line).1 = .code) :
    ofLine delimiters none line = (.code, openedBlock delimiters (trim line)) := by
  simp only [ofLine] at h ⊢
  split at h
  · contradiction
  · split at h
    · contradiction
    · split at h
      · contradiction
      · next hempty hmarks _ _ => simp [hempty, hmarks]

/-- Characters that quote nothing are kept. -/
theorem blankLiterals_append {start : List Char}
    (h : ∀ c ∈ start, c ≠ '"' ∧ c ≠ '\'' ∧ c ≠ rawQuote) (line : List Char) :
    blankLiterals none (start ++ line) = start ++ blankLiterals none line := by
  induction start with
  | nil => rfl
  | cons c start ih =>
      obtain ⟨⟨hdouble, hsingle, hraw⟩, hstart⟩ := List.forall_mem_cons.mp h
      rw [List.cons_append, blankLiterals, ih hstart]
      · simp [hdouble, hraw]
      · intro _ _ heq
        exact absurd heq hsingle
      · intro _ _ heq
        exact absurd heq hsingle

end LineClass

namespace LineCounts

open Text LineClass

variable {delimiters : CommentSyntax} {a b : List Char}

theorem total_eq_length (delimiters : CommentSyntax) (text : List Char) :
    (ofText delimiters text).total = (Text.lines text).length := by
  simp [ofText, linesOf]

theorem total_eq_add (delimiters : CommentSyntax) (text : List Char) :
    (ofText delimiters text).total =
      (ofText delimiters text).code + (ofText delimiters text).comment
      + (ofText delimiters text).blank := by
  have hlength := LineClass.length_ofLines delimiters none (linesOf text)
  have hsum :=
    LineClass.count_add_count_add_count (LineClass.ofLines delimiters none (linesOf text))
  show (linesOf text).length = _
  rw [← hlength, ← hsum]
  rfl

theorem foldl_max (longest : Nat) (lengths : List Nat) :
    lengths.foldl max longest = max longest (lengths.foldl max 0) := by
  induction lengths generalizing longest with
  | nil => simp
  | cons length rest ih =>
      rw [List.foldl_cons, List.foldl_cons, ih, ih (max 0 length)]
      omega

theorem linesOf_append (ha : EndsLine a) (b : List Char) :
    linesOf (a ++ b) = linesOf a ++ linesOf b := by
  rw [linesOf, lines_append ha, List.map_append, ← linesOf, ← linesOf]

/-- The counts of two texts together: what is counted adds up, and the longest line is
that of one of them. -/
structure Adds (whole first second : LineCounts) : Prop where
  total : whole.total = first.total + second.total
  code : whole.code = first.code + second.code
  comment : whole.comment = first.comment + second.comment
  blank : whole.blank = first.blank + second.blank
  maxLength : whole.maxLength = max first.maxLength second.maxLength

theorem total_append (ha : EndsLine a) (b : List Char) :
    (ofText delimiters (a ++ b)).total =
      (ofText delimiters a).total + (ofText delimiters b).total := by
  show (linesOf (a ++ b)).length = (linesOf a).length + (linesOf b).length
  rw [linesOf_append ha, List.length_append]

theorem adds_ofText (ha : EndsLine a) (hopen : openAfter delimiters none (linesOf a) = none)
    (b : List Char) :
    Adds (ofText delimiters (a ++ b)) (ofText delimiters a) (ofText delimiters b) := by
  have hcount : ∀ lineClass, (ofLines delimiters none (linesOf (a ++ b))).count lineClass =
      (ofLines delimiters none (linesOf a)).count lineClass +
        (ofLines delimiters none (linesOf b)).count lineClass := by
    intro lineClass
    rw [linesOf_append ha, ofLines_append, hopen, List.count_append]
  have hlongest : ((linesOf (a ++ b)).map List.length).foldl max 0 =
      max (((linesOf a).map List.length).foldl max 0)
        (((linesOf b).map List.length).foldl max 0) := by
    rw [linesOf_append ha, List.map_append, List.foldl_append, foldl_max]
  exact ⟨total_append ha b, hcount .code, hcount .comment, hcount .blank, hlongest⟩

/-- The counts of two texts together, where the second only goes on with a block comment. -/
structure AddsComments (whole first second : LineCounts) : Prop where
  total : whole.total = first.total + second.total
  code : whole.code = first.code
  comment : whole.comment = first.comment + second.total
  blank : whole.blank = first.blank

theorem ofLines_in_block (ha : EndsLine a) {closing : String}
    (hopen : openAfter delimiters none (linesOf a) = some closing)
    (hb : ∀ line ∈ linesOf b, ¬ closing.toList <:+: line) :
    ofLines delimiters none (linesOf (a ++ b)) =
        ofLines delimiters none (linesOf a) ++ List.replicate (linesOf b).length .comment ∧
      openAfter delimiters none (linesOf (a ++ b)) = some closing := by
  obtain ⟨hclasses, hstill⟩ := ofLines_of_not_closing delimiters hb
  rw [linesOf_append ha, ofLines_append, openAfter_append, hopen, hclasses, hstill]
  exact ⟨rfl, rfl⟩

theorem addsComments_ofText (ha : EndsLine a) {closing : String}
    (hopen : openAfter delimiters none (linesOf a) = some closing)
    (hb : ∀ line ∈ linesOf b, ¬ closing.toList <:+: line) :
    AddsComments (ofText delimiters (a ++ b)) (ofText delimiters a) (ofText delimiters b) := by
  have hcount : ∀ lineClass, (ofLines delimiters none (linesOf (a ++ b))).count lineClass =
      (ofLines delimiters none (linesOf a)).count lineClass +
        if lineClass = .comment then (linesOf b).length else 0 := by
    intro lineClass
    rw [(ofLines_in_block ha hopen hb).1, List.count_append, List.count_replicate]
    cases lineClass <;> rfl
  exact ⟨total_append ha b, hcount .code, hcount .comment, hcount .blank⟩

/-- Texts of whole lines are counted one after the other, whatever the delimiters.  If the first
leaves no block open the counts add up; if it does, the lines of the second are comments as long as
none of them closes the block. -/
theorem counts_composed (delimiters : CommentSyntax) {a : List Char} (ha : EndsLine a)
    (b : List Char) :
    (openAfter delimiters none (linesOf a) = none →
      Adds (ofText delimiters (a ++ b)) (ofText delimiters a) (ofText delimiters b)) ∧
    (∀ closing, openAfter delimiters none (linesOf a) = some closing →
      (∀ line ∈ linesOf b, ¬ closing.toList <:+: line) →
      ofLines delimiters none (linesOf (a ++ b)) =
          ofLines delimiters none (linesOf a) ++ List.replicate (linesOf b).length .comment ∧
        openAfter delimiters none (linesOf (a ++ b)) = some closing ∧
        AddsComments (ofText delimiters (a ++ b)) (ofText delimiters a) (ofText delimiters b)) ∧
    (∀ text, (ofText delimiters text).total =
      (ofText delimiters text).code + (ofText delimiters text).comment
        + (ofText delimiters text).blank ∧
      (ofText delimiters text).total = text.count '\n' + if EndsLine text then 0 else 1) := by
  refine ⟨fun hopen => adds_ofText ha hopen b, ?_, ?_⟩
  · intro closing hopen hb
    obtain ⟨hclasses, hstill⟩ := ofLines_in_block ha hopen hb
    exact ⟨hclasses, hstill, addsComments_ofText ha hopen hb⟩
  · intro text
    refine ⟨total_eq_add delimiters text, ?_⟩
    rw [total_eq_length, length_lines]

theorem counts_composed_openBlock :
    (openAfter .cLike none (linesOf "f(); // one\n".toList) = none ∧
      Adds (ofText .cLike ("f(); // one\n".toList ++ "\n/* two".toList))
        (ofText .cLike "f(); // one\n".toList)
        (ofText .cLike "\n/* two".toList)) ∧
    openAfter .cLike none (linesOf "f(); /* one\n".toList) = some "*/" ∧
      ofLines .cLike none (linesOf ("f(); /* one\n".toList ++ "\ntwo".toList)) =
        [.code, .comment, .comment] ∧
      openAfter .cLike none (linesOf ("f(); /* one\n".toList ++ "\ntwo".toList)) = some "*/" := by
  have hclosed : openAfter .cLike none (linesOf "f(); // one\n".toList) = none := by decide +kernel
  have hopen : openAfter .cLike none (linesOf "f(); /* one\n".toList) = some "*/" := by
    decide +kernel
  have hfirst : ofLines .cLike none (linesOf "f(); /* one\n".toList) = [.code] := by decide +kernel
  have hsecond : ∀ line ∈ linesOf "\ntwo".toList, ¬ "*/".toList <:+: line := by decide +kernel
  obtain ⟨hadds, _⟩ :=
    counts_composed .cLike (a := "f(); // one\n".toList) (by decide) "\n/* two".toList
  obtain ⟨_, hblock, _⟩ :=
    counts_composed .cLike (a := "f(); /* one\n".toList) (by decide) "\ntwo".toList
  obtain ⟨hclasses, hstill, _⟩ := hblock "*/" hopen hsecond
  rw [hfirst] at hclasses
  exact ⟨⟨hclosed, hadds hclosed⟩, hopen, hclasses, hstill⟩

end LineCounts
end CodeSurvey
