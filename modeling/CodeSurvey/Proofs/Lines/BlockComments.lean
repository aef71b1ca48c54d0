import CodeSurvey.Proofs.Lines.Counts

/-
Block comments as a reader sees them who goes through a text character by character, and as they are
found by searching each line for the delimiters.  A search finds the first block that begins on a
line and asks whether it ends there, so it never sees a block that begins after another one has
ended (`ofLine_cLike`).  Both ways agree on a text without quotes exactly if no line ends inside
such a block.
-/

namespace CodeSurvey

/-- Where a reader stands on a line: in a block comment or not, and whether one has
ended on this line. -/
structure BlockScan where
  inside : Bool
  closed : Bool
  deriving Repr, DecidableEq

namespace BlockScan

open Text

/-- Outside a block `//` hides the rest of the line and `/*` begins a block;
inside, `*/` ends it. -/
def advance : BlockScan → List Char → BlockScan
  | scan, [] => scan
  | ⟨false, closed⟩, '/' :: '/' :: _ => ⟨false, closed⟩
  | ⟨false, closed⟩, '/' :: '*' :: rest => advance ⟨true, closed⟩ rest
  | ⟨true, _⟩, '*' :: '/' :: rest => advance ⟨false, true⟩ rest
  | scan, _ :: rest => advance scan rest

/-- A whole line, from inside a block or from outside. -/
def readLine (inside : Bool) (line : List Char) : BlockScan := advance ⟨inside, false⟩ line

/-- Whether the reader is inside a block after some lines. -/
def insideAfter (inside : Bool) (lines : List (List Char)) : Bool :=
  lines.foldl (fun inside line => (readLine inside line).inside) inside

/-- The line ends inside a block, after another one has ended on it. -/
def Reopens (inside : Bool) (line : List Char) : Prop := readLine inside line = ⟨true, true⟩

instance (inside : Bool) (line : List Char) : Decidable (Reopens inside line) :=
  inferInstanceAs (Decidable (_ = _))

def NeverReopens (inside : Bool) (lines : List (List Char)) : Prop :=
  ∀ before line, before ++ [line] <+: lines → ¬ Reopens (insideAfter inside before) line

variable {scan : BlockScan} {c : Char} {rest : List Char}

/-! ## Characters -/

theorem pair_prefix_iff {first second : Char} :
    [first, second] <+: c :: rest ↔ c = first ∧ ∃ tail, rest = second :: tail := by
  constructor
  · rintro ⟨tail, htail⟩
    obtain ⟨hc, hrest⟩ := List.cons.inj htail
    exact ⟨hc.symm, tail, hrest.symm⟩
  · rintro ⟨rfl, tail, rfl⟩
    exact ⟨tail, rfl⟩

theorem advance_cons
    (houtside : scan.inside = false → ¬ ['/', '/'] <+: c :: rest ∧ ¬ ['/', '*'] <+: c :: rest)
    (hinside : scan.inside = true → ¬ ['*', '/'] <+: c :: rest) :
    advance scan (c :: rest) = advance scan rest := by
  obtain ⟨inside, closed⟩ := scan
  rw [advance]
  · intro closed' tail hscan hc hrest
    exact (houtside (congrArg BlockScan.inside hscan)).1 (pair_prefix_iff.mpr ⟨hc, tail, hrest⟩)
  · intro closed' tail hscan hc hrest
    exact (houtside (congrArg BlockScan.inside hscan)).2 (pair_prefix_iff.mpr ⟨hc, tail, hrest⟩)
  · intro closed' tail hscan hc hrest
    exact hinside (congrArg BlockScan.inside hscan) (pair_prefix_iff.mpr ⟨hc, tail, hrest⟩)

theorem closed_advance (h : scan.closed = true) (text : List Char) :
    (advance scan text).closed = true := by
  fun_induction advance scan text with
  | case1 => exact h
  | case2 => exact h
  | case3 closed rest ih => exact ih h
  | case4 closed rest ih => exact ih rfl
  | case5 scan c rest _ _ _ ih => exact ih h

theorem advance_append_left (scan : BlockScan) {start : List Char} (hslash : '/' ∉ start)
    (hstar : '*' ∉ start) (text : List Char) :
    advance scan (start ++ text) = advance scan text := by
  induction start with
  | nil => rfl
  | cons c start ih =>
      rw [List.mem_cons, not_or] at hslash hstar
      have hskip : advance scan (c :: (start ++ text)) = advance scan (start ++ text) := by
        refine advance_cons (fun _ => ⟨?_, ?_⟩) (fun _ => ?_)
        · exact fun hpair => hslash.1 (pair_prefix_iff.mp hpair).1.symm
        · exact fun hpair => hslash.1 (pair_prefix_iff.mp hpair).1.symm
        · exact fun hpair => hstar.1 (pair_prefix_iff.mp hpair).1.symm
      rw [List.cons_append, hskip, ih hslash.2 hstar.2]

/-- What comes after a text completes no pair at its end. -/
theorem not_pair_append {first second : Char} {after : List Char} (hafter : second ∉ after)
    (h : ¬ [first, second] <+: c :: rest) : ¬ [first, second] <+: c :: (rest ++ after) := by
  intro hpair
  obtain ⟨hc, tail, htail⟩ := pair_prefix_iff.mp hpair
  cases rest with
  | nil =>
      rw [List.nil_append] at htail
      exact hafter (htail ▸ List.mem_cons_self)
  | cons d rest =>
      have hd : d = second := (List.cons.inj htail).1
      exact h (pair_prefix_iff.mpr ⟨hc, rest, by rw [hd]⟩)

theorem advance_append_right (scan : BlockScan) {after : List Char} (hslash : '/' ∉ after)
    (hstar : '*' ∉ after) (text : List Char) :
    advance scan (text ++ after) = advance scan text := by
  fun_induction advance scan text with
  | case1 scan =>
      have hnone := advance_append_left scan hslash hstar []
      rw [List.append_nil] at hnone
      exact hnone
  | case2 closed rest => rfl
  | case3 closed rest ih => exact ih
  | case4 closed rest ih => exact ih
  | case5 scan c rest hline hopen hclose ih =>
      obtain ⟨inside, closed⟩ := scan
      rw [List.cons_append, advance_cons, ih]
      · intro hinside
        refine ⟨not_pair_append hslash fun hpair => ?_, not_pair_append hstar fun hpair => ?_⟩
        · obtain ⟨hc, tail, hrest⟩ := pair_prefix_iff.mp hpair
          exact hline closed tail (by rw [← hinside]) hc hrest
        · obtain ⟨hc, tail, hrest⟩ := pair_prefix_iff.mp hpair
          exact hopen closed tail (by rw [← hinside]) hc hrest
      · intro hinside
        refine not_pair_append hslash fun hpair => ?_
        obtain ⟨hc, tail, hrest⟩ := pair_prefix_iff.mp hpair
        exact hclose closed tail (by rw [← hinside]) hc hrest

theorem readLine_trim (inside : Bool) (line : List Char) :
    readLine inside (trim line) = readLine inside line := by
  obtain ⟨leading, trailing, hline, hleading, htrailing⟩ := exists_eq_trim line
  have hvisible : isBlank '/' = false ∧ isBlank '*' = false := by decide
  generalize trim line = text at hline
  rw [hline, readLine, readLine, List.append_assoc]
  rw [advance_append_left _ (not_mem_of_blanks hvisible.1 hleading)
    (not_mem_of_blanks hvisible.2 hleading)]
  rw [advance_append_right _ (not_mem_of_blanks hvisible.1 htrailing)
    (not_mem_of_blanks hvisible.2 htrailing)]

/-! ## Searches -/

/-- A reader in a block stays there as long as the closing delimiter does not occur. -/
theorem advance_of_not_closing (closed : Bool) {text : List Char} (h : ¬ ['*', '/'] <:+: text) :
    advance ⟨true, closed⟩ text = ⟨true, closed⟩ := by
  induction text with
  | nil => rfl
  | cons c rest ih =>
      rw [List.infix_cons_iff, not_or] at h
      rw [advance_cons (fun hinside => Bool.noConfusion hinside) fun _ => h.1]
      exact ih h.2

theorem closed_of_closing (closed : Bool) {text : List Char} (h : ['*', '/'] <:+: text) :
    (advance ⟨true, closed⟩ text).closed = true := by
  induction text with
  | nil => simp at h
  | cons c rest ih =>
      by_cases hhere : ['*', '/'] <+: c :: rest
      · obtain ⟨tail, htail⟩ := hhere
        rw [← htail]
        show (advance ⟨false, true⟩ tail).closed = true
        exact closed_advance rfl tail
      · rw [advance_cons (fun hinside => Bool.noConfusion hinside) fun _ => hhere]
        exact ih ((List.infix_cons_iff.mp h).resolve_left hhere)

theorem advance_inside_iff (text : List Char) :
    advance ⟨true, false⟩ text = ⟨true, false⟩ ↔ contains ['*', '/'] text = false := by
  rw [Bool.eq_false_iff, ne_eq, contains_iff]
  constructor
  · intro hstays hclosing
    have hclosed := closed_of_closing false hclosing
    rw [hstays] at hclosed
    contradiction
  · exact advance_of_not_closing false

/-! ## Texts -/

theorem neverReopens_nil (inside : Bool) : NeverReopens inside [] := by
  intro before line hbefore
  simp at hbefore

theorem neverReopens_cons {inside : Bool} {line : List Char} {rest : List (List Char)} :
    NeverReopens inside (line :: rest) ↔
      ¬ Reopens inside line ∧ NeverReopens (readLine inside line).inside rest := by
  constructor
  · intro h
    refine ⟨h [] line ⟨rest, rfl⟩, fun before last hbefore => ?_⟩
    exact h (line :: before) last (List.cons_prefix_cons.mpr ⟨rfl, hbefore⟩)
  · intro h before last hbefore
    cases before with
    | nil =>
        obtain ⟨rfl, _⟩ := List.cons_prefix_cons.mp hbefore
        exact h.1
    | cons first before =>
        obtain ⟨rfl, htail⟩ := List.cons_prefix_cons.mp hbefore
        exact h.2 before last htail

end BlockScan

namespace LineClass

open Text BlockScan

/-! ## Lines -/

/-- No literal begins in the text. -/
def Unquoted (text : List Char) : Prop := ∀ c ∈ text, c ≠ '"' ∧ c ≠ '\'' ∧ c ≠ rawQuote

instance (text : List Char) : Decidable (Unquoted text) :=
  decidable_of_iff (text.all fun c => c != '"' && (c != '\'' && c != rawQuote)) (by simp [Unquoted])

theorem staysOpen_of_line (rest : List Char) :
    staysOpen ["//"] "/*" "*/" ('/' :: '/' :: rest) = false := by
  have hmark : find ['/', '/'] ('/' :: '/' :: rest) = some 0 := rfl
  unfold staysOpen
  cases hfound : breakOn "/*".toList ('/' :: '/' :: rest) with
  | none => rfl
  | some found =>
      obtain ⟨before, after⟩ := found
      have hlater : 0 < before.length := by
        cases before with
        | nil =>
            have hsecond := congrArg (fun text => text[1]?) (eq_of_breakOn hfound)
            simp at hsecond
        | cons c before => exact Nat.zero_lt_succ _
      simp [hmark, hlater]

theorem staysOpen_of_open (rest : List Char) :
    staysOpen ["//"] "/*" "*/" ('/' :: '*' :: rest) = ! contains ['*', '/'] rest := by
  have hfound : breakOn "/*".toList ('/' :: '*' :: rest) = some ([], rest) := rfl
  unfold staysOpen
  rw [hfound]
  cases hmark : find ['/', '/'] ('/' :: '*' :: rest) <;> simp [hmark]

theorem staysOpen_cons {c : Char} {rest : List Char} (hline : ¬ ['/', '/'] <+: c :: rest)
    (hopen : ¬ ['/', '*'] <+: c :: rest) :
    staysOpen ["//"] "/*" "*/" (c :: rest) = staysOpen ["//"] "/*" "*/" rest := by
  have hbreak : ∀ part : String, ¬ part.toList <+: c :: rest →
      breakOn part.toList (c :: rest) = (breakOn part.toList rest).map fun found =>
        (c :: found.1, found.2) := by
    intro part hpart
    rw [breakOn, if_neg (mt List.isPrefixOf_iff_prefix.mp hpart)]
  unfold staysOpen
  rw [hbreak "/*" hopen]
  cases breakOn "/*".toList rest with
  | none => rfl
  | some found =>
      have hfind : find "//".toList (c :: rest) = (find "//".toList rest).map (· + 1) := by
        rw [find, find, hbreak "//" hline]
        cases breakOn "//".toList rest <;> rfl
      simp only [Option.map_some, List.any_cons, List.any_nil, hfind]
      cases find "//".toList rest <;> simp

theorem staysOpen_iff (text : List Char) :
    staysOpen ["//"] "/*" "*/" text = true ↔ readLine false text = ⟨true, false⟩ := by
  induction text with
  | nil => simp [staysOpen, breakOn, readLine, advance]
  | cons c rest ih =>
      by_cases hline : ['/', '/'] <+: c :: rest
      · obtain ⟨tail, htail⟩ := hline
        rw [← htail]
        show staysOpen ["//"] "/*" "*/" ('/' :: '/' :: tail) = true ↔ _
        rw [staysOpen_of_line]
        simp [readLine, advance]
      · by_cases hopen : ['/', '*'] <+: c :: rest
        · obtain ⟨tail, htail⟩ := hopen
          rw [← htail]
          show staysOpen ["//"] "/*" "*/" ('/' :: '*' :: tail) = true ↔
            advance ⟨true, false⟩ tail = ⟨true, false⟩
          rw [staysOpen_of_open, advance_inside_iff, Bool.not_eq_true']
        · rw [staysOpen_cons hline hopen, ih, readLine, readLine,
            advance_cons (fun _ => ⟨hline, hopen⟩) fun hinside => Bool.noConfusion hinside]

/-- The block that is open, for a reader inside or outside one. -/
def blockOf (inside : Bool) : Option String := if inside then some "*/" else none

theorem openedBlock_unquoted {text : List Char} (h : Unquoted text) :
    openedBlock .cLike text = blockOf (staysOpen ["//"] "/*" "*/" text) := by
  have hliterals : blankLiterals none text = text := by
    have hkept := blankLiterals_append h []
    rwa [List.append_nil, blankLiterals, List.append_nil] at hkept
  cases hopen : staysOpen ["//"] "/*" "*/" text <;>
    simp [openedBlock, CommentSyntax.cLike, isQuoteLike, hliterals, hopen, blockOf]

/-- A line read from outside a block: its class depends on how it begins, the block
on the search alone. -/
theorem ofLine_none_cLike {line : List Char} (h : Unquoted (trim line)) :
    ((ofLine .cLike none line).1 = .comment ↔ ['/', '/'] <+: trim line ∨ ['/', '*'] <+: trim line) ∧
      (ofLine .cLike none line).2 = blockOf (staysOpen ["//"] "/*" "*/" (trim line)) := by
  have hopened := openedBlock_unquoted h
  -- on a line that begins with a mark the search is not asked, but it would answer the same
  cases htext : trim line with
  | nil => simp [ofLine, htext, staysOpen, breakOn, blockOf]
  | cons c rest =>
      rw [htext] at hopened
      by_cases hline : ['/', '/'] <+: c :: rest
      · obtain ⟨tail, htail⟩ := hline
        have hstart : c :: rest = '/' :: '/' :: tail := htail.symm
        rw [hstart, staysOpen_of_line]
        simp [ofLine, htext, hstart, CommentSyntax.cLike, blockOf]
      · by_cases hopen : ['/', '*'] <+: c :: rest
        · obtain ⟨tail, htail⟩ := hopen
          have hstart : c :: rest = '/' :: '*' :: tail := htail.symm
          have hdrop : ('/' :: '*' :: tail).drop "/*".length = tail := rfl
          rw [hstart, staysOpen_of_open]
          cases hclosing : contains ['*', '/'] tail <;>
            simp [ofLine, htext, hstart, CommentSyntax.cLike, blockOf, hdrop, hclosing]
        · have hnotLine : ['/', '/'].isPrefixOf (c :: rest) = false := by
            rwa [Bool.eq_false_iff, ne_eq, List.isPrefixOf_iff_prefix]
          have hnotOpen : ['/', '*'].isPrefixOf (c :: rest) = false := by
            rwa [Bool.eq_false_iff, ne_eq, List.isPrefixOf_iff_prefix]
          have hcode : ofLine .cLike none line = (.code, openedBlock .cLike (c :: rest)) := by
            simp [ofLine, htext, CommentSyntax.cLike, hnotLine, hnotOpen]
          rw [hcode, hopened]
          simp [hline, hopen]

/-- After a line a block is open if the reader ends in one and none has ended on the line. -/
theorem ofLine_cLike (inside : Bool) {line : List Char} (h : Unquoted (trim line)) :
    ((ofLine .cLike (blockOf inside) line).1 = .comment ↔
        inside = true ∨ ['/', '/'] <+: trim line ∨ ['/', '*'] <+: trim line) ∧
      (ofLine .cLike (blockOf inside) line).2 = blockOf (readLine inside line = ⟨true, false⟩) := by
  rw [← readLine_trim]
  cases inside with
  | true =>
      have hsearch := advance_inside_iff (trim line)
      cases hclosing : contains ['*', '/'] (trim line) <;>
        simp [ofLine, blockOf, readLine, hclosing, hsearch]
  | false =>
      obtain ⟨hclass, hblock⟩ := ofLine_none_cLike h
      have hsearch := staysOpen_iff (trim line)
      refine ⟨by simpa [blockOf] using hclass, ?_⟩
      show (ofLine .cLike none line).2 = _
      rw [hblock]
      congr 1
      rw [Bool.eq_iff_iff, hsearch, decide_eq_true_iff]

theorem blockOf_readLine {inside : Bool} {line : List Char} (h : ¬ Reopens inside line) :
    blockOf (readLine inside line = ⟨true, false⟩) = blockOf (readLine inside line).inside := by
  have hnot : readLine inside line ≠ ⟨true, true⟩ := h
  generalize readLine inside line = scan at hnot ⊢
  obtain ⟨after, closed⟩ := scan
  cases after with
  | false => simp
  | true =>
      cases closed with
      | false => simp
      | true => exact absurd rfl hnot

/-- The first line that reopens a block is the first after which the search and
the reader disagree. -/
theorem openAfter_eq_iff (inside : Bool) {lines : List (List Char)}
    (h : ∀ line ∈ lines, Unquoted (trim line)) :
    (∀ before, before <+: lines →
      openAfter .cLike (blockOf inside) before = blockOf (insideAfter inside before)) ↔
        NeverReopens inside lines := by
  induction lines generalizing inside with
  | nil =>
      refine ⟨fun _ => neverReopens_nil inside, fun _ before hbefore => ?_⟩
      rw [List.prefix_nil.mp hbefore]
      rfl
  | cons line rest ih =>
      obtain ⟨hline, hrest⟩ := List.forall_mem_cons.mp h
      have hstep := (ofLine_cLike inside hline).2
      rw [neverReopens_cons]
      by_cases hreopens : Reopens inside line
      · have hscan : readLine inside line = ⟨true, true⟩ := hreopens
        refine ⟨fun hagree => ?_, fun hnever => absurd hreopens hnever.1⟩
        have hone : (ofLine .cLike (blockOf inside) line).2 =
            blockOf (readLine inside line).inside :=
          hagree [line] ⟨rest, rfl⟩
        rw [hstep, hscan] at hone
        contradiction
      · have hsame := hstep.trans (blockOf_readLine hreopens)
        -- the step keeps the agreement, so the rest of the lines is compared from the reader's
        -- place
        rw [← ih (readLine inside line).inside hrest]
        refine ⟨fun hagree => ⟨hreopens, fun before hbefore => ?_⟩, fun hagree before hbefore => ?_⟩
        · have hlonger := hagree (line :: before) (List.cons_prefix_cons.mpr ⟨rfl, hbefore⟩)
          rwa [openAfter, hsame] at hlonger
        · cases before with
          | nil => rfl
          | cons first before =>
              obtain ⟨rfl, htail⟩ := List.cons_prefix_cons.mp hbefore
              rw [openAfter, hsame]
              exact hagree.2 before htail

theorem getElem?_ofLines (delimiters : CommentSyntax) (openBlock : Option String)
    (before : List (List Char)) (line : List Char) (after : List (List Char)) :
    (ofLines delimiters openBlock (before ++ line :: after))[before.length]? =
      some (ofLine delimiters (openAfter delimiters openBlock before) line).1 := by
  have hlength := length_ofLines delimiters openBlock before
  rw [ofLines_append, List.getElem?_append_right (by omega), hlength, Nat.sub_self]
  rfl

end LineClass

namespace LineCounts

open Text LineClass BlockScan

theorem unquoted_of_mem_linesOf {text line : List Char} (h : Unquoted text)
    (hline : line ∈ linesOf text) : Unquoted (trim line) := by
  obtain ⟨whole, hwhole, rfl⟩ := List.mem_map.mp hline
  obtain ⟨leading, trailing, htrim, _⟩ := exists_eq_trim (dropEndWhile (· == '\r') whole)
  obtain ⟨returns, hend, _⟩ := exists_eq_dropEndWhile (· == '\r') whole
  intro c hc
  refine h c (mem_of_mem_lines hwhole ?_)
  rw [hend, htrim]
  simp [hc]

/-- In a text without quotes, the block comments found by searching each line are those that a
reader sees, exactly if no line ends in a block after another one has ended on it.  Then the
comments are the lines that begin in a block or with the mark of a comment. -/
theorem blocks_seen_iff {text : List Char} (h : Unquoted text) :
    ((∀ before, before <+: linesOf text →
        openAfter .cLike none before = if insideAfter false before then some "*/" else none) ↔
      NeverReopens false (linesOf text)) ∧
    (NeverReopens false (linesOf text) → ∀ before line, before ++ [line] <+: linesOf text →
      ((ofLines .cLike none (linesOf text))[before.length]? = some .comment ↔
        insideAfter false before = true ∨ ['/', '/'] <+: trim line ∨
        ['/', '*'] <+: trim line)) := by
  have hagree := openAfter_eq_iff false fun line hline => unquoted_of_mem_linesOf h hline
  refine ⟨hagree, ?_⟩
  intro hnever before line hbefore
  obtain ⟨after, hlines⟩ := hbefore
  rw [List.append_assoc, List.singleton_append] at hlines
  have hline : Unquoted (trim line) := unquoted_of_mem_linesOf h (by rw [← hlines]; simp)
  have hblock : openAfter .cLike none before = blockOf (insideAfter false before) :=
    hagree.mpr hnever before ⟨line :: after, hlines⟩
  rw [← hlines, getElem?_ofLines, Option.some.injEq, hblock]
  exact (ofLine_cLike (insideAfter false before) hline).1

/-- Blocks that begin after code and after other blocks, but none that is left open after
another one has ended. -/
def tidyBlocks : List Char := "f(); /* a */ g(); /* b */\n/* c\nd */ h(); // /* e\n".toList

theorem blocks_seen_iff_tidyBlocks :
    Unquoted tidyBlocks ∧ NeverReopens false (linesOf tidyBlocks) ∧
    (∀ before, before <+: linesOf tidyBlocks →
      openAfter .cLike none before = if insideAfter false before then some "*/" else none) ∧
    (ofLines .cLike none (linesOf tidyBlocks))[2]? = some .comment := by
  have hunquoted : Unquoted tidyBlocks := by decide +kernel
  have hlines : linesOf tidyBlocks =
      ["f(); /* a */ g(); /* b */".toList, "/* c".toList, "d */ h(); // /* e".toList] := by
        decide +kernel
  have hnever : NeverReopens false (linesOf tidyBlocks) := by
    rw [hlines, neverReopens_cons, neverReopens_cons, neverReopens_cons]
    exact ⟨by decide +kernel, by decide +kernel, by decide +kernel, neverReopens_nil _⟩
  obtain ⟨hagree, hcomments⟩ := blocks_seen_iff hunquoted
  refine ⟨hunquoted, hnever, hagree.mpr hnever, ?_⟩
  refine (hcomments hnever ["f(); /* a */ g(); /* b */".toList, "/* c".toList]
    "d */ h(); // /* e".toList ?_).mpr ?_
  · rw [hlines]
    exact List.prefix_rfl
  · exact .inl (by decide +kernel)

/-- The second block of the first line is not seen, and the line after it counts as code. -/
theorem reopened_block_missed :
    Unquoted "f(); /* a */ g(); /* b\nc */\n".toList ∧
    insideAfter false ["f(); /* a */ g(); /* b".toList] = true ∧
    openAfter .cLike none ["f(); /* a */ g(); /* b".toList] = none ∧
    linesOf "f(); /* a */ g(); /* b\nc */\n".toList =
      ["f(); /* a */ g(); /* b".toList, "c */".toList] ∧
    ofLines .cLike none (linesOf "f(); /* a */ g(); /* b\nc */\n".toList) = [.code, .code] := by
  decide +kernel

end LineCounts
end CodeSurvey
