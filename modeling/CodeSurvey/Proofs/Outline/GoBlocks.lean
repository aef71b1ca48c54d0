import CodeSurvey.Proofs.Outline.GoStops

/-
Where the functions of a Go file end.  Both loops that look for an end count brackets until none
is open: the first over the parentheses of a signature, the second over the braces of a body
(`linesToClose_cases`).  The second one begins to count on the last line of the signature, so a
brace in the lines before it, as in a parameter of struct type, is not seen.  The function ends
where all its braces close exactly if leaving those out makes no difference up to the end that is
found (`endsOn_iff`).
-/

namespace CodeSurvey
namespace GoOutline

open Text Checked

/-! ## Balances over lines -/

/-- Opening minus closing brackets of some lines. -/
def balanceOf (delta : Line → Int) : List Line → Int
  | [] => 0
  | line :: rest => delta line + balanceOf delta rest

/-- Those of the lines from `first` on, up to line `past` without it. -/
def balanceOver (delta : Line → Int) (lines : List Line) (first past : Nat) : Int :=
  balanceOf delta ((lines.drop first).take (past - first))

/-- Line `last` is the first one from line `earliest` on at whose end no bracket is open that was
opened since line `first`. -/
def ClosesOn (delta : Line → Int) (lines : List Line) (first earliest last : Nat) : Prop :=
  (earliest ≤ last ∧ last < lines.length ∧ balanceOver delta lines first (last + 1) ≤ 0) ∧
    ∀ line < last, earliest ≤ line → 0 < balanceOver delta lines first (line + 1)

/-- There is no such line. -/
def StaysOpen (delta : Line → Int) (lines : List Line) (first earliest : Nat) : Prop :=
  ∀ line < lines.length, earliest ≤ line → 0 < balanceOver delta lines first (line + 1)

instance (delta : Line → Int) (lines : List Line) (first earliest last : Nat) :
    Decidable (ClosesOn delta lines first earliest last) := inferInstanceAs (Decidable (_ ∧ _))

/-- A block ends where its braces close, and with the file if they do not. -/
def EndsOn (lines : List Line) (first earliest last : Nat) (closed : Bool) : Prop :=
  (closed = true ∧ ClosesOn braceBalance lines first earliest last) ∨
    (closed = false ∧ StaysOpen braceBalance lines first earliest ∧ last + 1 = lines.length)

section Balances

variable {delta : Line → Int} {lines : List Line} {first earliest last index : Nat} {line : Line}

theorem balanceOf_append (delta : Line → Int) (a b : List Line) :
    balanceOf delta (a ++ b) = balanceOf delta a + balanceOf delta b := by
  induction a with
  | nil => exact (Int.zero_add _).symm
  | cons line rest ih => rw [List.cons_append, balanceOf, balanceOf, ih, Int.add_assoc]

theorem balanceOver_self (delta : Line → Int) (lines : List Line) (first : Nat) :
    balanceOver delta lines first first = 0 := by
  rw [balanceOver, Nat.sub_self, List.take_zero, balanceOf]

theorem balanceOver_add (delta : Line → Int) (lines : List Line) {middle past : Nat}
    (hfirst : first ≤ middle) (hpast : middle ≤ past) :
    balanceOver delta lines first middle + balanceOver delta lines middle past =
      balanceOver delta lines first past := by
  have hcount : past - first = (middle - first) + (past - middle) := by omega
  have hdrop : first + (middle - first) = middle := by omega
  rw [balanceOver, balanceOver, balanceOver, hcount, List.take_add, List.drop_drop, hdrop,
    balanceOf_append]

theorem balanceOver_succ (delta : Line → Int) (hfirst : first ≤ index)
    (hline : lines[index]? = some line) :
    balanceOver delta lines first (index + 1) = balanceOver delta lines first index +
      delta line := by
  have hone : balanceOver delta lines index (index + 1) = delta line := by
    simp [balanceOver, balanceOf, drop_eq_cons hline]
  rw [← balanceOver_add delta lines hfirst (Nat.le_succ index), hone]

theorem ClosesOn.of_succ (h : ClosesOn delta lines first (index + 1) last)
    (hopen : 0 < balanceOver delta lines first (index + 1)) :
    ClosesOn delta lines first index last := by
  obtain ⟨⟨hle, hlt, hclosed⟩, hbefore⟩ := h
  refine ⟨⟨by omega, hlt, hclosed⟩, fun line hline hearliest => ?_⟩
  by_cases heq : line = index
  · rw [heq]
    exact hopen
  · exact hbefore line hline (by omega)

theorem StaysOpen.of_succ (h : StaysOpen delta lines first (index + 1))
    (hopen : 0 < balanceOver delta lines first (index + 1)) :
    StaysOpen delta lines first index := by
  intro line hline hearliest
  by_cases heq : line = index
  · rw [heq]
    exact hopen
  · exact h line hline (by omega)

/-- Counting on from line `index` finds the first line on which nothing is open any more. -/
theorem linesToClose_cases (delta : Line → Int) (lines : List Line) (hfirst : first ≤ index) :
    (∃ count, linesToClose delta (balanceOver delta lines first index) (lines.drop index) =
      some (count + 1) ∧
      ClosesOn delta lines first index (index + count)) ∨
    (linesToClose delta (balanceOver delta lines first index) (lines.drop index) = none ∧
      StaysOpen delta lines first index) := by
  generalize hrest : lines.drop index = rest
  induction rest generalizing index with
  | nil =>
      refine .inr ⟨rfl, fun line hline hearliest => ?_⟩
      have hpast := not_lt_of_drop_eq_nil hrest
      omega
  | cons line rest ih =>
      obtain ⟨hlt, hline, hnext⟩ := of_drop_eq_cons hrest
      have hsum := balanceOver_succ delta hfirst hline
      rw [linesToClose, ← hsum]
      by_cases hclosed : balanceOver delta lines first (index + 1) ≤ 0
      · refine .inl ⟨0, if_pos hclosed, ⟨Nat.le_refl _, hlt, hclosed⟩,
          fun line hline hearliest => ?_⟩
        omega
      · rw [if_neg hclosed]
        rcases ih (Nat.le_succ_of_le hfirst) hnext with ⟨count, hcount, hcloses⟩ | ⟨hnone, hstays⟩
        · refine .inl ⟨count + 1, by rw [hcount]; rfl, ?_⟩
          have hlast : index + (count + 1) = index + 1 + count := by omega
          rw [hlast]
          exact hcloses.of_succ (by omega)
        · exact .inr ⟨by rw [hnone]; rfl, hstays.of_succ (by omega)⟩

/-- A block that opens on line `index` is read up to the line on which its braces close. -/
theorem endsOn_blockExtent (hline : lines[index]? = some line) :
    EndsOn lines index index (index + (blockExtent line (lines.drop (index + 1))).further)
      (blockExtent line (lines.drop (index + 1))).closed := by
  have hlt := (List.getElem?_eq_some_iff.mp hline).1
  have hone : balanceOver braceBalance lines index (index + 1) = braceBalance line := by
    rw [balanceOver_succ _ (Nat.le_refl index) hline, balanceOver_self, Int.zero_add]
  by_cases hclosed : braceBalance line ≤ 0
  · have hextent : blockExtent line (lines.drop (index + 1)) = ⟨0, true⟩ := if_pos hclosed
    rw [hextent]
    refine .inl ⟨rfl, ⟨Nat.le_refl _, hlt, hone ▸ hclosed⟩, fun line hbefore hearliest => ?_⟩
    exact absurd hbefore (Nat.not_lt.mpr hearliest)
  · have hopen : 0 < balanceOver braceBalance lines index (index + 1) := by omega
    have hcases := linesToClose_cases braceBalance lines (Nat.le_succ index)
    rw [hone] at hcases
    rw [blockExtent, if_neg hclosed]
    rcases hcases with ⟨count, hcount, hcloses⟩ | ⟨hnone, hstays⟩
    · rw [hcount]
      refine .inl ⟨rfl, ?_⟩
      show ClosesOn braceBalance lines index index (index + (count + 1))
      have hlast : index + (count + 1) = index + 1 + count := by omega
      rw [hlast]
      exact hcloses.of_succ hopen
    · rw [hnone]
      refine .inr ⟨rfl, hstays.of_succ hopen, ?_⟩
      show index + (lines.drop (index + 1)).length + 1 = lines.length
      rw [List.length_drop]
      omega

/-- A parameter list is read up to the line on which its parentheses close. -/
theorem signatureLength_eq {start signature : Nat}
    (h : ClosesOn parenBalance lines start start signature) (hindex : start < index)
    (hle : index ≤ signature + 1) :
    signatureLength (balanceOver parenBalance lines start index) (lines.drop index) =
      signature + 1 - index := by
  obtain ⟨⟨_, hlt, hclosed⟩, hbefore⟩ := h
  -- on the lines that are left of the signature
  induction hleft : signature + 1 - index generalizing index with
  | zero =>
      have hend : index = signature + 1 := by omega
      rw [← hend] at hclosed
      cases lines.drop index with
      | nil => rfl
      | cons line rest => rw [signatureLength, if_neg (by omega)]
  | succ left ih =>
      have hopen : 0 < balanceOver parenBalance lines start index := by
        have hlast := hbefore (index - 1) (by omega) (by omega)
        rwa [Nat.sub_add_cancel (by omega)] at hlast
      have hline : lines[index]? = some lines[index] := List.getElem?_eq_getElem (by omega)
      rw [drop_eq_cons hline, signatureLength, if_pos hopen,
        ← balanceOver_succ parenBalance (Nat.le_of_lt hindex) hline,
        ih (by omega) (by omega) (by omega)]

end Balances

/-! ## Functions -/

/-- The lines after the first that belong to a signature. -/
def Position.signatureLines (position : Position) : Nat :=
  signatureLength (parenBalance position.line) position.after

/-- The extent of a body, counted from the last line of the signature. -/
def Position.body (position : Position) : Extent :=
  blockExtent ((position.after.take position.signatureLines).getLastD position.line)
    (position.after.drop position.signatureLines)

section Functions

variable {lines : List Line} {start signature last : Nat} {closed : Bool} {line : Line}
  {position : Position} {found : Found} {receiver : Option String} {f : FunctionOutline}

theorem not_mem_faults (closed : Bool) (line : Nat) :
    .function receiver f ∉ (if closed then [] else [unclosed line]) := by
  cases closed <;> simp [unclosed, faultAt]

/-- Only the header of a function leads to one, and then there is nothing else but
the fault of its body. -/
theorem found_of_function (h : declarationAt position = some found)
    (hf : .function receiver f ∈ found.findings) :
    found = ⟨(if position.body.closed then []
      else [unclosed (position.lineNumber + position.signatureLines)]) ++
      [.function receiver f], position.signatureLines + position.body.further⟩ := by
  rcases declarationAt_cases h with ⟨_, rfl⟩ | ⟨_, other, name, tail, rfl⟩ | ⟨_, name, kind, rfl⟩
  · have houtline : f ∈ outlines (importAt position).findings := List.mem_filterMap.mpr ⟨_, hf, rfl⟩
    rw [outlines_importAt] at houtline
    contradiction
  · obtain ⟨g, hparts⟩ : ∃ g, functionAt position other name tail =
        ⟨(if position.body.closed then []
          else [unclosed (position.lineNumber + position.signatureLines)]) ++
          [.function other g], position.signatureLines + position.body.further⟩ := ⟨_, rfl⟩
    rw [hparts] at hf ⊢
    have hone := (List.mem_append.mp hf).resolve_left (not_mem_faults _ _)
    rw [List.mem_singleton.mp hone]
  · have hone := (List.mem_append.mp hf).resolve_left (not_mem_faults _ _)
    simp at hone

theorem endsOn_body (hline : lines[start]? = some line) :
    EndsOn lines (start + (positionAt lines start line).signatureLines)
      (start + (positionAt lines start line).signatureLines)
      (start + (positionAt lines start line).signatureLines +
        (positionAt lines start line).body.further)
      (positionAt lines start line).body.closed := by
  have hle : (positionAt lines start line).signatureLines ≤ (lines.drop (start + 1)).length :=
    signatureLength_le _ _
  have hends := endsOn_blockExtent (getElem?_signature hline hle)
  have hafter : lines.drop (start + (positionAt lines start line).signatureLines + 1) =
      (lines.drop (start + 1)).drop (positionAt lines start line).signatureLines := by
    rw [List.drop_drop]
    congr 1
    omega
  rw [hafter] at hends
  exact hends

theorem signatureLines_eq (hline : lines[start]? = some line)
    (hcloses : ClosesOn parenBalance lines start start signature) :
    start + (positionAt lines start line).signatureLines = signature := by
  have hle : start ≤ signature := hcloses.1.1
  have hlength := signatureLength_eq hcloses (Nat.lt_succ_self start) (by omega)
  rw [balanceOver_succ _ (Nat.le_refl start) hline, balanceOver_self, Int.zero_add] at hlength
  show start + signatureLength (parenBalance line) (lines.drop (start + 1)) = signature
  rw [hlength]
  omega

/-- Whether the braces of the lines before the last one of a signature matter is seen on the
lines from there on. -/
theorem endsOn_iff (h : EndsOn lines signature signature last closed) :
    EndsOn lines start signature last closed ↔ ∀ line, signature ≤ line → line ≤ last →
      (balanceOver braceBalance lines start (line + 1) ≤ 0 ↔
        balanceOver braceBalance lines signature (line + 1) ≤ 0) := by
  rcases h with ⟨rfl, ⟨hle, hlt, hclosed⟩, hbefore⟩ | ⟨rfl, hstays, hend⟩
  · constructor
    · rintro (⟨_, ⟨_, _, hclosed'⟩, hbefore'⟩ | ⟨hcontra, _⟩)
      · intro line hsignature hline
        by_cases heq : line = last
        · rw [heq]
          exact iff_of_true hclosed' hclosed
        · have hopen := hbefore line (by omega) hsignature
          have hopen' := hbefore' line (by omega) hsignature
          omega
      · contradiction
    · intro hsame
      refine .inl ⟨rfl, ⟨hle, hlt, (hsame last hle (Nat.le_refl last)).mpr hclosed⟩,
        fun line hline hsignature => ?_⟩
      have hopen := hbefore line hline hsignature
      have hiff := hsame line hsignature (Nat.le_of_lt hline)
      omega
  · constructor
    · rintro (⟨hcontra, _⟩ | ⟨_, hstays', _⟩)
      · contradiction
      · intro line hsignature hline
        have hopen := hstays line (by omega) hsignature
        have hopen' := hstays' line (by omega) hsignature
        omega
    · intro hsame
      refine .inr ⟨rfl, fun line hline hsignature => ?_, hend⟩
      have hopen := hstays line hline hsignature
      have hiff := hsame line hsignature (by omega)
      omega

theorem endsOn_of_balanced (hle : start ≤ signature)
    (h : EndsOn lines signature signature last closed)
    (hbalanced : balanceOver braceBalance lines start signature = 0) :
    EndsOn lines start signature last closed := by
  refine (endsOn_iff h).mpr fun line hsignature _ => ?_
  have hsum := balanceOver_add braceBalance lines hle (show signature ≤ line + 1 by omega)
  omega

/-- A function that was read from line `start` to line `last`, with the last line of its signature
in between: what was found, what it is charged for, and where reading went on. -/
structure ReadOver (lines : List Line) (receiver : Option String) (f : FunctionOutline)
    (start signature last : Nat) (closed : Bool) : Prop where
  found : ∀ line, lines[start]? = some line → declarationAt (positionAt lines start line) =
    some ⟨(if closed then [] else [unclosed (signature + 1)]) ++ [.function receiver f],
      last - start⟩
  endLine : f.endLine = last + 1
  complexity : f.complexity = 1 + branchesOf ((lines.drop start).take (last + 1 - start))
  resumes : ResumesAt lines start (last + 1)

theorem exists_readOver (hstop : start ∈ stops lines) (hline : lines[start]? = some line)
    (hfound : declarationAt (positionAt lines start line) = some found)
    (hf : .function receiver f ∈ found.findings)
    (hcloses : ClosesOn parenBalance lines start start signature) :
    ∃ last closed, ReadOver lines receiver f start signature last closed ∧
      EndsOn lines signature signature last closed := by
  have hsignature := signatureLines_eq hline hcloses
  have hends := endsOn_body hline
  have hparts := found_of_function hfound hf
  have hresumes := resumesAt_next hstop hline
  have hcharged := chargedAt_declarationAt hfound
  have houtline : f ∈ outlines found.findings := List.mem_filterMap.mpr ⟨_, hf, rfl⟩
  rw [Position.next, further_of_some hfound] at hresumes
  rw [hsignature] at hends
  generalize (positionAt lines start line).body = body at hends hparts
  generalize (positionAt lines start line).signatureLines = count at hsignature hparts
  have hfurther : found.further = count + body.further := by rw [hparts]
  have hlast : count + body.further = signature + body.further - start := by omega
  have hnumber : (positionAt lines start line).lineNumber + count = signature + 1 := by
    show start + 1 + count = signature + 1
    omega
  have hnext : start + 1 + found.further = signature + body.further + 1 := by omega
  refine ⟨signature + body.further, body.closed, ⟨?_, ?_, ?_, ?_⟩, hends⟩
  · intro other hother
    rw [hline, Option.some.injEq] at hother
    rw [← hother, hfound, hparts, hnumber, hlast]
  · rw [hcharged.endLine f houtline]
    exact hnext
  · have hcount : signature + body.further + 1 - start = found.further + 1 := by omega
    rw [hcharged.complexity f houtline, hcount, drop_eq_cons hline]
    rfl
  · rw [← hnext]
    exact hresumes

end Functions

/-- Every function whose parameter list ends is read up to the line on which the braces close
that were opened since the last line of its signature, and reading goes on behind it.  These are
all its braces exactly if it makes no difference up to that line whether the signature is
counted from its first line or from its last, as where the lines before the last one have as
many opening as closing braces. -/
theorem function_ends_iff (path : Path) (text : List Char) :
    ∃ report, language.outline path (Utf8.encode text) = .outlined report ∧
    ∀ receiver f, .function receiver f ∈ findings (Language.withoutMark text) →
      ∃ start ∈ stops (fileLines text), f.startLine = start + 1 ∧
      ∀ signature, ClosesOn parenBalance (fileLines text) start start signature →
        ∃ last closed, ReadOver (fileLines text) receiver f start signature last closed ∧
          (closed = false →
            ⟨signature + 1, 1, "unexpected end of file: unclosed brace"⟩ ∈ report.faults) ∧
          EndsOn (fileLines text) signature signature last closed ∧
          (EndsOn (fileLines text) start signature last closed ↔ ∀ line, signature ≤ line →
            line ≤ last →
            (balanceOver braceBalance (fileLines text) start (line + 1) ≤ 0 ↔
              balanceOver braceBalance (fileLines text) signature (line + 1) ≤ 0)) ∧
          (balanceOver braceBalance (fileLines text) start signature = 0 →
            EndsOn (fileLines text) start signature last closed) := by
  refine ⟨_, outline_encode path text, ?_⟩
  intro receiver f hf
  obtain ⟨start, hstop, line, found, hline, hfound, hf⟩ := exists_stop_of_function hf
  have houtline : f ∈ outlines found.findings := List.mem_filterMap.mpr ⟨_, hf, rfl⟩
  refine ⟨start, hstop, (chargedAt_declarationAt hfound).startLine f houtline, ?_⟩
  intro signature hcloses
  obtain ⟨last, closed, hread, hends⟩ := exists_readOver hstop hline hfound hf hcloses
  refine ⟨last, closed, hread, ?_, hends, endsOn_iff hends, endsOn_of_balanced hcloses.1.1 hends⟩
  intro hopen
  have hparts := hread.found line hline
  rw [hopen] at hparts
  have hfault : unclosed (signature + 1) ∈ findings (Language.withoutMark text) :=
    mem_scan_of_found hstop hline hparts List.mem_cons_self
  exact List.mem_filterMap.mpr ⟨_, hfault, rfl⟩

/-- A signature over several lines, with no brace before its last one. -/
def longSignature : List Char := "func f(\n\ta int,\n) \x7b\n\tif a > 0 \x7b\n\t\x7d\n\x7d\n".toList

theorem function_ends_iff_longSignature :
    ∃ f, .function none f ∈ findings longSignature ∧ f.startLine = 1 ∧ f.endLine = 6 ∧
    f.complexity = 2 ∧
      ClosesOn parenBalance (fileLines longSignature) 0 0 2 ∧
      balanceOver braceBalance (fileLines longSignature) 0 2 = 0 ∧
      EndsOn (fileLines longSignature) 0 2 5 true ∧ ResumesAt (fileLines longSignature) 0 6 := by
  have hmark : Language.withoutMark longSignature = longSignature := by decide +kernel
  obtain ⟨hf, hcloses, hbalanced, hlength, hclosed⟩ :
      .function none { FunctionOutline.ofLines "f" 1 6 with parameters := ["a"], complexity := 2 } ∈
          findings (Language.withoutMark longSignature) ∧
        ClosesOn parenBalance (fileLines longSignature) 0 0 2 ∧
        balanceOver braceBalance (fileLines longSignature) 0 2 = 0 ∧
          5 < (fileLines longSignature).length ∧
        balanceOver braceBalance (fileLines longSignature) 2 (5 + 1) ≤ 0 := by decide +kernel
  obtain ⟨report, _, hall⟩ := function_ends_iff ⟨"f.go"⟩ longSignature
  obtain ⟨start, _, hstart, hsignature⟩ := hall none _ hf
  obtain rfl : 0 = start := Nat.succ.inj hstart
  obtain ⟨last, closed, hread, _, hends, _, hwhole⟩ := hsignature 2 hcloses
  obtain rfl : 5 = last := Nat.succ.inj hread.endLine
  rw [hmark] at hf
  rcases hends with ⟨rfl, _⟩ | ⟨_, hstays, _⟩
  · exact ⟨_, hf, rfl, rfl, rfl, hcloses, hbalanced, hwhole hbalanced, hread.resumes⟩
  · have hopen := hstays 5 hlength (by decide)
    omega

/-- A parameter of struct type, whose closing brace stands on the last line of the signature. -/
def structParameter : List Char :=
  "func f(a struct \x7b\n\tx int\n\x7d) \x7b\n\tif a.x > 0 \x7b\n\t\x7d\n\x7d\n".toList

/-- All braces of the function close on its sixth line.  It is taken to end with its signature, its
branch is lost and the brace that ends it is a fault. -/
theorem struct_parameter_ends_function :
    ClosesOn parenBalance (stripLines structParameter) 0 0 2 ∧
    ClosesOn braceBalance (stripLines structParameter) 0 2 5 ∧
    findings structParameter =
      [.function none { FunctionOutline.ofLines "f" 1 3 with parameters := ["a"] },
      .fault ⟨6, 1, "unexpected closing brace"⟩] := by
  decide +kernel

end GoOutline
end CodeSurvey
