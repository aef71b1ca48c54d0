import CodeSurvey.Proofs.Outline.GoReceivers
import CodeSurvey.Proofs.Outline.GoStops

/-
What the imports of a Go file take with them.  A line whose code begins with `import` takes lines
after its own if it has a parenthesis and no path, and then up to the next line that begins with a
closing parenthesis (`importTakes_next`).  Neither a longer word that begins with `import` nor a
group that ends on its own line is told apart from the beginning of a group.  From the line behind
an import, the rest of the file is read as a file of its own (`stops_split`), so what is declared
there is in the report.
-/

namespace CodeSurvey
namespace GoOutline

open Text Checked

/-! ## Groups -/

/-- No path stands on the line itself, but a parenthesis does. -/
def Line.ReadsGroup (line : Line) : Prop :=
  importHeader.run (trim line.raw) = none ∧ '(' ∈ line.code

/-- The word `import` with a group that the line leaves open. -/
def Line.StartsGroup (line : Line) : Prop :=
  ("import".toList <+: trim line.code ∧ ((trim line.code).drop 6).head?.any isWordChar = false) ∧
    line.code.count ')' < line.code.count '('

def ClosesGroup (lines : List Line) (index : Nat) : Prop :=
  (lines[index]?.bind fun line => (trimStart line.code).head?) = some ')'

/-- Line `last` is the first one from line `first` on that begins with a closing parenthesis. -/
def GroupEndsOn (lines : List Line) (first last : Nat) : Prop :=
  (first ≤ last ∧ ClosesGroup lines last) ∧ ∀ line < last, first ≤ line → ¬ ClosesGroup lines line

instance : DecidablePred Line.ReadsGroup := fun _ => inferInstanceAs (Decidable (_ = _ ∧ _))

instance : DecidablePred Line.StartsGroup :=
  fun _ => inferInstanceAs (Decidable ((_ <+: _ ∧ _ = _) ∧ _ < _))

instance (lines : List Line) (index : Nat) : Decidable (ClosesGroup lines index) :=
  inferInstanceAs (Decidable (_ = _))

instance (lines : List Line) (first last : Nat) : Decidable (GroupEndsOn lines first last) :=
  inferInstanceAs (Decidable ((_ ∧ _) ∧ _))

section Groups

variable {lines : List Line} {start index last : Nat} {line : Line} {position : Position}

theorem closesGroup_iff (hline : lines[index]? = some line) :
    ClosesGroup lines index ↔ (trimStart line.code).head? = some ')' := by
  rw [ClosesGroup, hline, Option.bind_some]

theorem GroupEndsOn.of_succ (h : GroupEndsOn lines (index + 1) last)
    (hopen : ¬ ClosesGroup lines index) : GroupEndsOn lines index last := by
  obtain ⟨⟨hle, hcloses⟩, hbefore⟩ := h
  refine ⟨⟨by omega, hcloses⟩, fun line hline hfirst => ?_⟩
  by_cases heq : line = index
  · rw [heq]
    exact hopen
  · exact hbefore line hline (by omega)

theorem GroupEndsOn.unique {first other : Nat} (h : GroupEndsOn lines first last)
    (hother : GroupEndsOn lines first other) : last = other := by
  by_contra hne
  rcases Nat.lt_or_gt_of_ne hne with hlt | hlt
  · exact hother.2 last hlt h.1.1 h.1.2
  · exact h.2 other hlt hother.1.1 hother.1.2

/-- Reading a group goes up to the first line that closes it. -/
theorem importGroup_cases (lines : List Line) (index : Nat) :
    (∃ count, (importGroup (lines.drop index)).2 = some (count + 1) ∧
      GroupEndsOn lines index (index + count)) ∨
    ((importGroup (lines.drop index)).2 = none ∧ ∀ line, index ≤ line →
      ¬ ClosesGroup lines line) := by
  generalize hrest : lines.drop index = rest
  induction rest generalizing index with
  | nil =>
      refine .inr ⟨rfl, fun line hindex => ?_⟩
      have hpast := not_lt_of_drop_eq_nil hrest
      have hnone : lines[line]? = none := List.getElem?_eq_none (by omega)
      rw [ClosesGroup, hnone]
      simp
  | cons line rest ih =>
      obtain ⟨hlt, hline, hnext⟩ := of_drop_eq_cons hrest
      have hiff := closesGroup_iff hline
      rw [importGroup]
      by_cases hcloses : (trimStart line.code).head? = some ')'
      · rw [if_pos (beq_iff_eq.mpr hcloses)]
        refine .inl ⟨0, rfl, ⟨Nat.le_refl _, hiff.mpr hcloses⟩, fun line hline hfirst => ?_⟩
        omega
      · rw [if_neg (mt eq_of_beq hcloses)]
        have hopen := mt hiff.mp hcloses
        rcases ih (index + 1) hnext with ⟨count, hcount, hends⟩ | ⟨hnone, hstays⟩
        · refine .inl ⟨count + 1, ?_, ?_⟩
          · show (importGroup rest).2.map (· + 1) = _
            rw [hcount]
            rfl
          · have hlast : index + (count + 1) = index + 1 + count := by omega
            rw [hlast]
            exact hends.of_succ hopen
        · refine .inr ⟨?_, fun line hindex => ?_⟩
          · show (importGroup rest).2.map (· + 1) = _
            rw [hnone]
            rfl
          · by_cases heq : line = index
            · rw [heq]
              exact hopen
            · exact hstays line (by omega)

theorem exists_importGroup_iff (lines : List Line) (index : Nat) :
    (∃ count, (importGroup (lines.drop index)).2 = some count) ↔
      ∃ last, GroupEndsOn lines index last := by
  rcases importGroup_cases lines index with ⟨count, hcount, hends⟩ | ⟨hnone, hstays⟩
  · exact iff_of_true ⟨_, hcount⟩ ⟨_, hends⟩
  · refine iff_of_false ?_ ?_
    · rw [hnone]
      simp
    · rintro ⟨last, hends⟩
      exact hstays last hends.1.1 hends.1.2

/-! ## The lines that an import takes -/

/-- Behind an import that stands on line `start`, the next line is the one after it, or the one
after its group; there is none if the group does not end. -/
structure ImportTakes (lines : List Line) (start : Nat) (line : Line) (next : Nat) : Prop where
  nothing : ¬ line.ReadsGroup → next = start + 1
  group : line.ReadsGroup → ∀ last, GroupEndsOn lines (start + 1) last → next = last + 1
  rest : line.ReadsGroup → (∀ last, start < last → ¬ ClosesGroup lines last) → next = lines.length

theorem declarationAt_of_import (h : position.line.BeginsImport) :
    declarationAt position = some (importAt position) := by
  have hstarts := List.isPrefixOf_iff_prefix.mpr h
  exact if_pos hstarts

theorem further_importAt_of_not_reads (position : Position) (h : ¬ position.line.ReadsGroup) :
    (importAt position).further = 0 := by
  unfold importAt
  split
  · rfl
  · next hheader =>
      have hnone : '(' ∉ position.line.code := fun hmem => h ⟨hheader, hmem⟩
      rw [if_pos (by simpa using hnone)]

theorem further_importAt_of_reads (position : Position) (h : position.line.ReadsGroup) :
    (importAt position).further = (importGroup position.after).2.getD position.after.length := by
  unfold importAt
  rw [h.1]
  dsimp only
  rw [if_neg (by simpa using h.2)]
  split
  · next hgroup => rw [hgroup]; rfl
  · next hgroup => rw [hgroup]; rfl

theorem importTakes_next (hline : lines[start]? = some line) (hbegins : line.BeginsImport) :
    ImportTakes lines start line (positionAt lines start line).next := by
  have hlt := (List.getElem?_eq_some_iff.mp hline).1
  have hfound : declarationAt (positionAt lines start line) =
      some (importAt (positionAt lines start line)) :=
    declarationAt_of_import hbegins
  rw [Position.next, further_of_some hfound]
  refine ⟨?_, ?_, ?_⟩
  · intro hpath
    rw [further_importAt_of_not_reads (positionAt lines start line) hpath]
    rfl
  · intro hreads last hends
    rw [further_importAt_of_reads (positionAt lines start line) hreads]
    show start + 1 + (importGroup (lines.drop (start + 1))).2.getD _ = last + 1
    rcases importGroup_cases lines (start + 1) with ⟨count, hcount, hthere⟩ | ⟨_, hstays⟩
    · rw [hcount, hends.unique hthere, Option.getD_some]
      omega
    · exact absurd hends.1.2 (hstays last hends.1.1)
  · intro hreads hstays
    rw [further_importAt_of_reads (positionAt lines start line) hreads]
    show start + 1 + (importGroup (lines.drop (start + 1))).2.getD (lines.drop (start + 1)).length =
      lines.length
    rcases importGroup_cases lines (start + 1) with ⟨count, _, hthere⟩ | ⟨hnone, _⟩
    · exact absurd hthere.1.2 (hstays _ hthere.1.1)
    · rw [hnone, Option.getD_none, List.length_drop]
      omega

theorem ImportTakes.lt_iff {next : Nat} (h : ImportTakes lines start line next)
    (hle : next ≤ lines.length) :
    start + 1 < next ↔ line.ReadsGroup ∧ start + 1 < lines.length := by
  constructor
  · intro hlt
    refine ⟨?_, by omega⟩
    by_contra hpath
    have hnext := h.nothing hpath
    omega
  · rintro ⟨hreads, hlength⟩
    rcases importGroup_cases lines (start + 1) with ⟨count, _, hends⟩ | ⟨_, hstays⟩
    · have hnext := h.group hreads _ hends
      omega
    · have hnext := h.rest hreads hstays
      omega

end Groups

/-! ## Headers -/

theorem not_both_start {a b text : List Char} (ha : a <+: text) (hapart : ¬ a <+: b ∧ ¬ b <+: a) :
    ¬ b <+: text := by
  intro hb
  rcases List.prefix_or_prefix_of_prefix ha hb with h | h
  · exact hapart.1 h
  · exact hapart.2 h

section Headers

variable {position : Position} {receiver : Option (List Char)} {name tail : List Char}
  {kind : TypeKind}

theorem declarationAt_of_function
    (h : functionHeader.run (trim position.line.code) = some ((receiver, name), tail)) :
    declarationAt position = some (functionAt position (receiver.map String.ofList) name tail) := by
  have hfunc : "func".toList <+: trim position.line.code := Matcher.startsWith_of_run_literal h
  have himport : ¬ "import".toList <+: trim position.line.code := not_both_start hfunc (by decide)
  unfold declarationAt
  dsimp only
  rw [if_neg (mt List.isPrefixOf_iff_prefix.mp himport), h]

theorem declarationAt_of_type
    (h : typeHeader.run (trim position.line.code) = some ((name, kind), tail)) :
    declarationAt position = some (typeAt position name kind) := by
  have htype : "type".toList <+: trim position.line.code := Matcher.startsWith_of_run_literal h
  have hnone : functionHeader.run (trim position.line.code) = none := by
    by_contra hsome
    obtain ⟨found, hfound⟩ := Option.ne_none_iff_exists'.mp hsome
    exact not_both_start htype (by decide) (Matcher.startsWith_of_run_literal hfound)
  have himport : ¬ "import".toList <+: trim position.line.code := not_both_start htype (by decide)
  unfold declarationAt
  dsimp only
  rw [if_neg (mt List.isPrefixOf_iff_prefix.mp himport), hnone]
  dsimp only
  rw [h]

end Headers

/-! ## The report -/

section Report

variable {source : List Char} {report : FileReport} {index : Nat} {line : Line}
  {name tail : List Char}

theorem exists_function_of_header {receiver : Option (List Char)}
    (hstop : index ∈ stops (stripLines source)) (hline : (stripLines source)[index]? = some line)
    (hheader : functionHeader.run (trim line.code) = some ((receiver, name), tail)) :
    ∃ f, .function (receiver.map String.ofList) f ∈ findings source ∧ f.name = String.ofList name ∧
      f.startLine = index + 1 := by
  have hfound : declarationAt (positionAt (stripLines source) index line) =
      some (functionAt (positionAt (stripLines source) index line)
        (receiver.map String.ofList) name tail) :=
    declarationAt_of_function hheader
  obtain ⟨f, hf, hname, hstart⟩ : ∃ f, .function (receiver.map String.ofList) f ∈
        (functionAt (positionAt (stripLines source) index line)
          (receiver.map String.ofList) name tail).findings ∧
      f.name = String.ofList name ∧ f.startLine = index + 1 :=
    ⟨_, List.mem_append_right _ List.mem_cons_self, rfl, rfl⟩
  exact ⟨f, mem_scan_of_found hstop hline hfound hf, hname, hstart⟩

theorem exists_type_of_header {kind : TypeKind} (hstop : index ∈ stops (stripLines source))
    (hline : (stripLines source)[index]? = some line)
    (hheader : typeHeader.run (trim line.code) = some ((name, kind), tail)) :
    ∃ t, .type t ∈ findings source ∧ t.name = String.ofList name ∧ t.startLine = index + 1 := by
  have hfound : declarationAt (positionAt (stripLines source) index line) =
      some (typeAt (positionAt (stripLines source) index line) name kind) :=
        declarationAt_of_type hheader
  obtain ⟨t, ht, hname, hstart⟩ : ∃ t,
      .type t ∈ (typeAt (positionAt (stripLines source) index line) name kind).findings ∧
      t.name = String.ofList name ∧ t.startLine = index + 1 := by
    refine ⟨_, List.mem_append_right _ List.mem_cons_self, ?_, ?_⟩
    · cases kind <;> rfl
    · cases kind <;> rfl
  exact ⟨t, mem_scan_of_found hstop hline hfound ht, hname, hstart⟩

theorem mem_types_of_found {t : TypeOutline} (hreport : Distributed (findings source) report)
    (ht : .type t ∈ findings source) :
    { t with methods := t.methods ++ receivedBy (methods (findings source)) t.name } ∈
      report.types := by
  obtain ⟨made, htypes, _⟩ := hreport.types
  rw [htypes]
  exact List.mem_append_left _ (List.mem_map_of_mem (List.mem_filterMap.mpr ⟨_, ht, rfl⟩))

/-- What the header on line `index` declares is in the report. -/
structure Reported (report : FileReport) (index : Nat) (line : Line) : Prop where
  function : ∀ name tail, functionHeader.run (trim line.code) = some ((none, name), tail) →
    ∃ f ∈ report.functions, f.name = String.ofList name ∧ f.startLine = index + 1
  method : ∀ receiver name tail, functionHeader.run (trim line.code) =
    some ((some receiver, name), tail) →
    ∃ t ∈ report.types, t.name = String.ofList receiver ∧
      ∃ f ∈ t.methods, f.name = String.ofList name ∧ f.startLine = index + 1
  type : ∀ name kind tail, typeHeader.run (trim line.code) = some ((name, kind), tail) →
    ∃ t ∈ report.types, t.name = String.ofList name ∧ t.startLine = index + 1

theorem reported_of_mem_stops (hreport : Distributed (findings source) report)
    (hstop : index ∈ stops (stripLines source)) (hline : (stripLines source)[index]? = some line) :
    Reported report index line := by
  refine ⟨?_, ?_, ?_⟩
  · intro name tail hheader
    obtain ⟨f, hf, hname, hstart⟩ := exists_function_of_header hstop hline hheader
    refine ⟨f, ?_, hname, hstart⟩
    rw [hreport.functions]
    exact List.mem_filterMap.mpr ⟨_, hf, rfl⟩
  · intro receiver name tail hheader
    obtain ⟨f, hf, hname, hstart⟩ := exists_function_of_header hstop hline hheader
    have hmethod : (String.ofList receiver, f) ∈ methods (findings source) :=
      List.mem_filterMap.mpr ⟨_, hf, rfl⟩
    obtain ⟨t, ht, hreceiver, hthere⟩ := hreport.received _ hmethod
    exact ⟨t, ht, hreceiver, f, hthere, hname, hstart⟩
  · intro name kind tail hheader
    obtain ⟨t, ht, hname, hstart⟩ := exists_type_of_header hstop hline hheader
    exact ⟨_, mem_types_of_found hreport ht, hname, hstart⟩

end Report

/-- Behind an import, reading goes on with the line after it or, if it reads a group, after that.
It takes lines only where it should exactly if no group is read, on a line with one after it, that
the line does not leave open behind the whole word `import`.  All that is declared in the rest of
the file is in the report. -/
theorem import_takes_lines_iff (path : Path) (text : List Char) :
    ∃ report, language.outline path (Utf8.encode text) = .outlined report ∧
    ∀ start ∈ stops (fileLines text), ∀ line, (fileLines text)[start]? = some line →
    line.BeginsImport →
      ∃ next, ResumesAt (fileLines text) start next ∧ ImportTakes (fileLines text) start line next ∧
        ((start + 1 < next → line.StartsGroup) ↔
          (line.ReadsGroup → start + 1 < (fileLines text).length → line.StartsGroup)) ∧
        ∀ stop ∈ stops ((fileLines text).drop next), ∀ declared, (fileLines text)[stop + next]? =
          some declared →
          Reported report (stop + next) declared := by
  refine ⟨_, outline_encode path text, ?_⟩
  intro start hstart line hline hbegins
  have htakes := importTakes_next hline hbegins
  have hlt := htakes.lt_iff (next_positionAt_le hline)
  refine ⟨_, resumesAt_next hstart hline, htakes, ?_, ?_⟩
  · rw [hlt, and_imp]
  · intro stop hstop declared hdeclared
    exact reported_of_mem_stops (distributed_assemble _ path _)
      (add_next_mem_stops hstart hline hstop) hdeclared

def groupedImport : List Char := "import (\n\t\"fmt\"\n)\n\nfunc f() \x7b\n\x7d\n".toList

theorem import_takes_lines_iff_groupedImport :
    ∃ report, language.outline ⟨"f.go"⟩ (Utf8.encode groupedImport) = .outlined report ∧
      ResumesAt (fileLines groupedImport) 0 3 ∧ ∃ f ∈ report.functions, f.name = "f" ∧
      f.startLine = 5 := by
  obtain ⟨hstart, hline, hbegins, hreads, hends, hstop, hdeclared, hheader⟩ :
      0 ∈ stops (fileLines groupedImport) ∧
      (fileLines groupedImport)[0]? = some ⟨"import (".toList, "import (".toList⟩ ∧
      Line.BeginsImport ⟨"import (".toList, "import (".toList⟩ ∧
      Line.ReadsGroup ⟨"import (".toList, "import (".toList⟩ ∧
      GroupEndsOn (fileLines groupedImport) 1 2 ∧
      1 ∈ stops ((fileLines groupedImport).drop 3) ∧
      (fileLines groupedImport)[1 + 3]? = some ⟨"func f() \x7b".toList, "func f() \x7b".toList⟩ ∧
      functionHeader.run (trim "func f() \x7b".toList) = some ((none, ['f']), ") \x7b".toList) := by
        decide +kernel
  obtain ⟨report, houtline, hall⟩ := import_takes_lines_iff ⟨"f.go"⟩ groupedImport
  obtain ⟨next, hresumes, htakes, _, hreported⟩ := hall 0 hstart _ hline hbegins
  obtain rfl : next = 3 := htakes.group hreads 2 hends
  exact ⟨report, houtline, hresumes, (hreported 1 hstop _ hdeclared).function _ _ hheader⟩

/-- A call of a function whose name begins like the word, and a group that ends on its own line. -/
def importedCall : List Char := "var x = T\x7b\n\timported(),\n\x7d\n\nfunc f() \x7b\n\x7d\n".toList

def shortGroup : List Char := "import (\"fmt\")\n\nfunc f() \x7b\n\x7d\n".toList

/-- Both are taken for the beginning of a group, and the function behind them is lost. -/
theorem import_takes_function :
    (∃ line, (stripLines importedCall)[1]? = some line ∧ line.BeginsImport ∧ ¬ line.StartsGroup) ∧
    stops (stripLines importedCall) = [0, 1] ∧
    findings importedCall = [.fault ⟨6, 1, "unterminated import block"⟩] ∧
    (∃ line, (stripLines shortGroup)[0]? = some line ∧ line.BeginsImport ∧ ¬ line.StartsGroup) ∧
    stops (stripLines shortGroup) = [0] ∧
    findings shortGroup = [.fault ⟨4, 1, "unterminated import block"⟩] := by
  refine ⟨⟨⟨"\timported(),".toList, "\timported(),".toList⟩, ?_⟩, ?_, ?_,
    ⟨⟨"import (\"fmt\")".toList, "import (\"\")".toList⟩, ?_⟩, ?_, ?_⟩
  all_goals decide +kernel

end GoOutline
end CodeSurvey
