import CodeSurvey.Proofs.Outline.GoCursor

/-
The lines of a Go file at which a declaration is looked for.  `scan` does two things at once: it
decides which lines belong together, and it counts the braces of the lines that belong to nothing.
Here the first is taken apart from the second.  `positions` are the places at which it looks for a
declaration, each with the lines that are read there; they cover the file without gap or overlap,
and what `scan` finds is found at them one after the other (`scan_eq_findingsAt`).  Behind the lines
that are read at one of them, the rest is read as a file of its own (`stops_split`).
-/

namespace CodeSurvey
namespace GoOutline

open Text Checked

/-- The lines after the first that are read together with it. -/
def Position.further (position : Position) : Nat :=
  ((declarationAt position).map Found.further).getD 0

def Position.taken (position : Position) : List Line :=
  position.line :: position.after.take position.further

def Position.next (position : Position) : Nat := position.index + 1 + position.further

/-- The positions at which a declaration is looked for, where `taken` lines belong
to one already found. -/
def positions (index taken : Nat) (before : Option Line) : List Line → List Position
  | [] => []
  | line :: after =>
    match taken with
    | taken + 1 => positions (index + 1) taken (some line) after
    | 0 => ⟨index, before, line, after⟩ ::
        positions (index + 1) (Position.further ⟨index, before, line, after⟩) (some line) after

/-- What is found at positions one after the other; between declarations at most
`depth` braces are open. -/
def findingsAt (depth : Int) : List Position → List Finding
  | [] => []
  | position :: rest =>
    match declarationAt position with
    | some found => found.findings ++ findingsAt depth rest
    | none =>
      if depth + braceBalance position.line < 0 then
        faultAt position.lineNumber "unexpected closing brace" :: findingsAt 0 rest
      else findingsAt (depth + braceBalance position.line) rest

theorem further_of_some {position : Position} {found : Found}
    (h : declarationAt position = some found) : position.further = found.further := by
  rw [Position.further, h]
  rfl

theorem further_of_none {position : Position} (h : declarationAt position = none) :
    position.further = 0 := by
  rw [Position.further, h]
  rfl

theorem further_le (position : Position) : position.further ≤ position.after.length := by
  cases h : declarationAt position with
  | none =>
      rw [further_of_none h]
      omega
  | some found =>
      rw [further_of_some h]
      exact (placedAt_declarationAt h).further

theorem scan_eq_findingsAt (index taken : Nat) (depth : Int) (before : Option Line)
    (lines : List Line) :
    scan index taken depth before lines =
      findingsAt depth (positions index taken before lines) := by
  induction lines generalizing index taken depth before with
  | nil => rfl
  | cons line after ih =>
      cases taken with
      | succ taken => exact ih (index + 1) taken depth (some line)
      | zero =>
          rw [scan, positions, findingsAt]
          cases h : declarationAt ⟨index, before, line, after⟩ with
          | some found => simp only [further_of_some h, ih]
          | none =>
              simp only [further_of_none h, ih]
              rfl

/-! ## Every line is read at one position -/

theorem flatMap_taken_positions (index taken : Nat) (before : Option Line) (lines : List Line) :
    (positions index taken before lines).flatMap Position.taken = lines.drop taken := by
  induction lines generalizing index taken before with
  | nil =>
      rw [List.drop_nil]
      rfl
  | cons line after ih =>
      cases taken with
      | succ taken => exact ih (index + 1) taken (some line)
      | zero =>
          rw [positions, List.flatMap_cons, ih, Position.taken, List.cons_append,
            List.take_append_drop]
          rfl

theorem le_index_of_mem {index taken : Nat} {before : Option Line} {lines : List Line}
    {position : Position} (h : position ∈ positions index taken before lines) :
    index + taken ≤ position.index := by
  induction lines generalizing index taken before with
  | nil => contradiction
  | cons line after ih =>
      cases taken with
      | succ taken =>
          have hle : index + 1 + taken ≤ position.index := ih h
          omega
      | zero =>
          rcases List.mem_cons.mp h with rfl | hrest
          · exact Nat.le_refl index
          · have hle := ih hrest
            omega

/-- Behind a position come those of the lines that it does not take. -/
theorem positions_split {index taken : Nat} {before : Option Line} {lines : List Line}
    {position : Position} (h : position ∈ positions index taken before lines) :
    ∃ front, positions index taken before lines =
        front ++ position :: positions (position.index + 1) position.further
          (some position.line) position.after ∧
      ∀ earlier ∈ front, earlier.index < position.index := by
  induction lines generalizing index taken before with
  | nil => contradiction
  | cons line after ih =>
      cases taken with
      | succ taken =>
          rw [positions] at h ⊢
          exact ih h
      | zero =>
          rcases List.mem_cons.mp h with rfl | hrest
          · exact ⟨[], rfl, by simp⟩
          · obtain ⟨front, hsplit, hfront⟩ := ih hrest
            have hlt := le_index_of_mem hrest
            refine ⟨⟨index, before, line, after⟩ :: front, ?_,
              List.forall_mem_cons.mpr ⟨?_, hfront⟩⟩
            · rw [positions, hsplit]
              rfl
            · show index < position.index
              omega

theorem eq_positionAt {lines rest : List Line} (index : Nat) {taken : Nat} {position : Position}
    (hrest : lines.drop index = rest)
    (h : position ∈ positions index taken (lineBefore lines index) rest) :
    lines[position.index]? = some position.line ∧
    position = positionAt lines position.index position.line := by
  induction rest generalizing index taken with
  | nil => contradiction
  | cons line after ih =>
      obtain ⟨_, hline, hafter⟩ := of_drop_eq_cons hrest
      have hbefore : some line = lineBefore lines (index + 1) := hline.symm
      cases taken with
      | succ taken =>
          rw [positions, hbefore] at h
          exact ih (index + 1) hafter h
      | zero =>
          rw [positions, hbefore] at h
          rcases List.mem_cons.mp h with rfl | hrest
          · refine ⟨hline, ?_⟩
            rw [positionAt, hafter]
          · exact ih (index + 1) hafter hrest

/-! ## Stops -/

/-- The lines at which a declaration is looked for, counted from zero. -/
def stops (lines : List Line) : List Nat := (positions 0 0 none lines).map Position.index

/-- After line `index`, a declaration is looked for on line `next` and on none before it. -/
def ResumesAt (lines : List Line) (index next : Nat) : Prop :=
  (∀ stop ∈ stops lines, index < stop → next ≤ stop) ∧ (next < lines.length → next ∈ stops lines)

section Stops

variable {lines : List Line} {start : Nat} {line : Line}

theorem positionAt_of_mem {position : Position} (h : position ∈ positions 0 0 none lines) :
    lines[position.index]? = some position.line ∧
    position = positionAt lines position.index position.line :=
  eq_positionAt 0 rfl h

theorem drop_of_mem {position : Position} (h : position ∈ positions 0 0 none lines) :
    lines.drop (position.index + 1) = position.after := by
  obtain ⟨_, hposition⟩ := positionAt_of_mem h
  rw [hposition]
  rfl

theorem positionAt_mem_positions (hstart : start ∈ stops lines)
    (hline : lines[start]? = some line) :
    positionAt lines start line ∈ positions 0 0 none lines := by
  obtain ⟨position, hmem, rfl⟩ := List.mem_map.mp hstart
  obtain ⟨hthere, hposition⟩ := positionAt_of_mem hmem
  rw [hline, Option.some.injEq] at hthere
  rw [hthere, ← hposition]
  exact hmem

theorem next_positionAt_le (hline : lines[start]? = some line) :
    (positionAt lines start line).next ≤ lines.length := by
  have hlt := (List.getElem?_eq_some_iff.mp hline).1
  have hfurther := further_le (positionAt lines start line)
  rw [positionAt, List.length_drop] at hfurther
  show start + 1 + (positionAt lines start line).further ≤ _
  rw [positionAt]
  omega

end Stops

/-! ## The rest of a file -/

/-- How many lines are read together depends on the lines alone. -/
theorem further_congr (index index' : Nat) (before before' : Option Line) (line : Line)
    (after : List Line) :
    Position.further ⟨index, before, line, after⟩ =
      Position.further ⟨index', before', line, after⟩ := by
  unfold Position.further declarationAt
  dsimp only
  split
  · unfold importAt
    dsimp only
    split
    · rfl
    · split
      · rfl
      · split <;> rfl
  · split
    · rfl
    · split <;> rfl

theorem map_index_positions (shift index taken : Nat) (before before' : Option Line)
    (lines : List Line) :
    (positions (index + shift) taken before lines).map Position.index =
      ((positions index taken before' lines).map Position.index).map (· + shift) := by
  induction lines generalizing index taken before before' with
  | nil => rfl
  | cons line after ih =>
      have hsucc : index + shift + 1 = index + 1 + shift := by omega
      cases taken with
      | succ taken =>
          rw [positions, positions, hsucc]
          exact ih (index + 1) taken (some line) (some line)
      | zero =>
          rw [positions, positions, List.map_cons, List.map_cons, List.map_cons, hsucc,
            further_congr (index + shift) index before before',
            ih (index + 1) _ (some line) (some line)]

theorem map_index_positions_drop (index taken : Nat) (before : Option Line) (lines : List Line) :
    (positions index taken before lines).map Position.index =
      (stops (lines.drop taken)).map (· + (index + taken)) := by
  induction lines generalizing index taken before with
  | nil =>
      rw [List.drop_nil]
      rfl
  | cons line after ih =>
      cases taken with
      | succ taken =>
          have hsucc : index + (taken + 1) = index + 1 + taken := by omega
          rw [positions, List.drop_succ_cons, hsucc]
          exact ih (index + 1) taken (some line)
      | zero =>
          have hshift := map_index_positions index 0 0 before none (line :: after)
          rw [Nat.zero_add] at hshift
          exact hshift

section Rest

variable {lines : List Line} {start stop : Nat} {line : Line}

/-- Behind the lines that are read at a stop, the rest is read as a file of its own. -/
theorem stops_split (hstart : start ∈ stops lines) (hline : lines[start]? = some line) :
    ∃ front, stops lines = front ++ start ::
        (stops (lines.drop (positionAt lines start line).next)).map
          (· + (positionAt lines start line).next) ∧
      ∀ earlier ∈ front, earlier < start := by
  obtain ⟨front, hsplit, hfront⟩ := positions_split (positionAt_mem_positions hstart hline)
  refine ⟨front.map Position.index, ?_, ?_⟩
  · rw [stops, hsplit, List.map_append, List.map_cons, map_index_positions_drop]
    show _ ++ start :: (stops ((lines.drop (start + 1)).drop _)).map _ = _
    rw [List.drop_drop]
    rfl
  · intro earlier hearlier
    obtain ⟨position, hposition, rfl⟩ := List.mem_map.mp hearlier
    exact hfront position hposition

theorem add_next_mem_stops (hstart : start ∈ stops lines) (hline : lines[start]? = some line)
    (hstop : stop ∈ stops (lines.drop (positionAt lines start line).next)) :
    stop + (positionAt lines start line).next ∈ stops lines := by
  obtain ⟨front, hsplit, _⟩ := stops_split hstart hline
  rw [hsplit]
  exact List.mem_append_right front (List.mem_cons_of_mem start (List.mem_map_of_mem hstop))

theorem resumesAt_next (hstart : start ∈ stops lines) (hline : lines[start]? = some line) :
    ResumesAt lines start (positionAt lines start line).next := by
  refine ⟨?_, ?_⟩
  · intro stop hstop hlt
    obtain ⟨front, hsplit, hfront⟩ := stops_split hstart hline
    rw [hsplit] at hstop
    rcases List.mem_append.mp hstop with hearlier | hstop
    · have hbefore := hfront stop hearlier
      omega
    · rcases List.mem_cons.mp hstop with rfl | hlater
      · omega
      · obtain ⟨other, _, rfl⟩ := List.mem_map.mp hlater
        exact Nat.le_add_left _ _
  · intro hlt
    have hzero : 0 ∈ stops (lines.drop (positionAt lines start line).next) := by
      rw [List.drop_eq_getElem_cons hlt]
      exact List.mem_cons_self
    have hmem := add_next_mem_stops hstart hline hzero
    rwa [Nat.zero_add] at hmem

end Rest

/-! ## Findings -/

theorem mem_findingsAt_of_found {depth : Int} {places : List Position} {position : Position}
    {found : Found} {finding : Finding} (hposition : position ∈ places)
    (hfound : declarationAt position = some found) (hfinding : finding ∈ found.findings) :
    finding ∈ findingsAt depth places := by
  induction places generalizing depth with
  | nil => contradiction
  | cons first rest ih =>
      rw [findingsAt]
      rcases List.mem_cons.mp hposition with rfl | hrest
      · rw [hfound]
        exact List.mem_append_left _ hfinding
      · cases declarationAt first with
        | some other => exact List.mem_append_right _ (ih hrest)
        | none =>
            dsimp only
            split
            · exact List.mem_cons_of_mem _ (ih hrest)
            · exact ih hrest

theorem exists_found_of_mem_findingsAt {depth : Int} {places : List Position}
    {receiver : Option String} {f : FunctionOutline}
    (h : .function receiver f ∈ findingsAt depth places) :
    ∃ position ∈ places, ∃ found, declarationAt position = some found ∧
    .function receiver f ∈ found.findings := by
  induction places generalizing depth with
  | nil => contradiction
  | cons first rest ih =>
      have hlater : ∀ depth, .function receiver f ∈ findingsAt depth rest →
          ∃ position ∈ first :: rest,
          ∃ found, declarationAt position = some found ∧ .function receiver f ∈ found.findings := by
        intro depth hmem
        obtain ⟨position, hposition, hfound⟩ := ih hmem
        exact ⟨position, List.mem_cons_of_mem first hposition, hfound⟩
      rw [findingsAt] at h
      split at h
      · next found hfound =>
          rcases List.mem_append.mp h with hhere | hmem
          · exact ⟨first, List.mem_cons_self, found, hfound, hhere⟩
          · exact hlater depth hmem
      · split at h
        · rcases List.mem_cons.mp h with hfault | hmem
          · exact absurd hfault (by simp [faultAt])
          · exact hlater 0 hmem
        · exact hlater _ h

theorem mem_scan_of_found {lines : List Line} {start : Nat} {line : Line} {found : Found}
    {finding : Finding} (hstart : start ∈ stops lines) (hline : lines[start]? = some line)
    (hfound : declarationAt (positionAt lines start line) = some found)
    (hfinding : finding ∈ found.findings) : finding ∈ scan 0 0 0 none lines := by
  rw [scan_eq_findingsAt]
  exact mem_findingsAt_of_found (positionAt_mem_positions hstart hline) hfound hfinding

theorem exists_stop_of_function {lines : List Line} {receiver : Option String} {f : FunctionOutline}
    (h : .function receiver f ∈ scan 0 0 0 none lines) :
    ∃ start ∈ stops lines, ∃ line found, lines[start]? = some line ∧
      declarationAt (positionAt lines start line) = some found ∧
      .function receiver f ∈ found.findings := by
  rw [scan_eq_findingsAt] at h
  obtain ⟨position, hmem, found, hfound, hf⟩ := exists_found_of_mem_findingsAt h
  obtain ⟨hline, hposition⟩ := positionAt_of_mem hmem
  rw [hposition] at hfound
  exact ⟨position.index, List.mem_map_of_mem hmem, position.line, found, hline, hfound, hf⟩

/-! ## The file -/

/-- The lines that are read of a text. -/
def fileLines (text : List Char) : List Line := stripLines (Language.withoutMark text)

/-- A text that is given in its encoding is outlined, with the faults that were found in it. -/
theorem outline_encode (path : Path) (text : List Char) :
    language.outline path (Utf8.encode text) = .outlined (.assemble path "Go"
      (declarations (findings (Language.withoutMark text)))
        (faults (findings (Language.withoutMark text)))) := by
  rw [language, Language.outline_ofText_eq_outlined_iff]
  refine ⟨Language.withoutMark text, ?_, rfl⟩
  rw [Language.decode, Utf8.decode_eq_ok_iff.mpr rfl]

end GoOutline
end CodeSurvey
