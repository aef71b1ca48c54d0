import CodeSurvey.Proofs.Outline.GoDefinitions

/-
Where the declarations of a Go file stand.  A declaration takes up lines that are there, so its
extent ends inside the file; reading goes on behind it, so extents follow each other without
overlap.  Both are said for one position first (`Found.PlacedAt`) and carried along `scan` from
there.
-/

namespace CodeSurvey
namespace GoOutline

/-! ## Extents -/

theorem linesToClose_le {delta : Line → Int} {depth : Int} {after : List Line} {count : Nat}
    (h : linesToClose delta depth after = some count) : 1 ≤ count ∧ count ≤ after.length := by
  induction after generalizing depth count with
  | nil => contradiction
  | cons line rest ih =>
      rw [linesToClose] at h
      split at h
      · rw [Option.some.injEq] at h
        rw [List.length_cons]
        omega
      · obtain ⟨more, hmore, rfl⟩ := Option.map_eq_some_iff.mp h
        have hle := ih hmore
        rw [List.length_cons]
        omega

theorem signatureLength_le (depth : Int) (after : List Line) :
    signatureLength depth after ≤ after.length := by
  induction after generalizing depth with
  | nil => exact Nat.le_refl 0
  | cons line rest ih =>
      have hle := ih (depth + parenBalance line)
      rw [signatureLength, List.length_cons]
      split <;> omega

theorem further_blockExtent_le (line : Line) (after : List Line) :
    (blockExtent line after).further ≤ after.length := by
  unfold blockExtent
  split
  · exact Nat.zero_le _
  · split
    · next count hcount => exact (linesToClose_le hcount).2
    · exact Nat.le_refl _

theorem importGroup_le {lines : List Line} {count : Nat} (h : (importGroup lines).2 = some count) :
    count ≤ lines.length := by
  induction lines generalizing count with
  | nil => contradiction
  | cons line rest ih =>
      rw [importGroup] at h
      split at h
      · rw [← Option.some.inj h]
        exact Nat.le_add_left 1 rest.length
      · obtain ⟨more, hmore, rfl⟩ := Option.map_eq_some_iff.mp h
        exact Nat.succ_le_succ (ih hmore)

/-! ## One position -/

/-- Lines that are among the first `count`, in order. -/
def LinesWithin (count first last : Nat) : Prop := 1 ≤ first ∧ first ≤ last ∧ last ≤ count

/-- A finding keeps to the first `count` lines, and the methods of an interface keep inside it. -/
def Finding.Within (count : Nat) : Finding → Prop
  | .function _ f => LinesWithin count f.startLine f.endLine
  | .type t => LinesWithin count t.startLine t.endLine ∧
      ∀ m ∈ t.methods, t.kind = .interface ∧ t.startLine < m.startLine ∧ m.startLine ≤ m.endLine ∧
        m.endLine < t.endLine
  | .fault place => 1 ≤ place.line ∧ place.line ≤ count
  | .import _ => True

/-- The first and the last line of a declaration. -/
def Finding.range : Finding → Option (Nat × Nat)
  | .function _ f => some (f.startLine, f.endLine)
  | .type t => some (t.startLine, t.endLine)
  | _ => none

def ranges (findings : List Finding) : List (Nat × Nat) := findings.filterMap Finding.range

theorem ranges_append (a b : List Finding) : ranges (a ++ b) = ranges a ++ ranges b :=
  List.filterMap_append

structure Found.PlacedAt (position : Position) (found : Found) : Prop where
  further : found.further ≤ position.after.length
  within : ∀ finding ∈ found.findings, finding.Within (position.lineNumber + position.after.length)
  ranges : ranges found.findings = [] ∨
    ranges found.findings = [(position.lineNumber, position.lineNumber + found.further)]

theorem within_imports {count : Nat} (paths : List String) :
    ∀ finding ∈ paths.map Finding.import, finding.Within count := by
  intro finding hfinding
  obtain ⟨path, _, rfl⟩ := List.mem_map.mp hfinding
  trivial

theorem placedAt_importAt (position : Position) : (importAt position).PlacedAt position := by
  have hranges : ranges (importAt position).findings = [] :=
    filterMap_importAt (fun _ => rfl) (fun _ => rfl) position
  refine ⟨?_, ?_, .inl hranges⟩
  · unfold importAt
    split
    · exact Nat.zero_le _
    · split
      · exact Nat.zero_le _
      · split
        · next hgroup => exact importGroup_le (by rw [hgroup])
        · exact Nat.le_refl _
  · unfold importAt
    split
    · exact within_imports [_]
    · split
      · exact fun _ => nofun
      · split
        · exact within_imports _
        · refine List.forall_mem_append.mpr ⟨within_imports _, List.forall_mem_singleton.mpr ?_⟩
          have hpos : 1 ≤ position.lineNumber := Nat.le_add_left 1 position.index
          exact ⟨Nat.le_trans hpos (Nat.le_add_right _ _), Nat.le_refl _⟩

/-- The fault of a block that does not end stands on one of the lines of its declaration. -/
theorem within_faults {position : Position} {offset : Nat}
    (hoffset : offset ≤ position.after.length) (closed : Bool) :
    ∀ finding ∈ (if closed then [] else [unclosed (position.lineNumber + offset)]),
      finding.Within (position.lineNumber + position.after.length) := by
  cases closed with
  | true => exact fun _ => nofun
  | false =>
      have hpos : 1 ≤ position.lineNumber := Nat.le_add_left 1 position.index
      refine List.forall_mem_singleton.mpr ⟨?_, ?_⟩
      · exact Nat.le_trans hpos (Nat.le_add_right _ _)
      · exact Nat.add_le_add_left hoffset _

theorem ranges_faults (line : Nat) (closed : Bool) :
    ranges (if closed then [] else [unclosed line]) = [] := by
  cases closed <;> rfl

theorem placedAt_functionAt (position : Position) (receiver : Option String)
    (name tail : List Char) : (functionAt position receiver name tail).PlacedAt position := by
  have hpos : 1 ≤ position.lineNumber := Nat.le_add_left 1 position.index
  have hsignature := signatureLength_le (parenBalance position.line) position.after
  have hblock := further_blockExtent_le
    ((position.after.take (signatureLength (parenBalance position.line) position.after)).getLastD
      position.line)
    (position.after.drop (signatureLength (parenBalance position.line) position.after))
  rw [List.length_drop] at hblock
  refine ⟨?_, ?_, .inr ?_⟩
  · show _ + _ ≤ _
    omega
  · refine List.forall_mem_append.mpr ⟨within_faults hsignature _,
      List.forall_mem_singleton.mpr ⟨hpos, ?_, ?_⟩⟩
    · exact Nat.le_max_right _ _
    · refine Nat.max_le.mpr ⟨?_, Nat.le_add_right _ _⟩
      omega
  · show ranges (_ ++ [Finding.function receiver _]) = _
    rw [ranges_append, ranges_faults]
    show [(position.lineNumber, max _ _)] = [(position.lineNumber, _)]
    rw [Nat.max_eq_left (Nat.le_add_right _ _)]
    rfl

theorem lines_numberedMethods {lineNumber : Nat} {body : List Line} {m : FunctionOutline}
    (h : m ∈ numberedMethods lineNumber body) :
    lineNumber ≤ m.startLine ∧ m.endLine = m.startLine ∧
    m.startLine < lineNumber + body.length := by
  induction body generalizing lineNumber with
  | nil => contradiction
  | cons line rest ih =>
      rw [numberedMethods, List.mem_append] at h
      rw [List.length_cons]
      rcases h with h | h
      · split at h
        · contradiction
        · obtain ⟨header, _, rfl⟩ := Option.map_eq_some_iff.mp (Option.mem_toList.mp h)
          refine ⟨Nat.le_refl _, Nat.max_self _, ?_⟩
          show lineNumber < _
          omega
      · have hrest := ih h
        omega

theorem placedAt_typeAt (position : Position) (name : List Char) (kind : TypeKind) :
    (typeAt position name kind).PlacedAt position := by
  have hpos : 1 ≤ position.lineNumber := Nat.le_add_left 1 position.index
  have hblock := further_blockExtent_le position.line position.after
  have hend :
      max (position.lineNumber + (blockExtent position.line position.after).further)
        position.lineNumber =
      position.lineNumber + (blockExtent position.line position.after).further :=
    Nat.max_eq_left (Nat.le_add_right _ _)
  obtain ⟨outline, hfound, hstart, hlast, hmethods⟩ : ∃ outline, typeAt position name kind =
        ⟨(if (blockExtent position.line position.after).closed then []
          else [unclosed position.lineNumber]) ++
          [.type outline], (blockExtent position.line position.after).further⟩ ∧
      outline.startLine = position.lineNumber ∧
      outline.endLine = position.lineNumber + (blockExtent position.line position.after).further ∧
      ∀ m ∈ outline.methods, outline.kind = .interface ∧
        m ∈ numberedMethods (position.lineNumber + 1)
        (position.after.take ((blockExtent position.line position.after).further - 1)) := by
    cases kind with
    | interface => exact ⟨_, rfl, rfl, hend, fun m hm => ⟨rfl, hm⟩⟩
    | struct => exact ⟨_, rfl, rfl, hend, fun _ => nofun⟩
    | classType => exact ⟨_, rfl, rfl, hend, fun _ => nofun⟩
  generalize (blockExtent position.line position.after).further = further
    at hblock hfound hlast hmethods
  rw [hfound]
  refine ⟨hblock, ?_, .inr ?_⟩
  · refine List.forall_mem_append.mpr ⟨within_faults (Nat.zero_le _) _,
      List.forall_mem_singleton.mpr ⟨?_, ?_⟩⟩
    · unfold LinesWithin
      omega
    · intro m hm
      obtain ⟨hkind, hm⟩ := hmethods m hm
      have hlines := lines_numberedMethods hm
      rw [List.length_take] at hlines
      exact ⟨hkind, by omega, by omega, by omega⟩
  · rw [ranges_append, ranges_faults]
    show [(outline.startLine, outline.endLine)] = _
    rw [hstart, hlast]

theorem placedAt_declarationAt {position : Position} {found : Found}
    (h : declarationAt position = some found) : found.PlacedAt position := by
  rcases declarationAt_cases h with ⟨_, rfl⟩ | ⟨_, receiver, name, tail, rfl⟩ | ⟨_, name, kind, rfl⟩
  · exact placedAt_importAt position
  · exact placedAt_functionAt position receiver name tail
  · exact placedAt_typeAt position name kind

/-! ## All positions -/

theorem within_scan (index taken : Nat) (depth : Int) (before : Option Line) (lines : List Line) :
    ∀ finding ∈ scan index taken depth before lines, finding.Within (index + lines.length) := by
  induction lines generalizing index taken depth before with
  | nil => exact fun _ => nofun
  | cons line after ih =>
      have hcount : index + (line :: after).length = index + 1 + after.length := by
        rw [List.length_cons]
        omega
      rw [hcount]
      cases taken with
      | succ taken => exact ih (index + 1) taken depth (some line)
      | zero =>
          rw [scan]
          split
          · next found hfound =>
              exact List.forall_mem_append.mpr
                ⟨(placedAt_declarationAt hfound).within,
                  ih (index + 1) found.further depth (some line)⟩
          · dsimp only
            split
            · refine List.forall_mem_cons.mpr ⟨⟨?_, ?_⟩, ih (index + 1) 0 0 (some line)⟩
              · exact Nat.le_add_left 1 index
              · exact Nat.le_add_right _ _
            · exact ih (index + 1) 0 _ (some line)

/-- The declarations that are found start behind the lines already taken, and each ends before
the next one starts. -/
theorem ranges_scan (index taken : Nat) (depth : Int) (before : Option Line) (lines : List Line) :
    (∀ range ∈ ranges (scan index taken depth before lines), index + taken < range.1) ∧
      (ranges (scan index taken depth before lines)).Pairwise fun a b => a.2 < b.1 := by
  induction lines generalizing index taken depth before with
  | nil => exact ⟨fun _ => nofun, .nil⟩
  | cons line after ih =>
      cases taken with
      | succ taken =>
          have hskip : index + (taken + 1) = index + 1 + taken := by omega
          rw [hskip]
          exact ih (index + 1) taken depth (some line)
      | zero =>
          have hbehind : ∀ depth,
              (∀ range ∈ ranges (scan (index + 1) 0 depth (some line) after), index + 0 < range.1) ∧
                (ranges (scan (index + 1) 0 depth (some line) after)).Pairwise fun a b =>
                  a.2 < b.1 := by
            intro depth
            obtain ⟨hstart, hapart⟩ := ih (index + 1) 0 depth (some line)
            exact ⟨fun range hrange => Nat.lt_of_succ_lt (hstart range hrange), hapart⟩
          rw [scan]
          split
          · next found hfound =>
              obtain ⟨hstart, hapart⟩ := ih (index + 1) found.further depth (some line)
              rw [ranges_append]
              rcases (placedAt_declarationAt hfound).ranges with hnone | hone
              · rw [hnone, List.nil_append]
                exact ⟨fun range hrange => by have := hstart range hrange; omega, hapart⟩
              · rw [hone, List.singleton_append]
                refine ⟨List.forall_mem_cons.mpr ⟨?_, ?_⟩, List.pairwise_cons.mpr ⟨?_, hapart⟩⟩
                · exact Nat.lt_succ_self index
                · exact fun range hrange => by have := hstart range hrange; omega
                · exact fun range hrange => hstart range hrange
          · dsimp only
            split
            · exact hbehind 0
            · exact hbehind _

/-! ## The report -/

/-- A type made for the receiver of a method has the lines of that method. -/
theorem lines_of_mem_orphans {types : List TypeOutline} {methods : List (String × FunctionOutline)}
    {t : TypeOutline} (h : t ∈ orphans types methods) :
    ∃ method ∈ methods, t.startLine = method.2.startLine ∧
    t.endLine = max method.2.endLine method.2.startLine := by
  have hstep : ∀ (made : List TypeOutline) (method : String × FunctionOutline), method ∈ methods →
      (∀ t ∈ made, ∃ method ∈ methods, t.startLine = method.2.startLine ∧
        t.endLine = max method.2.endLine method.2.startLine) →
      ∀ t ∈ addOrphan made method.1 method.2, ∃ method ∈ methods, t.startLine = method.2.startLine ∧
        t.endLine = max method.2.endLine method.2.startLine := by
    intro made method hmethod hmade
    induction made with
    | nil => exact List.forall_mem_singleton.mpr ⟨method, hmethod, rfl, rfl⟩
    | cons first rest ih =>
        obtain ⟨hfirst, hrest⟩ := List.forall_mem_cons.mp hmade
        rw [addOrphan]
        split
        · exact List.forall_mem_cons.mpr ⟨hfirst, hrest⟩
        · exact List.forall_mem_cons.mpr ⟨hfirst, ih hrest⟩
  have hrun : ∀ t ∈ orphans types methods, ∃ method ∈ methods, t.startLine = method.2.startLine ∧
      t.endLine = max method.2.endLine method.2.startLine :=
    List.foldlRecOn _ _ (by simp) fun made hmade method hmethod =>
      hstep made method (List.mem_of_mem_filter hmethod) hmade
  exact hrun t h

/-- A report on what was found in `count` lines: it names lines that are there, and the
declarations do not overlap. -/
structure InBounds (count : Nat) (found : List Finding) (report : FileReport) : Prop where
  functions : ∀ f ∈ report.functions, LinesWithin count f.startLine f.endLine
  types : ∀ t ∈ report.types, LinesWithin count t.startLine t.endLine
  methods : ∀ t ∈ report.types, ∀ m ∈ t.methods, LinesWithin count m.startLine m.endLine
  faults : ∀ place ∈ report.faults, 1 ≤ place.line ∧ place.line ≤ count
  interfaces : ∀ t, .type t ∈ found → ∀ m ∈ t.methods,
    t.kind = .interface ∧ t.startLine < m.startLine ∧ m.endLine < t.endLine
  /-- a method was declared with a receiver, or in the interface it belongs to -/
  ofType : ∀ t ∈ report.types, ∀ m ∈ t.methods, .function (some t.name) m ∈ found ∨
    (t.kind = .interface ∧ t.startLine < m.startLine ∧ m.endLine < t.endLine)
  apart : (ranges found).Pairwise fun a b => a.1 < b.1 ∧ a.2 < b.1

theorem within_findings (source : List Char) :
    ∀ finding ∈ findings source, finding.Within (Text.lines source).length := by
  have hwithin := within_scan 0 0 0 none (stripLines source)
  rwa [stripLines, length_stripFrom, Nat.zero_add] at hwithin

theorem inBounds_assemble (source : List Char) (path : Path) :
    InBounds (Text.lines source).length (findings source)
      (.assemble path "Go" (declarations (findings source)) (faults (findings source))) := by
  have hdeclared :=
    FileReport.declaredBy_assemble path "Go" (declarations (findings source))
      (faults (findings source))
  have hwithin := within_findings source
  have hfunction : ∀ receiver f, .function receiver f ∈ findings source →
      LinesWithin (Text.lines source).length f.startLine f.endLine :=
        fun receiver f => hwithin (.function receiver f)
  have htype : ∀ t, .type t ∈ findings source →
      Finding.Within (Text.lines source).length (.type t) :=
    fun t => hwithin (.type t)
  refine ⟨?_, ?_, ?_, ?_, ?_, ?_, ?_⟩
  · intro f hf
    exact hfunction none f
      (mem_findings_of_mem_functions (mem_function_declarations (hdeclared.functions f hf)))
  · intro t ht
    rcases mem_type_declarations (hdeclared.types t ht) with ⟨declared, hmem, rfl⟩ | horphan
    · exact (htype declared (mem_findings_of_mem_types hmem)).1
    · obtain ⟨⟨receiver, method⟩, hmethod, hstart, hend⟩ := lines_of_mem_orphans horphan
      obtain ⟨hpos, hle, hcount⟩ := hfunction _ _ (mem_findings_of_mem_methods hmethod)
      rw [hstart, hend, Nat.max_eq_left hle]
      exact ⟨hpos, hle, hcount⟩
  · intro t ht m hm
    rcases mem_methods_declarations (hdeclared.types t ht) hm with hmem | ⟨declared, hmem, _, hm⟩
    · exact hfunction _ _ (mem_findings_of_mem_methods hmem)
    · obtain ⟨⟨hpos, _, hcount⟩, hmethods⟩ := htype declared (mem_findings_of_mem_types hmem)
      obtain ⟨_, hstart, hle, hend⟩ := hmethods m hm
      unfold LinesWithin
      omega
  · intro place hplace
    obtain ⟨finding, hfinding, hsome⟩ := List.mem_filterMap.mp hplace
    split at hsome
    · exact Option.some.inj hsome ▸ hwithin _ hfinding
    · contradiction
  · intro t ht m hm
    obtain ⟨hkind, hstart, _, hend⟩ := (htype t ht).2 m hm
    exact ⟨hkind, hstart, hend⟩
  · intro t ht m hm
    rcases mem_type_declarations (hdeclared.types t ht) with ⟨declared, hmem, rfl⟩ | horphan
    · rcases List.mem_append.mp hm with hm | hm
      · obtain ⟨hkind, hstart, _, hend⟩ := (htype declared (mem_findings_of_mem_types hmem)).2 m hm
        exact .inr ⟨hkind, hstart, hend⟩
      · obtain ⟨⟨receiver, method⟩, hmethod, rfl⟩ := List.mem_map.mp hm
        obtain ⟨hmethod, hname⟩ := List.mem_filter.mp hmethod
        have hreceiver : receiver = declared.name := eq_of_beq hname
        exact .inl (mem_findings_of_mem_methods (hreceiver ▸ hmethod))
    · exact .inl (mem_findings_of_mem_methods (mem_of_mem_orphans horphan m hm))
  · refine (ranges_scan 0 0 0 none (stripLines source)).2.imp_of_mem ?_
    intro a b ha _ hlt
    refine ⟨Nat.lt_of_le_of_lt ?_ hlt, hlt⟩
    obtain ⟨finding, hfinding, hsome⟩ := List.mem_filterMap.mp ha
    have hordered := hwithin finding hfinding
    cases finding with
    | function receiver f => exact Option.some.inj hsome ▸ hordered.2.1
    | type t => exact Option.some.inj hsome ▸ hordered.1.2.1
    | fault _ => contradiction
    | «import» _ => contradiction

end GoOutline
end CodeSurvey
