import Mathlib.Data.List.Perm.Basic
import CodeSurvey.ProjectReport

/-
What the files of a project add up to.  Directories, the languages in a directory and the languages
of the project are three maps that grow by one file at a time: each is an instance of `grouped`.  A
group holds what its own files add up to, every file is in one group, and so sums over groups are
sums over files.  `rollups_agree` puts the three side by side.
-/

namespace CodeSurvey

theorem length_eq_sum {α : Type} (items : List α) : items.length = (items.map fun _ => 1).sum := by
  simp

theorem sum_map_filter {α : Type} (p : α → Bool) (f : α → Nat) (items : List α) :
    ((items.filter p).map f).sum = (items.map fun item => if p item then f item else 0).sum := by
  induction items with
  | nil => rfl
  | cons item rest ih =>
      by_cases hitem : p item = true
      · rw [List.filter_cons_of_pos hitem, List.map_cons, List.map_cons, List.sum_cons,
          List.sum_cons, ih, if_pos hitem]
      · rw [List.filter_cons_of_neg hitem, ih, List.map_cons, List.sum_cons, if_neg hitem,
          Nat.zero_add]

/-- Raising one of several different entries by an amount raises the sum by that amount. -/
theorem sum_map_raise {α : Type} [BEq α] [LawfulBEq α] {keys : List α}
    (hnodup : keys.Nodup) {key : α} (hkey : key ∈ keys) (amount : Nat) (f : α → Nat) :
    (keys.map fun other => (if key == other then amount else 0) + f other).sum =
      amount + (keys.map f).sum := by
  induction keys with
  | nil => contradiction
  | cons first rest ih =>
      obtain ⟨hfresh, hrest⟩ := List.nodup_cons.mp hnodup
      rw [List.map_cons, List.sum_cons, List.map_cons, List.sum_cons]
      by_cases hfirst : key = first
      · have hothers : (rest.map fun other => (if key == other then amount else 0) + f other) =
            rest.map f := by
          refine List.map_congr_left fun other hother => ?_
          have hne : (key == other) = false :=
            beq_eq_false_iff_ne.mpr fun heq => hfresh (hfirst ▸ heq ▸ hother)
          rw [hne, if_neg Bool.false_ne_true, Nat.zero_add]
        rw [hothers, if_pos (beq_iff_eq.mpr hfirst)]
        omega
      · have hmem : key ∈ rest := (List.mem_cons.mp hkey).resolve_left hfirst
        rw [ih hrest hmem, if_neg (mt beq_iff_eq.mp hfirst)]
        omega

/-- A sum is the sum over its parts, one part for each key. -/
theorem sum_fibers {α κ : Type} [BEq κ] [LawfulBEq κ] (key : α → κ) (f : α → Nat) {keys : List κ}
    (hnodup : keys.Nodup) {items : List α} (hkeys : ∀ item ∈ items, key item ∈ keys) :
    (keys.map fun k => ((items.filter (key · == k)).map f).sum).sum = (items.map f).sum := by
  simp only [sum_map_filter]
  induction items with
  | nil =>
      clear hnodup hkeys
      induction keys with
      | nil => rfl
      | cons first rest ih =>
          rw [List.map_cons, List.sum_cons, ih]
          rfl
  | cons item rest ih =>
      obtain ⟨hitem, hrest⟩ := List.forall_mem_cons.mp hkeys
      simp only [List.map_cons, List.sum_cons]
      rw [sum_map_raise hnodup hitem, ih hrest]

section Grouping

variable {γ : Type} (key : FileReport → String) (start : γ) (add : γ → FileReport → γ)

/-- The files by their keys, in groups that grow by one file at a time. -/
def grouped (reports : List FileReport) : Std.TreeMap String γ :=
  reports.foldl (fun groups report =>
    groups.alter (key report) fun group => some (add (group.getD start) report)) {}

theorem mem_grouped {reports : List FileReport} {k : String} :
    k ∈ grouped key start add reports ↔ ∃ report ∈ reports, key report = k := by
  have hrun : ∀ groups : Std.TreeMap String γ,
      k ∈ reports.foldl (fun groups report =>
        groups.alter (key report) fun group => some (add (group.getD start) report)) groups ↔
          k ∈ groups ∨ ∃ report ∈ reports, key report = k := by
    induction reports with
    | nil => simp
    | cons first rest ih =>
        intro groups
        rw [List.foldl_cons, ih, Std.TreeMap.mem_alter]
        by_cases hfirst : key first = k
        · rw [hfirst, if_pos Std.ReflCmp.compare_self]
          simp [hfirst]
        · have hne : compare (key first) k ≠ .eq :=
            fun heq => hfirst (Std.LawfulEqCmp.eq_of_compare heq)
          rw [if_neg hne]
          simp [hfirst]
  rw [grouped, hrun]
  simp [Std.TreeMap.not_mem_emptyc]

/-- A group is what its own files add up to. -/
theorem getD_grouped (reports : List FileReport) (k : String) :
    (grouped key start add reports).getD k start =
      (reports.filter (key · == k)).foldl add start := by
  have hrun : ∀ groups : Std.TreeMap String γ,
      (reports.foldl (fun groups report =>
        groups.alter (key report) fun group =>
          some (add (group.getD start) report)) groups).getD k start =
          (reports.filter (key · == k)).foldl add (groups.getD k start) := by
    induction reports with
    | nil => exact fun groups => rfl
    | cons first rest ih =>
        intro groups
        rw [List.foldl_cons, ih, Std.TreeMap.getD_alter]
        by_cases hfirst : key first = k
        · rw [List.filter_cons, if_pos (beq_iff_eq.mpr hfirst), List.foldl_cons, hfirst,
            if_pos Std.ReflCmp.compare_self, Option.getD_some, Std.TreeMap.getD_eq_getD_getElem?]
        · have hne : compare (key first) k ≠ .eq :=
            fun heq => hfirst (Std.LawfulEqCmp.eq_of_compare heq)
          rw [List.filter_cons, if_neg (mt beq_iff_eq.mp hfirst), if_neg hne]
  rw [grouped, hrun, Std.TreeMap.getD_emptyc]

theorem eq_of_getElem?_grouped {reports : List FileReport} {k : String} {group : γ}
    (h : (grouped key start add reports)[k]? = some group) :
    group = (reports.filter (key · == k)).foldl add start := by
  rw [← getD_grouped, Std.TreeMap.getD_eq_getD_getElem?, h, Option.getD_some]

/-- Where a figure of a group is a sum over its files, the sum of the figure over all groups is
that over all files. -/
theorem sum_grouped (figure : γ → Nat) (f : FileReport → Nat)
    (hfigure : ∀ reports : List FileReport, figure (reports.foldl add start) = (reports.map f).sum)
    (reports : List FileReport) :
    ((grouped key start add reports).toList.map fun entry => figure entry.2).sum =
      (reports.map f).sum := by
  have hentries : ((grouped key start add reports).toList.map fun entry => figure entry.2) =
      (grouped key start add reports).keys.map fun k =>
        ((reports.filter (key · == k)).map f).sum := by
    rw [← Std.TreeMap.map_fst_toList_eq_keys, List.map_map]
    refine List.map_congr_left fun entry hentry => ?_
    have hheld := Std.TreeMap.mem_toList_iff_getElem?_eq_some.mp hentry
    rw [eq_of_getElem?_grouped key start add hheld, hfigure]
    rfl
  have hnodup : (grouped key start add reports).keys.Nodup := by
    refine Std.TreeMap.distinct_keys.imp fun hne heq => hne ?_
    rw [heq]
    exact Std.ReflCmp.compare_self
  rw [hentries]
  refine sum_fibers key f hnodup fun report hreport => ?_
  rw [Std.TreeMap.mem_keys, mem_grouped]
  exact ⟨report, hreport, rfl⟩

end Grouping

/-! ## Figures of a group -/

/-- The tally says how many the files are and what their lines and complexities add up to. -/
structure Tally.Counts (tally : Tally) (reports : List FileReport) : Prop where
  files : tally.files = reports.length
  lines : tally.lines = (reports.map FileReport.lineCount).sum
  complexity : tally.complexity = (reports.map FileReport.complexity).sum

theorem Tally.Counts.perm {tally : Tally} {as bs : List FileReport} (h : tally.Counts as)
    (hperm : as.Perm bs) : tally.Counts bs := by
  refine ⟨?_, ?_, ?_⟩
  · rw [h.files, hperm.length_eq]
  · rw [h.lines, (hperm.map _).sum_nat]
  · rw [h.complexity, (hperm.map _).sum_nat]

theorem Tally.counts_foldl_add (reports : List FileReport) :
    (reports.foldl Tally.add {}).Counts reports := by
  have hrun : ∀ tally : Tally,
      (reports.foldl Tally.add tally).files = tally.files + reports.length ∧
      (reports.foldl Tally.add tally).lines = tally.lines + (reports.map FileReport.lineCount).sum ∧
      (reports.foldl Tally.add tally).complexity =
        tally.complexity + (reports.map FileReport.complexity).sum := by
    induction reports with
    | nil => exact fun tally => ⟨rfl, rfl, rfl⟩
    | cons first rest ih =>
        intro tally
        obtain ⟨hfiles, hlines, hcomplexity⟩ := ih (tally.add first)
        refine ⟨?_, ?_, ?_⟩
        · rw [List.foldl_cons, hfiles, List.length_cons]
          show tally.files + 1 + rest.length = _
          omega
        · rw [List.foldl_cons, hlines, List.map_cons, List.sum_cons]
          exact Nat.add_assoc ..
        · rw [List.foldl_cons, hcomplexity, List.map_cons, List.sum_cons]
          exact Nat.add_assoc ..
  obtain ⟨hfiles, hlines, hcomplexity⟩ := hrun {}
  refine ⟨?_, ?_, ?_⟩
  · rw [hfiles, Nat.zero_add]
  · rw [hlines, Nat.zero_add]
  · rw [hcomplexity, Nat.zero_add]

namespace DirectoryReport

theorem total_foldl_add (reports : List FileReport) (directory : DirectoryReport) :
    (reports.foldl add directory).total = reports.foldl Tally.add directory.total := by
  induction reports generalizing directory with
  | nil => rfl
  | cons first rest ih => rw [List.foldl_cons, List.foldl_cons, ih, add]

theorem testFiles_foldl_add (reports : List FileReport) (directory : DirectoryReport) :
    (reports.foldl add directory).testFiles =
      directory.testFiles + reports.countP (isTestFile ·.path) := by
  induction reports generalizing directory with
  | nil => rfl
  | cons first rest ih =>
      rw [List.foldl_cons, ih, add, List.countP_cons]
      dsimp only
      omega

theorem languages_foldl_add (reports : List FileReport) :
    (reports.foldl add {}).languages = grouped FileReport.language {} Tally.add reports := by
  have hrun : ∀ directory : DirectoryReport, (reports.foldl add directory).languages =
      reports.foldl (fun groups report =>
        groups.alter report.language fun group =>
          some ((group.getD {}).add report)) directory.languages := by
    induction reports with
    | nil => exact fun directory => rfl
    | cons first rest ih =>
        intro directory
        rw [List.foldl_cons, List.foldl_cons, ih, add]
  exact hrun {}

/-- The figures of a directory and of its languages are those of the given files, and
agree with each other. -/
structure RollsUp (directory : DirectoryReport) (reports : List FileReport) : Prop where
  total : directory.total.Counts reports
  testFiles : directory.testFiles = reports.countP (isTestFile ·.path)
  mem_languages : ∀ language, language ∈ directory.languages ↔
    ∃ report ∈ reports, report.language = language
  ofLanguage : ∀ (language : String) (tally : Tally), directory.languages[language]? = some tally →
    tally.Counts (reports.filter (·.language == language))
  files : (directory.languages.toList.map fun entry => entry.2.files).sum = directory.total.files
  lines : (directory.languages.toList.map fun entry => entry.2.lines).sum = directory.total.lines
  complexity : (directory.languages.toList.map fun entry => entry.2.complexity).sum =
    directory.total.complexity

theorem RollsUp.perm {directory : DirectoryReport} {as bs : List FileReport}
    (h : directory.RollsUp as) (hperm : as.Perm bs) : directory.RollsUp bs := by
  refine ⟨h.total.perm hperm, ?_, ?_, ?_, h.files, h.lines, h.complexity⟩
  · rw [h.testFiles, hperm.countP_eq]
  · intro language
    rw [h.mem_languages]
    exact exists_congr fun report => and_congr_left fun _ => hperm.mem_iff
  · exact fun language tally htally => (h.ofLanguage language tally htally).perm (hperm.filter _)

theorem rollsUp_foldl_add (reports : List FileReport) : (reports.foldl add {}).RollsUp reports := by
  have htotal : (reports.foldl add {}).total.Counts reports := by
    rw [total_foldl_add]
    exact Tally.counts_foldl_add reports
  refine ⟨htotal, ?_, ?_, ?_, ?_, ?_, ?_⟩
  · rw [testFiles_foldl_add, Nat.zero_add]
  · intro language
    rw [languages_foldl_add, mem_grouped]
  · intro language tally htally
    rw [languages_foldl_add] at htally
    rw [eq_of_getElem?_grouped _ _ _ htally]
    exact Tally.counts_foldl_add _
  · rw [languages_foldl_add, htotal.files, length_eq_sum]
    refine sum_grouped _ _ _ Tally.files _ (fun reports => ?_) reports
    rw [(Tally.counts_foldl_add reports).files, length_eq_sum]
  · rw [languages_foldl_add, htotal.lines]
    exact sum_grouped _ _ _ Tally.lines _
      (fun reports => (Tally.counts_foldl_add reports).lines) reports
  · rw [languages_foldl_add, htotal.complexity]
    exact sum_grouped _ _ _ Tally.complexity _
      (fun reports => (Tally.counts_foldl_add reports).complexity) reports

theorem getD_languages_foldl_add (language : String) (reports : List FileReport) :
    ((reports.foldl add {}).languages.getD language {}).Counts
      (reports.filter (·.language == language)) := by
  rw [languages_foldl_add, getD_grouped]
  exact Tally.counts_foldl_add _

end DirectoryReport

theorem LanguageSummary.foldl_add (reports : List FileReport) :
    (reports.foldl LanguageSummary.add {}).files = reports.length ∧
    (reports.foldl LanguageSummary.add {}).lines = (reports.map FileReport.lineCount).sum := by
  have hrun : ∀ summary : LanguageSummary,
      (reports.foldl LanguageSummary.add summary).files = summary.files + reports.length ∧
      (reports.foldl LanguageSummary.add summary).lines =
        summary.lines + (reports.map FileReport.lineCount).sum := by
    induction reports with
    | nil => exact fun summary => ⟨rfl, rfl⟩
    | cons first rest ih =>
        intro summary
        obtain ⟨hfiles, hlines⟩ := ih (summary.add first)
        refine ⟨?_, ?_⟩
        · rw [List.foldl_cons, hfiles, List.length_cons]
          show summary.files + 1 + rest.length = _
          omega
        · rw [List.foldl_cons, hlines, List.map_cons, List.sum_cons]
          exact Nat.add_assoc ..
  obtain ⟨hfiles, hlines⟩ := hrun {}
  exact ⟨hfiles.trans (Nat.zero_add _), hlines.trans (Nat.zero_add _)⟩

/-! ## The project -/

namespace ProjectReport

/-- Directories and languages that were made of the given files. -/
structure RollsUp (root : Path) (reports : List FileReport)
    (directories : Std.TreeMap String DirectoryReport)
    (languages : Std.TreeMap String LanguageSummary) : Prop where
  mem_directories : ∀ key, key ∈ directories ↔
    ∃ report ∈ reports, directoryKey root report.path = key
  ofDirectory : ∀ (key : String) (directory : DirectoryReport), directories[key]? = some directory →
    directory.RollsUp (reports.filter (directoryKey root ·.path == key))
  files : (directories.toList.map fun entry => entry.2.total.files).sum = reports.length
  lines : (directories.toList.map fun entry => entry.2.total.lines).sum =
    (reports.map FileReport.lineCount).sum
  complexity : (directories.toList.map fun entry => entry.2.total.complexity).sum =
    (reports.map FileReport.complexity).sum
  mem_languages : ∀ language, language ∈ languages ↔ ∃ report ∈ reports, report.language = language
  languageFiles : ∀ language,
    (directories.toList.map fun entry => (entry.2.languages.getD language {}).files).sum =
      (languages.getD language {}).files
  languageLines : ∀ language,
    (directories.toList.map fun entry => (entry.2.languages.getD language {}).lines).sum =
      (languages.getD language {}).lines

theorem RollsUp.perm {root : Path} {as bs : List FileReport}
    {directories : Std.TreeMap String DirectoryReport}
    {languages : Std.TreeMap String LanguageSummary} (h : RollsUp root as directories languages)
    (hperm : as.Perm bs) : RollsUp root bs directories languages := by
  have hexists : ∀ p : FileReport → Prop, (∃ report ∈ as, p report) ↔ ∃ report ∈ bs, p report :=
    fun p => exists_congr fun report => and_congr_left fun _ => hperm.mem_iff
  refine ⟨?_, ?_, ?_, ?_, ?_, ?_, h.languageFiles, h.languageLines⟩
  · exact fun key => (h.mem_directories key).trans (hexists _)
  · exact fun key directory hdirectory =>
      (h.ofDirectory key directory hdirectory).perm (hperm.filter _)
  · rw [h.files, hperm.length_eq]
  · rw [h.lines, (hperm.map _).sum_nat]
  · rw [h.complexity, (hperm.map _).sum_nat]
  · exact fun language => (h.mem_languages language).trans (hexists _)

theorem directoriesOf_eq_grouped (root : Path) (reports : List FileReport) :
    directoriesOf root reports =
      grouped (directoryKey root ·.path) {} DirectoryReport.add reports := rfl

theorem languagesOf_eq_grouped (reports : List FileReport) :
    languagesOf reports = grouped FileReport.language {} LanguageSummary.add reports := rfl

theorem rollsUp_of_files (root : Path) (reports : List FileReport) :
    RollsUp root reports (directoriesOf root reports) (languagesOf reports) := by
  have htotal : ∀ reports : List FileReport,
      (reports.foldl DirectoryReport.add {}).total.Counts reports :=
    fun reports => (DirectoryReport.rollsUp_foldl_add reports).total
  rw [directoriesOf_eq_grouped, languagesOf_eq_grouped]
  refine ⟨fun key => mem_grouped _ _ _, ?_, ?_, ?_, ?_, fun language => mem_grouped _ _ _, ?_, ?_⟩
  · intro key directory hdirectory
    rw [eq_of_getElem?_grouped _ _ _ hdirectory]
    exact DirectoryReport.rollsUp_foldl_add _
  · rw [length_eq_sum]
    refine sum_grouped _ _ _ (fun directory : DirectoryReport => directory.total.files) _
      (fun reports => ?_) reports
    rw [(htotal reports).files, length_eq_sum]
  · exact sum_grouped _ _ _ (fun directory : DirectoryReport => directory.total.lines) _
      (fun reports => (htotal reports).lines) reports
  · exact sum_grouped _ _ _ (fun directory : DirectoryReport => directory.total.complexity) _
      (fun reports => (htotal reports).complexity) reports
  · -- a file counts for the language in its own directory only
    intro language
    rw [getD_grouped, (LanguageSummary.foldl_add _).1, length_eq_sum, sum_map_filter]
    refine sum_grouped _ _ _ (fun directory : DirectoryReport =>
      (directory.languages.getD language {}).files) _ ?_
      reports
    intro reports
    rw [(DirectoryReport.getD_languages_foldl_add language reports).files, length_eq_sum,
      sum_map_filter]
  · intro language
    rw [getD_grouped, (LanguageSummary.foldl_add _).2, sum_map_filter]
    refine sum_grouped _ _ _ (fun directory : DirectoryReport =>
      (directory.languages.getD language {}).lines) _ ?_
      reports
    intro reports
    rw [(DirectoryReport.getD_languages_foldl_add language reports).lines, sum_map_filter]

theorem totalComplexity_ofFiles (reports : List FileReport) :
    (ProjectMetrics.ofFiles reports).totalComplexity = (reports.map FileReport.complexity).sum := by
  cases reports with
  | nil => rfl
  | cons first rest => rfl

/-- Directories, languages and the whole project count the same files: each one in its own
directory, there in its own language, and nowhere else. -/
theorem rollups_agree (root : Path) (reports : List FileReport) :
    RollsUp root reports (directoriesOf root reports) (languagesOf reports) ∧
    RollsUp root reports (ofFiles root reports).directories (ofFiles root reports).languages ∧
    ((ofFiles root reports).directories.toList.map fun entry => entry.2.total.lines).sum =
      (ofFiles root reports).totalLines ∧
    ((ofFiles root reports).directories.toList.map fun entry => entry.2.total.complexity).sum =
      (ofFiles root reports).metrics.totalComplexity := by
  have hsorted := rollsUp_of_files root (ofFiles root reports).files
  have hperm : (ofFiles root reports).files.Perm reports := List.mergeSort_perm reports _
  refine ⟨rollsUp_of_files root reports, hsorted.perm hperm, hsorted.lines, ?_⟩
  exact hsorted.complexity.trans (totalComplexity_ofFiles _).symm

end ProjectReport
end CodeSurvey
