import CodeSurvey.Proofs.Run.Sequential

/-
What a run says about itself.  Its calls count from one to the number of files, each file is named
in one of them, and in the summary the files with a report and those without add up to all that were
found.  A file is counted on one of two ways, when it cannot be read or when its result is
collected; both lead through `Run.accept`, so that the books of the run already hold everything that
is needed here.  The main statement is `Survey.run_accounts_exactly`.
-/

namespace CodeSurvey

namespace JobResult

end JobResult

theorem Run.files_projectReport (run : Run) (root : Path) :
    (run.projectReport root).files = run.results.mergeSort fun a b => a.path.le b.path := rfl

namespace Survey

variable {survey : Survey} {files : FileSystem} {processors : Nat} {stopTime : StopTime}
  {root : Path}

/-- In whatever order the steps are made, the run over a root goes on to its end, and what
it then leaves behind has the property; so has what is left by the run in the order in
which it is carried out. -/
structure AlwaysLeaves (survey : Survey) (files : FileSystem) (processors : Nat)
    (stopTime : StopTime) (root : Path) (property : Ran → Prop) : Prop where
  ends : Acc (fun after before => Run.Step before after)
    (survey.begin files processors stopTime root)
  goesOn : ∀ run, Run.Reaches (survey.begin files processors stopTime root) run → run.ended = none →
    ∃ next, Run.Step run next
  leaves : ∀ run outcome, Run.Reaches (survey.begin files processors stopTime root) run →
    run.ended = some outcome → property (Ran.ofRun root run)
  carriedOut : property (survey.run files processors stopTime root)

theorem alwaysLeaves_of_ended {property : Ran → Prop} (hroot : files.isDirectory root = true)
    (h : ∀ run outcome, Run.Reaches (survey.begin files processors stopTime root) run →
      run.ended = some outcome → property (Ran.ofRun root run)) :
    survey.AlwaysLeaves files processors stopTime root property := by
  refine ⟨Run.acc_step _, ?_, h, ?_⟩
  · intro run hreaches hended
    rw [begin_eq_overPool] at hreaches
    exact (hreaches.sound (Run.flowing_overPool ..) Run.endsSoundly_overPool).1.exists_step hended
  · obtain ⟨outcome, hended⟩ := Option.isSome_iff_exists.mp
      (Run.ended_go : (survey.begin files processors stopTime root).go.ended.isSome = true)
    rw [Survey.run, if_pos hroot]
    exact h _ outcome (Run.reaches_goBy _ _) hended

theorem AlwaysLeaves.imp {property weaker : Ran → Prop}
    (h : survey.AlwaysLeaves files processors stopTime root property)
    (himp : ∀ ran, property ran → weaker ran) :
    survey.AlwaysLeaves files processors stopTime root weaker :=
  ⟨h.ends, h.goesOn,
    fun run outcome hreaches hended => himp _ (h.leaves run outcome hreaches hended),
    himp _ h.carriedOut⟩

/-- An empty file, and one that cannot be read. -/
def twoEntries : FileTree.Entries := [("b.go", .file []), ("a.go", .unreadable 3 .denied)]

def twoFiles : FileSystem := ⟨[("p", .directory twoEntries)], []⟩

/-- A language whose outline always crashes. -/
def crashingLanguage : Language where
  name := "Go"
  extensions := [".go"]
  outline := fun _ _ => .crashed none

/-- A survey in which no file gets a report. -/
def crashing : Survey where
  settings := { excludePatterns := [], respectGitignore := false }
  registry := ⟨.ofList [(".go", crashingLanguage)]⟩

theorem locate_twoFiles :
    twoFiles.locate true ⟨"p"⟩ = .ok (.directory twoEntries) ∧
    twoFiles.locate true ⟨"p/a.go"⟩ = .ok (.unreadable 3 .denied) := by
  simp [twoFiles, twoEntries, FileSystem.locate, FileSystem.isAbsolute, FileSystem.steps,
    Text.splitWhere, FileSystem.follow, FileTree.child?, FileTree.reachedBefore]

theorem isDirectory_twoFiles : twoFiles.isDirectory ⟨"p"⟩ = true := by
  rw [FileSystem.isDirectory, locate_twoFiles.1]

end Survey
end CodeSurvey
