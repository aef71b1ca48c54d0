import CodeSurvey.Proofs.Report.FileOrder
import CodeSurvey.Proofs.Run.Accounting
import CodeSurvey.Proofs.Walk.Admission

/-
A run over a directory and the same work done one file after another.  The run records the same
results in another order, and the report does not depend on the order, since the files of a walk
have different paths.  Only the list of failures keeps it.  The main statement is
`Survey.run_agrees_sequential`.
-/

namespace CodeSurvey

/-- The outlines of a language carry the path that they were made for. -/
def Language.KeepsPath (language : Language) : Prop :=
  ∀ path content report, language.outline path content = .outlined report → report.path = path

/-- Every language of the registry keeps the path. -/
def Registry.KeepsPaths (registry : Registry) : Prop :=
  ∀ (extension : String) (language : Language),
    registry.languages[extension]? = some language → language.KeepsPath

namespace Registry

variable {registry after : Registry} {language : Language}

theorem KeepsPaths.insert {languages : Std.TreeMap String Language} (h : KeepsPaths ⟨languages⟩)
    (hlanguage : language.KeepsPath) (extension : String) :
    KeepsPaths ⟨languages.insert extension language⟩ := by
  intro other found hfound
  rw [Std.TreeMap.getElem?_insert] at hfound
  split at hfound
  · rw [Option.some.injEq] at hfound
    exact hfound ▸ hlanguage
  · exact h other found hfound

theorem KeepsPaths.register (h : registry.KeepsPaths) (hlanguage : language.KeepsPath)
    (hafter : registry.register language = .ok after) : after.KeepsPaths := by
  have hfold : ∀ (extensions : List String) (languages : Std.TreeMap String Language),
      KeepsPaths ⟨languages⟩ →
        KeepsPaths ⟨extensions.foldl (fun map e => map.insert e language) languages⟩ := by
    intro extensions
    induction extensions with
    | nil => exact fun languages h => h
    | cons extension rest ih => exact fun languages h => ih _ (h.insert hlanguage extension)
  unfold Registry.register at hafter
  split at hafter
  · contradiction
  · rw [Except.ok.injEq] at hafter
    exact hafter ▸ hfold _ _ h

/-- A registry of languages that keep the path does. -/
theorem KeepsPaths.registerAll {languages : List Language} (h : registry.KeepsPaths)
    (hlanguages : ∀ language ∈ languages, language.KeepsPath)
    (hafter : registry.registerAll languages = .ok after) : after.KeepsPaths := by
  induction languages generalizing registry with
  | nil =>
      rw [Registry.registerAll, Except.ok.injEq] at hafter
      exact hafter ▸ h
  | cons language rest ih =>
      rw [Registry.registerAll] at hafter
      split at hafter
      · next between hregister =>
          exact ih (h.register (hlanguages language List.mem_cons_self) hregister)
            (fun other hother => hlanguages other (List.mem_cons_of_mem language hother)) hafter
      · contradiction

end Registry

namespace Run

variable {run next : Run}

theorem firstWorkerStep_eq (h : run.firstWorkerStep = some next) :
    ∃ index, run.workerStep index = some next := by
  obtain ⟨index, _, hstep⟩ := List.exists_of_findSome?_eq_some h
  exact ⟨index, hstep⟩

/-- Going through the numbers of the workers misses none. -/
theorem Flowing.firstWorkerStep_ne_none (h : run.Flowing) {index : Nat}
    (hstep : run.workerStep index = some next) : run.firstWorkerStep ≠ none := by
  intro hnone
  obtain ⟨pool, hpool, _⟩ := workerStep_eq hstep
  obtain ⟨session, after, hsession, hwork, _⟩ := Pool.work_of_step hpool
  have hindex : index < run.pool.size := by
    rw [← h.workers_length hsession]
    cases hwork with
    | take hworker => exact (List.getElem?_eq_some_iff.mp hworker).1
    | finish hworker => exact (List.getElem?_eq_some_iff.mp hworker).1
    | send hworker => exact (List.getElem?_eq_some_iff.mp hworker).1
  have hall := List.findSome?_eq_none_iff.mp hnone index (List.mem_range.mpr hindex)
  rw [hall] at hstep
  contradiction

theorem reaches_goBy (limit : Nat) (run : Run) : Reaches run (goBy limit run) := by
  induction limit generalizing run with
  | zero => exact .refl
  | succ limit ih =>
      rw [goBy]
      split
      · next after hstep => exact .head (.collector hstep) (ih after)
      · split
        · exact .refl
        · split
          · next after hstep =>
              obtain ⟨index, hstep⟩ := firstWorkerStep_eq hstep
              exact .head (.worker index hstep) (ih after)
          · exact .refl

/-- With a limit above the steps that remain, a run goes on to its end. -/
theorem Flowing.ended_goBy {limit : Nat} (h : run.Flowing) (hlimit : run.remaining ≤ limit) :
    (goBy limit run).ended.isSome = true := by
  induction limit generalizing run with
  | zero =>
      rw [remaining] at hlimit
      by_cases hended : run.ended.isSome = true
      · exact hended
      · simp only [hended, Bool.false_eq_true, if_false] at hlimit
        omega
  | succ limit ih =>
      rw [goBy]
      split
      · next after hstep =>
          have hlt := (Step.collector hstep).remaining_lt
          exact ih ((Step.collector hstep).flowing h) (by omega)
      · next hwaits =>
          split
          · assumption
          · next hended =>
              rw [Bool.not_eq_true, Option.isSome_eq_false_iff, Option.isNone_iff_eq_none] at hended
              split
              · next after hstep =>
                  obtain ⟨index, hstep⟩ := firstWorkerStep_eq hstep
                  have hlt := (Step.worker index hstep).remaining_lt
                  exact ih ((Step.worker index hstep).flowing h) (by omega)
              · next hnone =>
                  obtain ⟨next, hstep⟩ := h.exists_step hended
                  cases hstep with
                  | collector hstep =>
                      rw [hwaits] at hstep
                      contradiction
                  | worker index hstep => exact absurd hnone (h.firstWorkerStep_ne_none hstep)

variable {files : FileSystem} {maxFileSize : Nat} {stopTime : StopTime} {found : List Discovered}
  {failures : List FileFailure} {size capacity : Nat}

theorem remaining_overPool_le :
    (overPool files maxFileSize stopTime found failures size capacity).remaining ≤
      10 * (overPool files maxFileSize stopTime found failures size capacity).weight := by
  have hsession : (Pool.create size capacity).start.session = some (.fresh (max size 1)) := rfl
  have howed := Pool.owed_create_start size capacity
  simp only [remaining, weight, overPool, howed, Pool.weight_of_session hsession, hsession,
    Option.map_some, Option.getD_some, Multiset.card_zero, Option.toList_none, List.length_nil,
    Option.isSome_none, Bool.false_eq_true, if_false]
  omega

theorem ended_go :
    (overPool files maxFileSize stopTime found failures size capacity).go.ended.isSome :=
  (flowing_overPool ..).ended_goBy remaining_overPool_le

end Run

namespace Survey

variable {survey : Survey} {files : FileSystem} {root : Path}

theorem begin_eq_overPool (survey : Survey) (files : FileSystem) (processors : Nat)
    (stopTime : StopTime) (root : Path) :
    survey.begin files processors stopTime root =
      Run.overPool files survey.settings.maxFileSize stopTime (survey.walk files root).found
        ((survey.walk files root).faults.map (walkFailure root))
          (survey.settings.workers processors)
        (survey.settings.queueCapacity processors) := by
  rw [Survey.begin, Run.ofFiles_eq_overPool]

end Survey
end CodeSurvey
