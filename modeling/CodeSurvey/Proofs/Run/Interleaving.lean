import Mathlib.Logic.Relation
import CodeSurvey.Proofs.Pool.Operations
import CodeSurvey.Run

/-
The steps of a run, said once.  Collector and workers take turns in any order; `Step` is one turn,
and an interleaving is a chain of them.  Each turn brings the run nearer to its end by the measure
`remaining`, so that no interleaving goes on for ever.
-/

namespace CodeSurvey

namespace JobResult

/-- The report that a result carries, if it is one. -/
def report? (result : JobResult) : Option FileReport := result.outcome.toOption

/-- The failure that a result is recorded as, if it is one. -/
def failure? (result : JobResult) : Option FileFailure :=
  match result.outcome with
  | .ok _ => none
  | .error fault => some ⟨result.path, fault.message⟩

end JobResult

namespace Run

/-- A run over some files that is about to begin on a pool of its own, of the
given size and capacity. -/
def overPool (files : FileSystem) (maxFileSize : Nat) (stopTime : StopTime)
    (found : List Discovered) (failures : List FileFailure) (size capacity : Nat) : Run where
  files
  maxFileSize
  stopTime
  total := found.length
  pending := found
  inHand := none
  collecting := false
  pool := (Pool.create size capacity).start
  inFlight := 0
  progress := []
  failed := 0
  results := []
  failures
  ended := none

theorem ofFiles_eq_overPool (survey : Survey) (files : FileSystem) (processors : Nat)
    (stopTime : StopTime) (found : List Discovered) (failures : List FileFailure) :
    ofFiles survey files processors stopTime found failures =
      overPool files survey.settings.maxFileSize stopTime found failures
        (survey.settings.workers processors) (survey.settings.queueCapacity processors) := rfl

/-- One step of the collector or of a worker. -/
inductive Step : Run → Run → Prop
  | collector {run next : Run} (h : run.collectorStep = some next) : Step run next
  | worker {run next : Run} (index : Nat) (h : run.workerStep index = some next) : Step run next

/-- What some interleaving can make of a run. -/
def Reaches : Run → Run → Prop := Relation.ReflTransGen Step

/-- What a collector that has not ended can do next, with everything that lets it. -/
inductive Collects (run : Run) : Run → Prop
  | cancelled (hstopped : run.isStopped = true) (hhand : run.inHand = none ∨ run.collecting = true)
      (hleft : run.pending ≠ [] ∨ run.collecting = true) :
      Collects run (run.endWith (.error .cancelled))
  | unreadable {file : Discovered} {rest : List Discovered} {fault : Fault}
      (hcollecting : run.collecting = false) (hhand : run.inHand = none)
      (hpending : run.pending = file :: rest)
      (hread : Survey.readCapped run.files file.path run.maxFileSize = .error fault)
      (hstopped : run.isStopped = false) :
      Collects run ({ run with pending := rest }.accept ⟨file.path, .error fault⟩)
  | read {file : Discovered} {rest : List Discovered} {content : List UInt8}
      (hcollecting : run.collecting = false) (hhand : run.inHand = none)
      (hpending : run.pending = file :: rest)
      (hread : Survey.readCapped run.files file.path run.maxFileSize = .ok content)
      (hstopped : run.isStopped = false) :
      Collects run
        { run with pending := rest, inHand := some ⟨file.path, content, file.language⟩ }
  | handed {job : Job} {pool : Pool} (hcollecting : run.collecting = false)
      (hhand : run.inHand = some job) (hsubmit : run.pool.submit job = .ok pool) :
      Collects run { run with pool, inHand := none, inFlight := run.inFlight + 1 }
  | full {job : Job} {rejected : Rejected} (hcollecting : run.collecting = false)
      (hhand : run.inHand = some job) (hsubmit : run.pool.submit job = .error rejected)
      (hflight : 0 < run.inFlight) : Collects run { run with collecting := true }
  | refused {job : Job} {rejected : Rejected} (hcollecting : run.collecting = false)
      (hhand : run.inHand = some job) (hsubmit : run.pool.submit job = .error rejected)
      (hreason : run.inFlight = 0 ∨ rejected.reason = .poolStopped) :
      Collects run (run.endWith (.error rejected.reason))
  | closed {fault : Fault} (hcollecting : run.collecting = true)
      (hreceive : run.pool.receive = .error fault) : Collects run (run.endWith (.error fault))
  | collected {result : JobResult} {pool : Pool} (hcollecting : run.collecting = true)
      (hstopped : run.isStopped = false) (hreceive : run.pool.receive = .ok (some result, pool)) :
      Collects run
        ({ run with pool, inFlight := run.inFlight - 1, collecting := false }.accept result)
  | draining (hcollecting : run.collecting = false) (hhand : run.inHand = none)
      (hflight : 0 < run.inFlight) : Collects run { run with collecting := true }
  | finished (hcollecting : run.collecting = false) (hhand : run.inHand = none)
      (hpending : run.pending = []) (hflight : run.inFlight = 0) :
      Collects run (run.endWith (.ok ()))

variable {run next : Run}

theorem collects_of_collect (hcollecting : run.collecting = true) (h : run.collect = some next) :
    Collects run next := by
  unfold collect at h
  by_cases hstopped : run.isStopped = true
  · simp only [hstopped, if_true, Option.some.injEq] at h
    rw [← h]
    exact .cancelled hstopped (.inr hcollecting) (.inr hcollecting)
  · simp only [hstopped, if_false, Bool.false_eq_true] at h
    cases hreceive : run.pool.receive with
    | error fault =>
        simp only [hreceive, Option.some.injEq] at h
        rw [← h]
        exact .closed hcollecting hreceive
    | ok received =>
        obtain ⟨result, pool⟩ := received
        cases result with
        | none => simp [hreceive] at h
        | some result =>
            simp only [hreceive, Option.some.injEq] at h
            rw [← h]
            exact .collected hcollecting (Bool.eq_false_iff.mpr hstopped) hreceive

theorem collects_submit {job : Job} (hcollecting : run.collecting = false)
    (hhand : run.inHand = some job) : Collects run (run.submit job) := by
  unfold submit
  cases hsubmit : run.pool.submit job with
  | ok pool => exact .handed hcollecting hhand hsubmit
  | error rejected =>
      rcases Pool.submit_error hsubmit with ⟨_, hrejected⟩ | ⟨_, _, _, hrejected⟩
      · simp only [hrejected]
        exact .refused hcollecting hhand (hrejected ▸ hsubmit) (.inr rfl)
      · simp only [hrejected]
        by_cases hflight : 0 < run.inFlight
        · simp only [hflight, if_true]
          exact .full hcollecting hhand hsubmit hflight
        · simp only [hflight, if_false]
          exact .refused hcollecting hhand (hrejected ▸ hsubmit) (.inl (by omega))

theorem collects_readNext {file : Discovered} {rest : List Discovered}
    (hcollecting : run.collecting = false) (hhand : run.inHand = none)
    (hpending : run.pending = file :: rest) : Collects run (run.readNext file rest) := by
  unfold readNext
  by_cases hstopped : run.isStopped = true
  · simp only [hstopped, if_true]
    exact .cancelled hstopped (.inl hhand) (.inl (by simp [hpending]))
  · have hgoing : run.isStopped = false := Bool.eq_false_iff.mpr hstopped
    simp only [hgoing, if_false, Bool.false_eq_true]
    cases hread : Survey.readCapped run.files file.path run.maxFileSize with
    | error fault => exact .unreadable hcollecting hhand hpending hread hgoing
    | ok content => exact .read hcollecting hhand hpending hread hgoing

theorem collects_of_step (h : run.collectorStep = some next) :
    run.ended = none ∧ Collects run next := by
  unfold collectorStep at h
  cases hended : run.ended with
  | some outcome => simp [hended] at h
  | none =>
      refine ⟨rfl, ?_⟩
      cases hcollecting : run.collecting with
      | true =>
          simp only [hended, hcollecting, Option.isSome_none, if_true, Bool.false_eq_true,
            if_false] at h
          exact collects_of_collect hcollecting h
      | false =>
          simp only [hended, hcollecting, Option.isSome_none, Bool.false_eq_true, if_false] at h
          cases hhand : run.inHand with
          | some job =>
              simp only [hhand, Option.some.injEq] at h
              rw [← h]
              exact collects_submit hcollecting hhand
          | none =>
              cases hpending : run.pending with
              | cons file rest =>
                  simp only [hhand, hpending, Option.some.injEq] at h
                  rw [← h]
                  exact collects_readNext hcollecting hhand hpending
              | nil =>
                  simp only [hhand, hpending] at h
                  by_cases hflight : 0 < run.inFlight
                  · simp only [hflight, if_true, Option.some.injEq] at h
                    rw [← h]
                    simpa only [hended, hhand, hpending] using
                      Collects.draining hcollecting hhand hflight
                  · simp only [hflight, if_false, Option.some.injEq] at h
                    rw [← h]
                    exact .finished hcollecting hhand hpending (by omega)

theorem workerStep_eq {index : Nat} (h : run.workerStep index = some next) :
    ∃ pool, run.pool.step (fun _ => true) index = some pool ∧ next = { run with pool } := by
  rw [workerStep, Option.map_eq_some_iff] at h
  obtain ⟨pool, hstep, hnext⟩ := h
  exact ⟨pool, hstep, hnext.symm⟩

/-- What is recorded of a result; nothing else changes when it is accepted. -/
theorem accept_eq (run : Run) (result : JobResult) :
    run.accept result =
      { run with
        results := run.results ++ result.report?.toList
        failures := run.failures ++ result.failure?.toList
        failed := run.failed + result.failure?.toList.length
        progress := run.progress ++ [⟨run.progress.length + 1, run.total, result.path⟩] } := by
  obtain ⟨path, outcome⟩ := result
  cases outcome with
  | ok report => simp [accept, JobResult.report?, JobResult.failure?, Run.report, Except.toOption]
  | error fault =>
      simp [accept, fail, JobResult.report?, JobResult.failure?, Run.report, Except.toOption]

/-- A bound on the steps that are still to be made, whoever makes them.  A file costs one step to be
read, one to be handed over, three of a worker, and two to be collected, since the collector first
turns to collecting. -/
def remaining (run : Run) : Nat :=
  8 * run.pending.length + 7 * run.inHand.toList.length + run.pool.weight + 3 * run.pool.owed.card
    + (if run.collecting then 0 else 1) + (if run.ended.isSome then 0 else 1)

theorem endWith_remaining_lt (hended : run.ended = none) (outcome : Except Fault Unit) :
    (run.endWith outcome).remaining < run.remaining := by
  simp only [remaining, endWith, hended, Option.isSome_some, Option.isSome_none, if_true,
    Bool.false_eq_true, if_false]
  exact Nat.lt_succ_self _

theorem Collects.remaining_lt (hended : run.ended = none) (h : Collects run next) :
    next.remaining < run.remaining := by
  cases h with
  | cancelled => exact endWith_remaining_lt hended _
  | unreadable hcollecting hhand hpending hread =>
      simp only [accept_eq, remaining, hpending, List.length_cons]
      omega
  | read hcollecting hhand hpending hread =>
      simp only [remaining, hhand, hpending, List.length_cons, Option.toList_some,
        Option.toList_none, List.length_nil]
      omega
  | handed hcollecting hhand hsubmit =>
      simp only [remaining, hhand, Pool.owed_submit hsubmit, Pool.weight_submit hsubmit,
        Multiset.card_add, Multiset.card_singleton, Option.toList_some, Option.toList_none,
        List.length_cons, List.length_nil]
      omega
  | full hcollecting => simp [remaining, hcollecting]
  | refused => exact endWith_remaining_lt hended _
  | closed => exact endWith_remaining_lt hended _
  | collected hcollecting hstopped hreceive =>
      simp only [accept_eq, remaining, hcollecting, Pool.owed_receive hreceive,
        Pool.weight_receive hreceive, Multiset.card_add, Multiset.card_singleton, if_true,
        Bool.false_eq_true, if_false]
      omega
  | draining hcollecting => simp [remaining, hcollecting]
  | finished => exact endWith_remaining_lt hended _

/-- Every step brings the run nearer to its end. -/
theorem Step.remaining_lt (h : Step run next) : next.remaining < run.remaining := by
  cases h with
  | collector h =>
      obtain ⟨hended, hcollects⟩ := collects_of_step h
      exact hcollects.remaining_lt hended
  | worker index h =>
      obtain ⟨pool, hstep, rfl⟩ := workerStep_eq h
      have hweight := Pool.weight_step hstep
      simp only [remaining, Pool.owed_step hstep]
      omega

/-- No interleaving goes on for ever. -/
theorem acc_step (run : Run) : Acc (fun after before => Step before after) run :=
  Subrelation.accessible (fun h => h.remaining_lt)
    (InvImage.accessible remaining (Nat.lt_wfRel.wf.apply _))

end Run
end CodeSurvey
