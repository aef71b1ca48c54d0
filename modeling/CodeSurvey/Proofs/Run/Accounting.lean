import Mathlib.Data.List.Basic
import CodeSurvey.Proofs.Run.BackPressure

/-
The books of a run.  Every file that was found has one result, which is owed until it is recorded;
where it waits in between is a matter of the interleaving.  `Accounts` says that what a run has
recorded since its start and what it still owes are together what it owed then.  A run that ended
well owes nothing: `Reaches.exists_perm_of_ended`.
-/

namespace CodeSurvey

/-- The result of a file: the fault of reading it, or the outcome of its job. -/
def Discovered.result (files : FileSystem) (maxFileSize : Nat) (file : Discovered) : JobResult where
  path := file.path
  outcome :=
    match Survey.readCapped files file.path maxFileSize with
    | .error fault => .error fault
    | .ok content => (Job.mk file.path content file.language).outcome

namespace Run

variable {start run next : Run} {settled : List JobResult}

/-- Every result that is still to be recorded. -/
def owed (run : Run) : Multiset JobResult :=
  ↑(run.pending.map (Discovered.result run.files run.maxFileSize)) +
    ↑(run.inHand.toList.map Job.run)
    + run.pool.owed

/-- The results `settled` were recorded since the start of a run, in this order,
and nothing else was. -/
structure Recorded (start run : Run) (settled : List JobResult) : Prop where
  files : run.files = start.files
  maxFileSize : run.maxFileSize = start.maxFileSize
  total : run.total = start.total
  results : run.results = start.results ++ settled.filterMap JobResult.report?
  failures : run.failures = start.failures ++ settled.filterMap JobResult.failure?
  failed : run.failed = start.failed + (settled.filterMap JobResult.failure?).length
  progress : run.progress = start.progress ++ settled.mapIdx fun index result =>
    ⟨start.progress.length + index + 1, start.total, result.path⟩

/-- What was recorded and what is still owed are together what was owed at the start. -/
structure Accounts (start run : Run) (settled : List JobResult) : Prop
    extends Recorded start run settled where
  owed : start.owed = ↑settled + run.owed

theorem accounts_refl (start : Run) : Accounts start start [] :=
  ⟨⟨rfl, rfl, rfl, by simp, by simp, by simp, by simp⟩, by simp⟩

theorem filterMap_concat {α β : Type} (f : α → Option β) (items : List α) (item : α) :
    (items ++ [item]).filterMap f = items.filterMap f ++ (f item).toList := by
  rw [List.filterMap_append]
  cases h : f item <;> simp [h]

theorem Recorded.accept (h : Recorded start run settled) (result : JobResult) :
    Recorded start (run.accept result) (settled ++ [result]) := by
  have hlength : run.progress.length = start.progress.length + settled.length := by
    rw [h.progress, List.length_append, List.length_mapIdx]
  rw [accept_eq]
  refine ⟨h.files, h.maxFileSize, h.total, ?_, ?_, ?_, ?_⟩
  · rw [filterMap_concat, ← List.append_assoc, ← h.results]
  · rw [filterMap_concat, ← List.append_assoc, ← h.failures]
  · rw [filterMap_concat, List.length_append, ← Nat.add_assoc, ← h.failed]
  · rw [List.mapIdx_concat, ← List.append_assoc, ← h.progress, hlength, h.total]

theorem coe_append_singleton {α : Type} (items : List α) (item : α) :
    (↑(items ++ [item]) : Multiset α) = ↑items + {item} := by
  rw [← Multiset.coe_add, Multiset.coe_singleton]

theorem Collects.accounts (h : Collects run next) (haccounts : Accounts start run settled) :
    ∃ settled', Accounts start next settled' := by
  cases h with
  | cancelled => exact ⟨settled, { haccounts with }⟩
  | @unreadable file rest fault hcollecting hhand hpending hread =>
      have hresult : file.result run.files run.maxFileSize = ⟨file.path, .error fault⟩ := by
        simp only [Discovered.result, hread]
      have hrecorded : Recorded start { run with pending := rest } settled :=
        { haccounts.toRecorded with }
      refine ⟨_, hrecorded.accept ⟨file.path, .error fault⟩, ?_⟩
      rw [haccounts.owed]
      simp only [owed, accept_eq, hpending, List.map_cons, hresult,
        ← Multiset.cons_coe, ← Multiset.singleton_add, coe_append_singleton]
      ac_rfl
  | @read file rest content hcollecting hhand hpending hread =>
      have hresult : file.result run.files run.maxFileSize =
          (Job.mk file.path content file.language).run := by
        simp only [Discovered.result, hread, Job.run]
      refine ⟨settled, { haccounts.toRecorded with }, ?_⟩
      rw [haccounts.owed]
      simp only [owed, hhand, hpending, List.map_cons, hresult, ← Multiset.cons_coe,
        ← Multiset.singleton_add, Option.toList_none, Option.toList_some, List.map_nil]
      ac_rfl
  | handed hcollecting hhand hsubmit =>
      refine ⟨settled, { haccounts.toRecorded with }, ?_⟩
      rw [haccounts.owed]
      simp only [owed, hhand, Pool.owed_submit hsubmit, Option.toList_none,
        Option.toList_some, List.map_cons, List.map_nil, Multiset.coe_singleton, Multiset.coe_nil]
      ac_rfl
  | full => exact ⟨settled, { haccounts with }⟩
  | refused => exact ⟨settled, { haccounts with }⟩
  | closed => exact ⟨settled, { haccounts with }⟩
  | @collected result pool hcollecting hstopped hreceive =>
      have hrecorded : Recorded start
          { run with pool, inFlight := run.inFlight - 1, collecting := false } settled :=
        { haccounts.toRecorded with }
      refine ⟨_, hrecorded.accept result, ?_⟩
      rw [haccounts.owed]
      simp only [owed, accept_eq, Pool.owed_receive hreceive, coe_append_singleton]
      ac_rfl
  | draining => exact ⟨settled, { haccounts with }⟩
  | finished => exact ⟨settled, { haccounts with }⟩

theorem Step.accounts (h : Step run next) (haccounts : Accounts start run settled) :
    ∃ settled', Accounts start next settled' := by
  cases h with
  | collector h => exact (collects_of_step h).2.accounts haccounts
  | worker index h =>
      obtain ⟨pool, hstep, rfl⟩ := workerStep_eq h
      refine ⟨settled, { haccounts.toRecorded with }, ?_⟩
      rw [haccounts.owed]
      simp only [owed, Pool.owed_step hstep]

/-- The books balance in every interleaving. -/
theorem Reaches.accounts (h : Reaches start run) : ∃ settled, Accounts start run settled := by
  induction h with
  | refl => exact ⟨[], accounts_refl start⟩
  | tail _ hstep ih =>
      obtain ⟨settled, haccounts⟩ := ih
      exact hstep.accounts haccounts

theorem Reaches.sound (h : Reaches start run) (hflowing : start.Flowing)
    (hends : start.EndsSoundly) : run.Flowing ∧ run.EndsSoundly := by
  induction h with
  | refl => exact ⟨hflowing, hends⟩
  | tail _ hstep ih => exact ⟨hstep.flowing ih.1, hstep.endsSoundly ih.1 ih.2⟩

theorem Reaches.stopTime_eq (h : Reaches start run) : run.stopTime = start.stopTime := by
  induction h with
  | refl => rfl
  | tail _ hstep ih => exact hstep.stopTime_eq.trans ih

theorem Flowing.owed_eq_zero (h : run.Flowing) (hhand : run.inHand = none)
    (hpending : run.pending = []) (hflight : run.inFlight = 0) : run.owed = 0 := by
  have hpool : run.pool.owed = 0 := Multiset.card_eq_zero.mp (h.inFlight ▸ hflight)
  simp [owed, hhand, hpending, hpool]

variable {files : FileSystem} {maxFileSize : Nat} {stopTime : StopTime} {found : List Discovered}
  {failures : List FileFailure} {size capacity : Nat}

theorem owed_overPool : (overPool files maxFileSize stopTime found failures size capacity).owed =
    ↑(found.map (Discovered.result files maxFileSize)) := by
  rw [owed, overPool, Pool.owed_create_start]
  simp

theorem endsSoundly_overPool :
    (overPool files maxFileSize stopTime found failures size capacity).EndsSoundly := by
  simp [EndsSoundly, overPool]

/-- A run that ended well has recorded the result of each file that was found, once. -/
theorem Reaches.exists_perm_of_ended
    (h : Reaches (overPool files maxFileSize stopTime found failures size capacity) run)
    (hended : run.ended = some (.ok ())) :
    ∃ settled,
      Recorded (overPool files maxFileSize stopTime found failures size capacity) run settled ∧
      settled.Perm (found.map (Discovered.result files maxFileSize)) := by
  obtain ⟨settled, haccounts⟩ := h.accounts
  obtain ⟨hflowing, hends⟩ := h.sound (flowing_overPool ..) endsSoundly_overPool
  rcases hends _ hended with ⟨_, hhand, hpending, hflight⟩ | ⟨hcancelled, _⟩
  · have howed := haccounts.owed
    rw [owed_overPool, hflowing.owed_eq_zero hhand hpending hflight, add_zero] at howed
    exact ⟨settled, haccounts.toRecorded, (Multiset.coe_eq_coe.mp howed).symm⟩
  · contradiction

end Run
end CodeSurvey
