import CodeSurvey.Proofs.Run.Interleaving

/-
Back-pressure.  Two bounded queues stand between the collector and the workers, and each side waits
for the other.  That they never wait for each other in a circle, and that a full queue never ends a
run, both follow from an exact account of the jobs in flight: `Flowing` says that the collector's
counter is what the pool still owes.
-/

namespace CodeSurvey
namespace Run

variable {run next : Run}

/-- The pool runs with all its workers, the counter is what it owes, and a collector that
waits is owed something. -/
structure Flowing (run : Run) : Prop where
  running : ∃ session, run.pool.session = some session ∧ session.workers.length = run.pool.size
  size_pos : 0 < run.pool.size
  capacity_pos : 0 < run.pool.capacity
  inFlight : run.inFlight = run.pool.owed.card
  collecting : run.collecting = true → 0 < run.inFlight

theorem flowing_overPool (files : FileSystem) (maxFileSize : Nat) (stopTime : StopTime)
    (found : List Discovered) (failures : List FileFailure) (size capacity : Nat) :
    (overPool files maxFileSize stopTime found failures size capacity).Flowing where
  running := ⟨.fresh (max size 1), rfl, List.length_replicate⟩
  size_pos := Nat.le_max_right _ _
  capacity_pos := Nat.le_max_right _ _
  inFlight := by
    simp only [overPool]
    rw [Pool.owed_create_start, Multiset.card_zero]
  collecting := by simp [overPool]

theorem Flowing.workers_length {session : Session} (h : run.Flowing)
    (hsession : run.pool.session = some session) : session.workers.length = run.pool.size := by
  obtain ⟨session', hsession', hworkers⟩ := h.running
  rw [hsession, Option.some.injEq] at hsession'
  rw [hsession', hworkers]

theorem Collects.flowing (h : Collects run next) (hflowing : run.Flowing) : next.Flowing := by
  cases h with
  | cancelled => exact { hflowing with }
  | unreadable =>
      rw [accept_eq]
      exact { hflowing with }
  | read => exact { hflowing with }
  | handed hcollecting hhand hsubmit =>
      have howed := congrArg Multiset.card (Pool.owed_submit hsubmit)
      rw [Multiset.card_add, Multiset.card_singleton] at howed
      obtain ⟨session, hsession, _, rfl⟩ := Pool.submit_ok hsubmit
      have hworkers := hflowing.workers_length hsession
      refine ⟨⟨_, rfl, hworkers⟩, hflowing.size_pos, hflowing.capacity_pos, ?_,
        fun _ => Nat.succ_pos _⟩
      simp only [howed, hflowing.inFlight]
      omega
  | full hcollecting hhand hsubmit hflight =>
      exact { hflowing with collecting := fun _ => hflight }
  | refused => exact { hflowing with }
  | closed => exact { hflowing with }
  | collected hcollecting hstopped hreceive =>
      have howed := congrArg Multiset.card (Pool.owed_receive hreceive)
      rw [Multiset.card_add, Multiset.card_singleton, ← hflowing.inFlight] at howed
      obtain ⟨session, rest, hsession, _, rfl⟩ := Pool.receive_some hreceive
      have hworkers := hflowing.workers_length hsession
      rw [accept_eq]
      refine ⟨⟨_, rfl, hworkers⟩, hflowing.size_pos, hflowing.capacity_pos, ?_, by simp⟩
      simp only [howed]
      omega
  | draining hcollecting hhand hflight =>
      exact { hflowing with collecting := fun _ => hflight }
  | finished => exact { hflowing with }

theorem Step.flowing (h : Step run next) (hflowing : run.Flowing) : next.Flowing := by
  cases h with
  | collector h => exact (collects_of_step h).2.flowing hflowing
  | worker index h =>
      obtain ⟨pool, hstep, rfl⟩ := workerStep_eq h
      have howed := Pool.owed_step hstep
      obtain ⟨session, after, hsession, hwork, rfl⟩ := Pool.work_of_step hstep
      have hworkers := hflowing.workers_length hsession
      refine ⟨⟨after, rfl, hwork.workers_length.trans hworkers⟩, hflowing.size_pos,
        hflowing.capacity_pos, ?_, hflowing.collecting⟩
      simp only [howed, hflowing.inFlight]

/-- With nothing in flight the pool accepts any job. -/
theorem Flowing.submit_ok (h : run.Flowing) (hflight : run.inFlight = 0) (job : Job) :
    ∃ pool, run.pool.submit job = .ok pool := by
  obtain ⟨session, hsession, _⟩ := h.running
  have hjobs : session.jobs = [] := by
    have hcard := h.inFlight
    rw [hflight, Pool.owed_of_session hsession, Session.owed, Multiset.card_add, Multiset.card_add,
      Multiset.coe_card, List.length_map] at hcard
    exact List.length_eq_zero_iff.mp (by omega)
  refine ⟨{ run.pool with session := some { session with jobs := [job] } }, ?_⟩
  simp [Pool.submit, hsession, hjobs, h.capacity_pos]

/-- Some worker can go on while something is owed and no result waits to be read. -/
theorem Flowing.exists_work {session : Session} (h : run.Flowing)
    (hsession : run.pool.session = some session) (hflight : 0 < run.inFlight)
    (hresults : session.results = []) :
    ∃ index after, session.Work run.pool.capacity index after := by
  have hworkers := h.workers_length hsession
  by_cases hidle : ∀ worker ∈ session.workers, worker = .idle
  · -- All workers are idle, so what is owed waits in the queue, and the first worker can take it.
    have hsum : (session.workers.map Worker.owed).sum = 0 := by
      refine List.sum_eq_zero fun owed howed => ?_
      obtain ⟨worker, hmem, rfl⟩ := List.mem_map.mp howed
      rw [hidle worker hmem, Worker.owed_idle]
    have hcard := h.inFlight
    rw [Pool.owed_of_session hsession, Session.owed, hsum, hresults, add_zero, Multiset.coe_nil,
      add_zero, Multiset.coe_card, List.length_map] at hcard
    obtain ⟨job, rest, hjobs⟩ := List.exists_cons_of_length_pos (hcard ▸ hflight)
    have hpos : 0 < session.workers.length := hworkers ▸ h.size_pos
    exact ⟨0, _,
      .take (List.getElem?_eq_some_iff.mpr ⟨hpos, hidle _ (List.getElem_mem hpos)⟩) hjobs⟩
  · simp only [not_forall] at hidle
    obtain ⟨worker, hmem, hbusy⟩ := hidle
    obtain ⟨index, hworker⟩ := List.mem_iff_getElem?.mp hmem
    cases worker with
    | idle => exact absurd rfl hbusy
    | working job => exact ⟨index, _, .finish hworker⟩
    | sending result =>
        refine ⟨index, _, .send hworker ?_⟩
        rw [hresults]
        exact h.capacity_pos

theorem workerStep_of_work {session after : Session} {index : Nat}
    (hsession : run.pool.session = some session)
    (h : session.Work run.pool.capacity index after) :
    run.workerStep index = some { run with pool := { run.pool with session := some after } } := by
  simp [workerStep, Pool.step, hsession, Session.step_of_work h]

/-- A collector that does not wait for a result can always go on. -/
theorem exists_collectorStep (hended : run.ended = none) (hcollecting : run.collecting = false) :
    ∃ next, run.collectorStep = some next := by
  unfold collectorStep
  cases hhand : run.inHand with
  | some job => exact ⟨run.submit job, by simp [hended, hcollecting]⟩
  | none =>
      cases hpending : run.pending with
      | cons file rest => exact ⟨run.readNext file rest, by simp [hended, hcollecting]⟩
      | nil =>
          by_cases hflight : 0 < run.inFlight
          · exact ⟨_, by simp [hended, hcollecting, hflight]; rfl⟩
          · exact ⟨run.endWith (.ok ()), by simp [hended, hcollecting, hflight]⟩

/-- Before a run has ended, the collector or a worker can make a step. -/
theorem Flowing.exists_step (h : run.Flowing) (hended : run.ended = none) :
    ∃ next, Step run next := by
  cases hcollecting : run.collecting with
  | false =>
      obtain ⟨next, hstep⟩ := exists_collectorStep hended hcollecting
      exact ⟨next, .collector hstep⟩
  | true =>
      obtain ⟨session, hsession, _⟩ := h.running
      cases hresults : session.results with
      | nil =>
          obtain ⟨index, after, hwork⟩ := h.exists_work hsession (h.collecting hcollecting) hresults
          exact ⟨_, .worker index (workerStep_of_work hsession hwork)⟩
      | cons result rest =>
          by_cases hstopped : run.isStopped = true
          · have hstep : run.collectorStep = some (run.endWith (.error .cancelled)) := by
              simp [collectorStep, hended, hcollecting, collect, hstopped]
            exact ⟨_, .collector hstep⟩
          · have hreceive : run.pool.receive =
                .ok (some result,
                  { run.pool with session := some { session with results := rest } }) := by
              simp [Pool.receive, hsession, hresults]
            have hstep : run.collectorStep = run.collect := by
              simp [collectorStep, hended, hcollecting]
            simp only [collect, hstopped, hreceive, Bool.false_eq_true, if_false] at hstep
            exact ⟨_, .collector hstep⟩

/-- A run ends well only when nothing is left to do, and badly only when it was told to stop. -/
def EndsSoundly (run : Run) : Prop :=
  ∀ outcome, run.ended = some outcome →
    (outcome = .ok () ∧ run.inHand = none ∧ run.pending = [] ∧ run.inFlight = 0) ∨
      (outcome = .error .cancelled ∧ run.isStopped = true)

theorem Collects.endsSoundly (hended : run.ended = none) (h : Collects run next)
    (hflowing : run.Flowing) : next.EndsSoundly := by
  intro outcome houtcome
  cases h with
  | cancelled hstopped =>
      simp only [endWith, Option.some.injEq] at houtcome
      exact .inr ⟨houtcome.symm, hstopped⟩
  | unreadable => simp [accept_eq, hended] at houtcome
  | read => simp [hended] at houtcome
  | handed => simp [hended] at houtcome
  | full => simp [hended] at houtcome
  | @refused job rejected hcollecting hhand hsubmit hreason =>
      obtain ⟨session, hsession, _⟩ := hflowing.running
      rcases Pool.submit_error hsubmit with ⟨hnone, _⟩ | ⟨_, _, _, hrejected⟩
      · rw [hsession] at hnone
        contradiction
      · rcases hreason with hflight | hreason
        · obtain ⟨pool, hok⟩ := hflowing.submit_ok hflight job
          rw [hsubmit] at hok
          contradiction
        · rw [hrejected] at hreason
          contradiction
  | closed hcollecting hreceive =>
      obtain ⟨session, hsession, _⟩ := hflowing.running
      rw [(Pool.receive_error hreceive).1] at hsession
      contradiction
  | collected => simp [accept_eq, hended] at houtcome
  | draining => simp [hended] at houtcome
  | finished hcollecting hhand hpending hflight =>
      simp only [endWith, Option.some.injEq] at houtcome
      exact .inl ⟨houtcome.symm, hhand, hpending, hflight⟩

theorem Step.endsSoundly (h : Step run next) (hflowing : run.Flowing) (hends : run.EndsSoundly) :
    next.EndsSoundly := by
  cases h with
  | collector h =>
      obtain ⟨hended, hcollects⟩ := collects_of_step h
      exact hcollects.endsSoundly hended hflowing
  | worker index h =>
      obtain ⟨pool, _, rfl⟩ := workerStep_eq h
      exact hends

theorem Step.stopTime_eq (h : Step run next) : next.stopTime = run.stopTime := by
  cases h with
  | collector h =>
      cases (collects_of_step h).2 <;> simp [endWith, accept_eq]
  | worker index h =>
      obtain ⟨pool, _, rfl⟩ := workerStep_eq h
      rfl

theorem isStopped_of_never (h : run.stopTime = .never) : run.isStopped = false := by
  simp [isStopped, h]

/-- The job that the pool accepts at the next step of the collector, if it accepts one there. -/
def handsOver (run : Run) : Option Job :=
  if run.ended.isSome || run.collecting then none
  else run.inHand.filter fun job => (run.pool.submit job).isOk

/-- The result that the collector reads at its next step, if it reads one there. -/
def takesBack (run : Run) : Option JobResult :=
  if run.ended.isSome || ! run.collecting || run.isStopped then none
  else match run.pool.receive with
    | .ok (result, _) => result
    | .error _ => none

/-- A run with the jobs that its pool accepted and the results that were collected, in order. -/
structure Tracked where
  run : Run
  accepted : List Job
  collected : List JobResult

namespace Tracked

inductive Step : Tracked → Tracked → Prop
  | collector {tracked : Tracked} {next : Run} (h : tracked.run.collectorStep = some next) :
      Step tracked
        { run := next
          accepted := tracked.accepted ++ tracked.run.handsOver.toList
          collected := tracked.collected ++ tracked.run.takesBack.toList }
  | worker {tracked : Tracked} {next : Run} (index : Nat)
      (h : tracked.run.workerStep index = some next) : Step tracked { tracked with run := next }

variable {tracked after : Tracked}

theorem Step.run_step (h : Step tracked after) : Run.Step tracked.run after.run := by
  cases h with
  | collector h => exact .collector h
  | worker index h => exact .worker index h

/-- What was accepted and not collected is what the pool owes. -/
def Balanced (tracked : Tracked) : Prop :=
  (↑(tracked.accepted.map Job.run) : Multiset JobResult) =
    ↑tracked.collected + tracked.run.pool.owed

end Tracked

theorem Collects.balanced {accepted : List Job} {collected : List JobResult}
    (hended : run.ended = none) (h : Collects run next)
    (hbalanced : Tracked.Balanced ⟨run, accepted, collected⟩) :
    Tracked.Balanced
      ⟨next, accepted ++ run.handsOver.toList, collected ++ run.takesBack.toList⟩ := by
  simp only [Tracked.Balanced, List.map_append, ← Multiset.coe_add] at hbalanced ⊢
  rw [hbalanced]
  cases h with
  | cancelled hstopped hhand =>
      have hnone : run.handsOver = none := by
        rcases hhand with hhand | hcollecting
        · simp [handsOver, hhand]
        · simp [handsOver, hcollecting]
      simp [hnone, takesBack, hstopped, endWith]
  | unreadable hcollecting hhand => simp [handsOver, takesBack, hcollecting, hhand, accept_eq]
  | read hcollecting hhand => simp [handsOver, takesBack, hcollecting, hhand]
  | @handed job pool hcollecting hhand hsubmit =>
      have hover : run.handsOver = some job := by
        simp [handsOver, hended, hcollecting, hhand, hsubmit, Except.isOk, Except.toBool]
      simp only [hover, takesBack, hcollecting, Pool.owed_submit hsubmit, Option.toList_some,
        List.map_singleton, Multiset.coe_singleton, Bool.not_false, Bool.or_true, Bool.true_or,
        if_true, Option.toList_none, Multiset.coe_nil, add_zero]
      ac_rfl
  | full hcollecting hhand hsubmit =>
      simp [handsOver, takesBack, hcollecting, hhand, hsubmit, Except.isOk, Except.toBool]
  | refused hcollecting hhand hsubmit =>
      simp [handsOver, takesBack, hcollecting, hhand, hsubmit, Except.isOk, Except.toBool, endWith]
  | closed hcollecting hreceive => simp [handsOver, takesBack, hcollecting, hreceive, endWith]
  | @collected result pool hcollecting hstopped hreceive =>
      have hback : run.takesBack = some result := by
        simp [takesBack, hended, hcollecting, hstopped, hreceive]
      simp only [hback, handsOver, hcollecting, Pool.owed_receive hreceive, Bool.or_true, if_true,
        Option.toList_some, Option.toList_none, List.map_nil, Multiset.coe_nil, add_zero,
        Multiset.coe_singleton, accept_eq]
      ac_rfl
  | draining hcollecting hhand => simp [handsOver, takesBack, hcollecting, hhand]
  | finished hcollecting hhand => simp [handsOver, takesBack, hcollecting, hhand, endWith]

theorem Tracked.Step.balanced {tracked after : Tracked} (h : Step tracked after)
    (hbalanced : tracked.Balanced) : after.Balanced := by
  cases h with
  | collector h =>
      obtain ⟨hended, hcollects⟩ := collects_of_step h
      exact hcollects.balanced hended hbalanced
  | worker index h =>
      obtain ⟨pool, hstep, rfl⟩ := workerStep_eq h
      simpa only [Balanced, Pool.owed_step hstep] using hbalanced

/-- What every interleaving of a run that nobody tells to stop keeps true. -/
structure Tracked.Sound (tracked : Tracked) : Prop where
  stopTime : tracked.run.stopTime = .never
  flowing : tracked.run.Flowing
  ends : tracked.run.EndsSoundly
  balanced : tracked.Balanced

theorem Tracked.sound_overPool (files : FileSystem) (maxFileSize : Nat) (found : List Discovered)
    (failures : List FileFailure) (size capacity : Nat) :
    Sound ⟨overPool files maxFileSize .never found failures size capacity, [], []⟩ where
  stopTime := rfl
  flowing := flowing_overPool ..
  ends := by simp [EndsSoundly, overPool]
  balanced := by
    rw [Balanced, overPool, Pool.owed_create_start]
    rfl

theorem Tracked.Step.sound {tracked after : Tracked} (h : Step tracked after)
    (hsound : tracked.Sound) : after.Sound where
  stopTime := h.run_step.stopTime_eq.trans hsound.stopTime
  flowing := h.run_step.flowing hsound.flowing
  ends := h.run_step.endsSoundly hsound.flowing hsound.ends
  balanced := h.balanced hsound.balanced

/-- A full queue neither ends a run nor blocks it.  The counter of the collector is exact in every
interleaving, the pool turns no job away while nothing is in flight, so that no fault of the pool
ever ends the run, and until the run has ended somebody can make a step. -/
theorem backPressure_harmless (files : FileSystem) (maxFileSize : Nat) (found : List Discovered)
    (failures : List FileFailure) (size capacity : Nat) {tracked : Tracked}
    (hreached : Relation.ReflTransGen Tracked.Step
      ⟨overPool files maxFileSize .never found failures size capacity, [], []⟩ tracked) :
    (↑(tracked.accepted.map Job.run) : Multiset JobResult) =
      ↑tracked.collected + tracked.run.pool.owed ∧
    tracked.run.inFlight + tracked.collected.length = tracked.accepted.length ∧
    (tracked.run.collecting = true → 0 < tracked.run.inFlight) ∧
    (tracked.run.inFlight = 0 → ∀ job rejected, tracked.run.pool.submit job ≠ .error rejected) ∧
    (∀ fault, tracked.run.ended ≠ some (.error fault)) ∧
    (tracked.run.ended = none → ∃ after, Tracked.Step tracked after) := by
  have hsound : tracked.Sound := by
    induction hreached with
    | refl => exact Tracked.sound_overPool ..
    | tail _ hstep ih => exact hstep.sound ih
  refine ⟨hsound.balanced, ?_, hsound.flowing.collecting, ?_, ?_, ?_⟩
  · have hcard := congrArg Multiset.card hsound.balanced
    rw [Multiset.card_add, Multiset.coe_card, Multiset.coe_card, List.length_map,
      ← hsound.flowing.inFlight] at hcard
    omega
  · intro hflight job rejected hrejected
    obtain ⟨pool, hok⟩ := hsound.flowing.submit_ok hflight job
    rw [hrejected] at hok
    contradiction
  · intro fault hended
    rcases hsound.ends _ hended with ⟨hok, _⟩ | ⟨_, hstopped⟩
    · contradiction
    · rw [isStopped_of_never hsound.stopTime] at hstopped
      contradiction
  · intro hended
    obtain ⟨next, hstep⟩ := hsound.flowing.exists_step hended
    cases hstep with
    | collector h => exact ⟨_, .collector h⟩
    | worker index h => exact ⟨_, .worker index h⟩

/-- The one job of the run below. -/
def loneJob : Job := ⟨⟨"a"⟩, [], default⟩

/-- A run over one file with one worker and one place in each queue. -/
def loneRun : Run := overPool ⟨[("a", .file [])], []⟩ 10 .never [⟨⟨"a"⟩, 0, default⟩] [] 1 1

/-- Its collector waits, while the job is still in the queue. -/
def loneWait : Tracked where
  run := { loneRun with
    pending := []
    collecting := true
    pool := ⟨1, 1, some ⟨[loneJob], [.idle], []⟩⟩
    inFlight := 1 }
  accepted := [loneJob]
  collected := []

theorem reached_loneWait : Relation.ReflTransGen Tracked.Step ⟨loneRun, [], []⟩ loneWait := by
  have hread : Survey.readCapped ⟨[("a", .file [])], []⟩ ⟨"a"⟩ 10 = .ok [] := by
    simp [Survey.readCapped, FileSystem.read, FileSystem.locate, FileSystem.isAbsolute,
      FileSystem.steps, Text.splitWhere, FileSystem.follow, FileTree.child?, FileTree.reachedBefore]
  have hstep : loneRun.collectorStep =
      some { loneRun with pending := [], inHand := some loneJob } := by
    simp [loneRun, overPool, collectorStep, readNext, isStopped, hread, loneJob]
  have hfirst : Relation.ReflTransGen Tracked.Step ⟨loneRun, [], []⟩
      ⟨{ loneRun with pending := [], inHand := some loneJob }, [], []⟩ := .single (.collector hstep)
  have hsecond : Relation.ReflTransGen Tracked.Step ⟨loneRun, [], []⟩
      ⟨{ loneWait.run with collecting := false }, [loneJob], []⟩ := hfirst.tail (.collector rfl)
  exact hsecond.tail (.collector rfl)

/-- The waiting collector is not stuck. -/
theorem backPressure_harmless_loneWait :
    Relation.ReflTransGen Tracked.Step ⟨loneRun, [], []⟩ loneWait ∧
    loneWait.run.collectorStep = none ∧ loneWait.run.ended = none ∧
    (loneWait.run.inFlight + loneWait.collected.length = loneWait.accepted.length) ∧
    ∃ after, Tracked.Step loneWait after := by
  obtain ⟨_, hflight, _, _, _, hstep⟩ := backPressure_harmless _ _ _ _ _ _ reached_loneWait
  exact ⟨reached_loneWait, rfl, rfl, hflight, hstep rfl⟩

end Run
end CodeSurvey
