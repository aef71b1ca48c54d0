import CodeSurvey.Proofs.Run.Summary
import CodeSurvey.Proofs.Walk.Admission

/-
Runs that are told to stop.  The collector looks for the signal before it reads a file and before it
collects a result, and only these two lead to a call, so that no call follows the one in which the
signal was raised.  Both are made only while something is owed; after the last call nothing is, and
the signal is not seen any more.  Up to there a run does not differ from one that is never told to
stop: `Reaches.unstopped`.  The main statement is `Survey.run_cancelled_promptly`.
-/

namespace CodeSurvey

/-- After how many calls a run is told to stop, if it ever is. -/
def StopTime.limit? : StopTime → Option Nat
  | .never => none
  | .before => some 0
  | .during done => if 0 < done then some done else none

namespace Run

variable {run next start : Run}

theorem isStopped_iff :
    run.isStopped = true ↔ ∃ limit, run.stopTime.limit? = some limit ∧
    limit ≤ run.progress.length := by
  unfold isStopped
  cases run.stopTime with
  | never => simp [StopTime.limit?]
  | before => simp [StopTime.limit?]
  | during done => simp [StopTime.limit?, and_comm]

/-- No call is made after the signal, and a run is cancelled only while a result is owed. -/
structure Heeds (run : Run) : Prop where
  calls : ∀ limit, run.stopTime.limit? = some limit → run.progress.length ≤ limit
  owed : run.ended = some (.error .cancelled) → 0 < run.owed.card

theorem card_owed (run : Run) :
    run.owed.card = run.pending.length + run.inHand.toList.length + run.pool.owed.card := by
  simp [owed]

theorem heeds_of_report (hstopped : run.isStopped = false) (hended : next.ended = none)
    (htime : next.stopTime = run.stopTime)
    (hprogress : next.progress.length = run.progress.length + 1) : next.Heeds := by
  refine ⟨?_, ?_⟩
  · intro limit hlimit
    by_contra hlate
    have hraised : run.isStopped = true := isStopped_iff.mpr ⟨limit, htime ▸ hlimit, by omega⟩
    rw [hstopped] at hraised
    contradiction
  · intro hcancelled
    rw [hended] at hcancelled
    contradiction

theorem Collects.heeds (hended : run.ended = none) (h : Collects run next) (hflowing : run.Flowing)
    (hheeds : run.Heeds) : next.Heeds := by
  have hwaiting : run.collecting = true → 0 < run.owed.card := by
    intro hcollecting
    have hflight := hflowing.collecting hcollecting
    rw [hflowing.inFlight] at hflight
    rw [card_owed]
    omega
  cases h with
  | cancelled hstopped hhand hleft =>
      refine ⟨hheeds.calls, fun _ => ?_⟩
      rcases hleft with hpending | hcollecting
      · have hlength := List.length_pos_of_ne_nil hpending
        show 0 < run.owed.card
        rw [card_owed]
        omega
      · exact hwaiting hcollecting
  | unreadable _ _ _ _ hstopped =>
      rw [accept_eq]
      exact heeds_of_report hstopped hended rfl (by simp)
  | read => exact ⟨hheeds.calls, by simp [hended]⟩
  | handed => exact ⟨hheeds.calls, by simp [hended]⟩
  | full => exact ⟨hheeds.calls, by simp [hended]⟩
  | refused hcollecting hhand =>
      refine ⟨hheeds.calls, fun _ => ?_⟩
      show 0 < run.owed.card
      rw [card_owed, hhand, Option.toList_some, List.length_singleton]
      omega
  | closed hcollecting => exact ⟨hheeds.calls, fun _ => hwaiting hcollecting⟩
  | collected _ hstopped =>
      rw [accept_eq]
      exact heeds_of_report hstopped hended rfl (by simp)
  | draining => exact ⟨hheeds.calls, by simp [hended]⟩
  | finished => exact ⟨hheeds.calls, by simp [endWith]⟩

theorem Step.heeds (h : Step run next) (hflowing : run.Flowing) (hheeds : run.Heeds) :
    next.Heeds := by
  cases h with
  | collector h =>
      obtain ⟨hended, hcollects⟩ := collects_of_step h
      exact hcollects.heeds hended hflowing hheeds
  | worker index h =>
      obtain ⟨pool, hstep, rfl⟩ := workerStep_eq h
      refine ⟨hheeds.calls, fun hcancelled => ?_⟩
      have howed := hheeds.owed hcancelled
      rw [card_owed] at howed ⊢
      rwa [Pool.owed_step hstep]

theorem Reaches.heeds (h : Reaches start run) (hflowing : start.Flowing) (hends : start.EndsSoundly)
    (hheeds : start.Heeds) : run.Heeds := by
  induction h with
  | refl => exact hheeds
  | tail hreaches hstep ih => exact hstep.heeds (Reaches.sound hreaches hflowing hends).1 ih

theorem Step.ended_eq {outcome : Except Fault Unit} (h : Step run next)
    (hended : run.ended = some outcome) : next.ended = some outcome := by
  cases h with
  | collector h =>
      rw [(collects_of_step h).1] at hended
      contradiction
  | worker index h =>
      obtain ⟨pool, _, rfl⟩ := workerStep_eq h
      exact hended

theorem Reaches.ended_eq {outcome : Except Fault Unit} (h : Reaches run next)
    (hended : run.ended = some outcome) : next.ended = some outcome := by
  induction h with
  | refl => exact hended
  | tail _ hstep ih => exact hstep.ended_eq ih

/-- The same run, if nobody had told it to stop. -/
def unstopped (run : Run) : Run := { run with stopTime := .never }

@[simp] theorem ended_unstopped (run : Run) : run.unstopped.ended = run.ended := rfl

@[simp] theorem pool_unstopped (run : Run) : run.unstopped.pool = run.pool := rfl

@[simp] theorem inFlight_unstopped (run : Run) : run.unstopped.inFlight = run.inFlight := rfl

@[simp] theorem collecting_unstopped (run : Run) : run.unstopped.collecting = run.collecting := rfl

@[simp] theorem inHand_unstopped (run : Run) : run.unstopped.inHand = run.inHand := rfl

@[simp] theorem pending_unstopped (run : Run) : run.unstopped.pending = run.pending := rfl

@[simp] theorem isStopped_unstopped (run : Run) : run.unstopped.isStopped = false :=
  isStopped_of_never rfl

theorem accept_unstopped (run : Run) (result : JobResult) :
    run.unstopped.accept result = (run.accept result).unstopped := by
  rw [accept_eq, accept_eq]
  rfl

theorem submit_unstopped (run : Run) (job : Job) :
    run.unstopped.submit job = (run.submit job).unstopped := by
  unfold submit
  rw [pool_unstopped, inFlight_unstopped]
  cases hsubmit : run.pool.submit job with
  | ok pool => rfl
  | error rejected =>
      rcases Pool.submit_error hsubmit with ⟨_, rfl⟩ | ⟨_, _, _, rfl⟩
      · rfl
      · by_cases hsome : 0 < run.inFlight
        · simp only [hsome, if_true]
          rfl
        · simp only [hsome, if_false]
          rfl

theorem readNext_unstopped {file : Discovered} {rest : List Discovered}
    (hstopped : run.isStopped = false) :
    run.unstopped.readNext file rest = (run.readNext file rest).unstopped := by
  have hread : Survey.readCapped run.unstopped.files file.path run.unstopped.maxFileSize =
      Survey.readCapped run.files file.path run.maxFileSize := rfl
  unfold readNext
  rw [hstopped, isStopped_unstopped, hread]
  cases Survey.readCapped run.files file.path run.maxFileSize with
  | error fault => rfl
  | ok content => rfl

theorem collect_unstopped (hstopped : run.isStopped = false) :
    run.unstopped.collect = run.collect.map unstopped := by
  unfold collect
  rw [hstopped, isStopped_unstopped, pool_unstopped]
  cases run.pool.receive with
  | error fault => rfl
  | ok received =>
      obtain ⟨result, pool⟩ := received
      cases result with
      | none => rfl
      | some result =>
          simp only [Bool.false_eq_true, if_false, Option.map_some]
          rw [← accept_unstopped]
          rfl

/-- Unless it gives up, the collector does what it would do in a run that is never told to stop. -/
theorem collectorStep_unstopped
    (hgoing : ∀ next, run.collectorStep = some next → next.ended ≠ some (.error .cancelled)) :
    run.unstopped.collectorStep = run.collectorStep.map unstopped := by
  -- where the collector looks for the signal, it gives up or has not been told to stop
  have hlooks : run.collectorStep ≠ some (run.endWith (.error .cancelled)) :=
    fun hstep => hgoing _ hstep rfl
  unfold collectorStep at hlooks ⊢
  rw [ended_unstopped, collecting_unstopped, inHand_unstopped, pending_unstopped,
    inFlight_unstopped]
  cases hended : run.ended with
  | some outcome => rfl
  | none =>
      simp only [hended, Option.isSome_none, Bool.false_eq_true, if_false] at hlooks ⊢
      cases hcollecting : run.collecting with
      | true =>
          simp only [hcollecting, if_true] at hlooks ⊢
          cases hstopped : run.isStopped with
          | false => exact collect_unstopped hstopped
          | true => exact absurd (by rw [collect, hstopped, if_pos rfl]) hlooks
      | false =>
          simp only [hcollecting, Bool.false_eq_true, if_false] at hlooks ⊢
          cases hhand : run.inHand with
          | some job => exact congrArg some (submit_unstopped run job)
          | none =>
              cases hpending : run.pending with
              | cons file rest =>
                  simp only [hhand, hpending] at hlooks ⊢
                  cases hstopped : run.isStopped with
                  | false => exact congrArg some (readNext_unstopped hstopped)
                  | true => exact absurd (by rw [readNext, hstopped, if_pos rfl]) hlooks
              | nil =>
                  by_cases hflight : 0 < run.inFlight
                  · simp only [hflight, if_true, Option.map_some]
                    rfl
                  · simp only [hflight, if_false, Option.map_some]
                    rfl

theorem workerStep_unstopped (run : Run) (index : Nat) :
    run.unstopped.workerStep index = (run.workerStep index).map unstopped := by
  rw [workerStep, workerStep, pool_unstopped, Option.map_map]
  rfl

theorem Step.unstopped (h : Step run next) (hgoing : next.ended ≠ some (.error .cancelled)) :
    Step run.unstopped next.unstopped := by
  cases h with
  | collector h =>
      refine .collector ?_
      rw [collectorStep_unstopped, h, Option.map_some]
      intro other hother
      rw [Option.some.inj (hother.symm.trans h)]
      exact hgoing
  | worker index h =>
      refine .worker index ?_
      rw [workerStep_unstopped, h, Option.map_some]

/-- A run that is not cancelled is one that was never told to stop, step by step. -/
theorem Reaches.unstopped (h : Reaches start run) (hgoing : run.ended ≠ some (.error .cancelled)) :
    Reaches start.unstopped run.unstopped := by
  induction h with
  | refl => exact .refl
  | tail _ hstep ih =>
      refine .tail (ih fun hcancelled => hgoing ?_) (hstep.unstopped hgoing)
      exact hstep.ended_eq hcancelled

theorem firstWorkerStep_unstopped (run : Run) :
    run.unstopped.firstWorkerStep = run.firstWorkerStep.map unstopped := by
  rw [firstWorkerStep, firstWorkerStep, pool_unstopped, List.map_findSome?]
  exact congrArg (fun step => List.findSome? step _) (funext (workerStep_unstopped run))

theorem goBy_unstopped (limit : Nat) (hgoing : (goBy limit run).ended ≠ some (.error .cancelled)) :
    goBy limit run.unstopped = (goBy limit run).unstopped := by
  induction limit generalizing run with
  | zero => rfl
  | succ limit ih =>
      have hcollector : run.unstopped.collectorStep = run.collectorStep.map Run.unstopped := by
        refine collectorStep_unstopped fun next hnext hcancelled => hgoing ?_
        rw [goBy, hnext]
        exact (reaches_goBy limit next).ended_eq hcancelled
      rw [goBy] at hgoing ⊢
      rw [goBy, hcollector, firstWorkerStep_unstopped, ended_unstopped]
      cases hstep : run.collectorStep with
      | some next =>
          simp only [hstep] at hgoing
          exact ih hgoing
      | none =>
          simp only [hstep] at hgoing
          by_cases hdone : run.ended.isSome = true
          · simp only [hdone, if_true, Option.map_none]
          · simp only [hdone] at hgoing ⊢
            cases hworker : run.firstWorkerStep with
            | some next =>
                simp only [hworker] at hgoing
                exact ih hgoing
            | none => rfl

theorem go_unstopped (hgoing : run.go.ended ≠ some (.error .cancelled)) :
    run.unstopped.go = run.go.unstopped :=
  goBy_unstopped _ hgoing

variable {files : FileSystem} {maxFileSize : Nat} {stopTime : StopTime} {found : List Discovered}
  {failures : List FileFailure} {size capacity : Nat} {outcome : Except Fault Unit}

theorem heeds_overPool : (overPool files maxFileSize stopTime found failures size capacity).Heeds :=
  ⟨fun _ _ => Nat.zero_le _, by simp [overPool]⟩

/-- Each file has been named in a call, or its result is still owed. -/
theorem Reaches.calls_add_owed
    (h : Reaches (overPool files maxFileSize stopTime found failures size capacity) run) :
    run.progress.length + run.owed.card = found.length := by
  obtain ⟨settled, haccounts⟩ := h.accounts
  have howed := congrArg Multiset.card haccounts.owed
  rw [owed_overPool, Multiset.coe_card, List.length_map, Multiset.card_add,
    Multiset.coe_card] at howed
  have hcalls : run.progress.length = settled.length := by
    rw [haccounts.progress, List.length_append, List.length_mapIdx]
    exact Nat.zero_add _
  omega

/-- A signal that comes before the last call cancels the run, and is followed by no call. -/
theorem Reaches.cancelled_of_lt {limit : Nat}
    (h : Reaches (overPool files maxFileSize stopTime found failures size capacity) run)
    (hended : run.ended = some outcome) (hlimit : stopTime.limit? = some limit)
    (hlt : limit < found.length) : outcome = .error .cancelled ∧ run.progress.length = limit := by
  have hheeds := h.heeds (flowing_overPool ..) endsSoundly_overPool heeds_overPool
  have hcalls := hheeds.calls limit (h.stopTime_eq ▸ hlimit)
  obtain ⟨hflowing, hends⟩ := h.sound (flowing_overPool ..) endsSoundly_overPool
  rcases hends outcome hended with ⟨_, hhand, hpending, hflight⟩ | ⟨hcancelled, hstopped⟩
  · have hall := h.calls_add_owed
    rw [hflowing.owed_eq_zero hhand hpending hflight, Multiset.card_zero] at hall
    omega
  · obtain ⟨raised, hraised, hle⟩ := isStopped_iff.mp hstopped
    rw [h.stopTime_eq] at hraised
    have hsame : raised = limit := Option.some.inj (hraised.symm.trans hlimit)
    exact ⟨hcancelled, by omega⟩

/-- A signal that comes in the last call, or never, does not cancel the run. -/
theorem Reaches.ok_of_le
    (h : Reaches (overPool files maxFileSize stopTime found failures size capacity) run)
    (hended : run.ended = some outcome)
    (hlimit : ∀ limit, stopTime.limit? = some limit → found.length ≤ limit) : outcome = .ok () := by
  have hheeds := h.heeds (flowing_overPool ..) endsSoundly_overPool heeds_overPool
  have hends := (h.sound (flowing_overPool ..) endsSoundly_overPool).2
  rcases hends outcome hended with ⟨hok, _⟩ | ⟨rfl, hstopped⟩
  · exact hok
  · obtain ⟨raised, hraised, hle⟩ := isStopped_iff.mp hstopped
    rw [h.stopTime_eq] at hraised
    have hlast := hlimit raised hraised
    have howed := hheeds.owed hended
    have hall := h.calls_add_owed
    omega

end Run

namespace Survey

variable {survey : Survey} {files : FileSystem} {processors : Nat} {stopTime : StopTime}
  {root : Path}

theorem leaves_cancelled {limit : Nat} (hroot : files.isDirectory root = true)
    (hlimit : stopTime.limit? = some limit) (hlt : limit < (survey.walk files root).found.length) :
    survey.AlwaysLeaves files processors stopTime root fun ran =>
      ran.outcome = .error .cancelled ∧ ran.progress.length = limit := by
  refine alwaysLeaves_of_ended hroot fun run outcome hreaches hended => ?_
  rw [begin_eq_overPool] at hreaches
  obtain ⟨rfl, hcalls⟩ := hreaches.cancelled_of_lt hended hlimit hlt
  exact ⟨by simp only [Ran.ofRun, hended], hcalls⟩

theorem begin_unstopped : (survey.begin files processors stopTime root).unstopped =
    survey.begin files processors .never root := rfl

theorem ofRun_unstopped (run : Run) : Ran.ofRun root run.unstopped = Ran.ofRun root run := rfl

/-- What an uncancelled run can leave behind. -/
def UncancelledLeaves (survey : Survey) (files : FileSystem) (processors : Nat) (root : Path)
    (ran : Ran) : Prop :=
  ∃ run, Run.Reaches (survey.begin files processors .never root) run ∧ run.ended = some (.ok ()) ∧
    ran = Ran.ofRun root run

theorem leaves_uncancelled (hroot : files.isDirectory root = true)
    (hlimit : ∀ limit, stopTime.limit? = some limit →
      (survey.walk files root).found.length ≤ limit) :
    survey.AlwaysLeaves files processors stopTime root fun ran =>
      survey.UncancelledLeaves files processors root ran := by
  refine alwaysLeaves_of_ended hroot fun run outcome hreaches hended => ?_
  have hok : outcome = .ok () := by
    rw [begin_eq_overPool] at hreaches
    exact hreaches.ok_of_le hended hlimit
  subst hok
  exact ⟨run.unstopped, Run.Reaches.unstopped hreaches (by simp [hended]), hended,
    (ofRun_unstopped run).symm⟩

theorem run_eq_uncancelled (hroot : files.isDirectory root = true)
    (hlimit : ∀ limit, stopTime.limit? = some limit →
      (survey.walk files root).found.length ≤ limit) :
    survey.run files processors stopTime root = survey.run files processors .never root := by
  have hgoing : (survey.begin files processors stopTime root).go.ended ≠
      some (.error .cancelled) := by
    intro hended
    have hreaches : Run.Reaches (survey.begin files processors stopTime root)
        (survey.begin files processors stopTime root).go := Run.reaches_goBy _ _
    nth_rewrite 1 [begin_eq_overPool] at hreaches
    have hok := hreaches.ok_of_le hended hlimit
    contradiction
  have hgo := Run.go_unstopped hgoing
  rw [begin_unstopped] at hgo
  rw [Survey.run, Survey.run, if_pos hroot, if_pos hroot, hgo, ofRun_unstopped]

theorem UncancelledLeaves.of_nothing_found {ran : Ran}
    (h : survey.UncancelledLeaves files processors root ran)
    (hnone : (survey.walk files root).found = []) :
    ∃ report, ran.outcome = .ok report ∧ report.files = [] ∧ ran.progress = [] := by
  obtain ⟨run, hreaches, hended, rfl⟩ := h
  rw [begin_eq_overPool] at hreaches
  obtain ⟨settled, hrecorded, hperm⟩ := Run.Reaches.exists_perm_of_ended hreaches hended
  rw [hnone, List.map_nil, List.perm_nil] at hperm
  subst hperm
  have hresults : run.results = [] := hrecorded.results
  refine ⟨run.projectReport root, by simp only [Ran.ofRun, hended], ?_, hrecorded.progress⟩
  rw [Run.files_projectReport, hresults, List.mergeSort_nil]

/-- A run that is told to stop in a call before the last makes no other call and is cancelled; told
in the last, it leaves behind what an uncancelled run does; told before it begins, it is cancelled
at once unless there is nothing to do.  However it ends, its pool is stopped. -/
theorem run_cancelled_promptly (survey : Survey) (files : FileSystem) (processors : Nat)
    (root : Path) (hroot : files.isDirectory root = true) :
    (∀ k, 0 < k → k < (survey.walk files root).found.length →
      survey.AlwaysLeaves files processors (.during k) root fun ran =>
        ran.outcome = .error .cancelled ∧ ran.progress.length = k) ∧
    (∀ k, 0 < k → k = (survey.walk files root).found.length →
      (survey.AlwaysLeaves files processors (.during k) root fun ran =>
        (∃ report, ran.outcome = .ok report) ∧ survey.UncancelledLeaves files processors root ran) ∧
      survey.run files processors (.during k) root = survey.run files processors .never root) ∧
    (0 < (survey.walk files root).found.length →
      survey.AlwaysLeaves files processors .before root fun ran =>
        ran.outcome = .error .cancelled ∧ ran.progress = []) ∧
    ((survey.walk files root).found.length = 0 →
      survey.AlwaysLeaves files processors .before root fun ran =>
        ∃ report, ran.outcome = .ok report ∧ report.files = [] ∧ ran.progress = []) ∧
    ∀ stopTime, survey.AlwaysLeaves files processors stopTime root fun ran =>
      ran.pool.isRunning = false := by
  refine ⟨?_, ?_, ?_, ?_, ?_⟩
  · intro k hpos hlt
    exact leaves_cancelled hroot (if_pos hpos) hlt
  · intro k hpos hlast
    have hlimit : ∀ limit, (StopTime.during k).limit? = some limit →
        (survey.walk files root).found.length ≤ limit := by
      intro limit hlimit
      have hsame : k = limit := Option.some.inj ((if_pos hpos).symm.trans hlimit)
      omega
    refine ⟨(leaves_uncancelled hroot hlimit).imp fun ran hran => ⟨?_, hran⟩,
      run_eq_uncancelled hroot hlimit⟩
    obtain ⟨run, _, hended, rfl⟩ := hran
    exact ⟨run.projectReport root, by simp only [Ran.ofRun, hended]⟩
  · intro hsome
    have hlimit : StopTime.before.limit? = some 0 := rfl
    refine (leaves_cancelled hroot hlimit hsome).imp fun ran hran => ⟨hran.1, ?_⟩
    exact List.eq_nil_of_length_eq_zero hran.2
  · intro hnone
    have hlimit : ∀ limit, StopTime.before.limit? = some limit →
        (survey.walk files root).found.length ≤ limit := by
      intro limit _
      omega
    exact (leaves_uncancelled hroot hlimit).imp fun ran hran =>
      hran.of_nothing_found (List.eq_nil_of_length_eq_zero hnone)
  · intro stopTime
    exact alwaysLeaves_of_ended hroot fun _ _ _ _ => rfl

theorem length_found_twoFiles : (crashing.walk twoFiles ⟨"p"⟩).found.length = 2 := by
  have hlocate := (locate_twoFiles.1 :
    (crashing.walk twoFiles ⟨"p"⟩).files.locate true (crashing.walk twoFiles ⟨"p"⟩).root = _)
  have hfirst : (crashing.walk twoFiles ⟨"p"⟩).root.join "a.go" = ⟨"p/a.go"⟩ := by decide
  have hsecond : (crashing.walk twoFiles ⟨"p"⟩).root.join "b.go" = ⟨"p/b.go"⟩ := by decide
  have hresolve : ∀ path ∈ [Path.mk "p/a.go", ⟨"p/b.go"⟩],
      (crashing.walk twoFiles ⟨"p"⟩).registry.resolve path = .ok crashingLanguage :=
    List.forall_mem_cons.mpr ⟨rfl, List.forall_mem_singleton.mpr rfl⟩
  have hrules : (crashing.walk twoFiles ⟨"p"⟩).excludes = ⟨[]⟩ ∧
      (crashing.walk twoFiles ⟨"p"⟩).ignored = ⟨[]⟩ ∧
      (crashing.walk twoFiles ⟨"p"⟩).includes = ⟨[]⟩ :=
    ⟨rfl, rfl, rfl⟩
  have hsmall : ¬ (crashing.walk twoFiles ⟨"p"⟩).maxFileSize < 3 := by decide
  rw [Walk.found_eq_contents hlocate, Walk.contents, Walk.found_inOrder,
    ((List.mergeSort_perm _ _).flatMap_right _).length_eq]
  simp [twoEntries, Walk.visit, Walk.classify, FileTree.fileSize?, Walk.isExcluded, Walk.isIncluded,
    Walk.fateOf, IgnoreRules.applyTo, IgnoreRules.isEmpty, Visit.found?, hfirst, hsecond, hresolve,
    hrules, hsmall]

/-- Of two files, the second is not reported if the run is told to stop in the first call. -/
theorem run_cancelled_promptly_twoFiles :
    twoFiles.isDirectory ⟨"p"⟩ = true ∧ (crashing.walk twoFiles ⟨"p"⟩).found.length = 2 ∧
    (crashing.run twoFiles 2 (.during 1) ⟨"p"⟩).outcome = .error .cancelled ∧
    (crashing.run twoFiles 2 (.during 1) ⟨"p"⟩).progress.length = 1 ∧
    crashing.run twoFiles 2 (.during 2) ⟨"p"⟩ = crashing.run twoFiles 2 .never ⟨"p"⟩ := by
  obtain ⟨hfirst, hlast, _⟩ := run_cancelled_promptly crashing twoFiles 2 ⟨"p"⟩ isDirectory_twoFiles
  obtain ⟨houtcome, hcalls⟩ :=
    (hfirst 1 (by decide) (by rw [length_found_twoFiles]; decide)).carriedOut
  exact ⟨isDirectory_twoFiles, length_found_twoFiles, houtcome, hcalls,
    (hlast 2 (by decide) length_found_twoFiles.symm).2⟩

end Survey
end CodeSurvey
