import CodeSurvey.Survey

/-
The run over a directory.  One collector reads files, hands them to the pool and collects results;
it waits for a result when the queue of jobs is full.  Its steps and those of the workers may follow
each other in any order.
-/

namespace CodeSurvey

/-- A call that reports progress: how many files are done, of how many, and which is the latest. -/
structure Progress where
  done : Nat
  total : Nat
  path : Path
  deriving Repr, DecidableEq, Inhabited

/-- When a run is told to stop: before it begins, or during the call that reports
so many files done. -/
inductive StopTime where
  | never
  | before
  | during (done : Nat)
  deriving Repr, DecidableEq, Inhabited

structure Run where
  files : FileSystem
  maxFileSize : Nat
  stopTime : StopTime
  total : Nat
  /-- files that were not read -/
  pending : List Discovered
  /-- the job that is to be handed over next -/
  inHand : Option Job
  /-- whether a result has to be collected first -/
  collecting : Bool
  pool : Pool
  /-- jobs accepted whose results were not collected -/
  inFlight : Nat
  progress : List Progress
  failed : Nat
  results : List FileReport
  failures : List FileFailure
  /-- how the run ended, if it did -/
  ended : Option (Except Fault Unit)
  deriving Inhabited

namespace Run

/-- Whether the run was told to stop. -/
def isStopped (run : Run) : Bool :=
  match run.stopTime with
  | .never => false
  | .before => true
  | .during done => done ≤ run.progress.length && 0 < done

def report (run : Run) (path : Path) : Run :=
  { run with progress := run.progress ++ [⟨run.progress.length + 1, run.total, path⟩] }

def fail (run : Run) (path : Path) (fault : Fault) : Run :=
  let failure : FileFailure := ⟨path, fault.message⟩
  { run with failed := run.failed + 1, failures := run.failures ++ [failure] }.report path

def accept (run : Run) (result : JobResult) : Run :=
  match result.outcome with
  | .ok report => { run with results := run.results ++ [report] }.report result.path
  | .error fault => run.fail result.path fault

def endWith (run : Run) (outcome : Except Fault Unit) : Run := { run with ended := some outcome }

/-- Collects one result; without one there is nothing to do but wait. -/
def collect (run : Run) : Option Run :=
  if run.isStopped then some (run.endWith (.error .cancelled))
  else match run.pool.receive with
    | .error fault => some (run.endWith (.error fault))
    | .ok (none, _) => none
    | .ok (some result, pool) =>
      some ({ run with pool, inFlight := run.inFlight - 1, collecting := false }.accept result)

/-- Hands a job over, or sees that a result has to be collected first. -/
def submit (run : Run) (job : Job) : Run :=
  match run.pool.submit job with
  | .ok pool => { run with pool, inHand := none, inFlight := run.inFlight + 1 }
  | .error rejected =>
    match rejected.reason with
    | .queueFull _ =>
      if 0 < run.inFlight then { run with collecting := true }
      else run.endWith (.error rejected.reason)
    | fault => run.endWith (.error fault)

/-- Reads the next file. -/
def readNext (run : Run) (file : Discovered) (rest : List Discovered) : Run :=
  if run.isStopped then run.endWith (.error .cancelled)
  else match Survey.readCapped run.files file.path run.maxFileSize with
    | .error fault => { run with pending := rest }.fail file.path fault
    | .ok content =>
        { run with pending := rest, inHand := some ⟨file.path, content, file.language⟩ }

/-- The next step of the collector, if it has not ended and need not wait. -/
def collectorStep (run : Run) : Option Run :=
  if run.ended.isSome then none
  else if run.collecting then run.collect
  else match run.inHand, run.pending with
    | some job, _ => some (run.submit job)
    | none, file :: rest => some (run.readNext file rest)
    | none, [] =>
      if 0 < run.inFlight then some { run with collecting := true } else some (run.endWith (.ok ()))

/-- The step of the worker with the given number. -/
def workerStep (run : Run) (index : Nat) : Option Run :=
  (run.pool.step (fun _ => true) index).map fun pool => { run with pool }

/-- The step of the first worker that can make one. -/
def firstWorkerStep (run : Run) : Option Run :=
  (List.range run.pool.size).findSome? run.workerStep

/-- A bound on the steps that are still to be made. -/
def weight (run : Run) : Nat :=
  9 * run.pending.length + 8 * run.inHand.toList.length
    + (run.pool.session.map fun session => session.weight + 2 * session.jobs.length
        + 3 * (session.results.length + session.workers.length)).getD 0
    + 2

/-- One way for a run to go: the collector goes on while it can, and workers only when it waits. -/
def goBy : Nat → Run → Run
  | 0, run => run
  | limit + 1, run =>
    match run.collectorStep with
    | some next => goBy limit next
    | none =>
      if run.ended.isSome then run
      else match run.firstWorkerStep with
        | some next => goBy limit next
        | none => run

/-- Goes on until the run has ended. -/
def go (run : Run) : Run := goBy (10 * run.weight) run

/-- A run that is about to begin, over the files found below a root. -/
def ofFiles (survey : Survey) (files : FileSystem) (processors : Nat) (stopTime : StopTime)
    (found : List Discovered) (failures : List FileFailure) : Run :=
  { files
    maxFileSize := survey.settings.maxFileSize
    stopTime
    total := found.length
    pending := found
    inHand := none
    collecting := false
    pool := (survey.pool processors).start
    inFlight := 0
    progress := []
    failed := 0
    results := []
    failures
    ended := none }

/-- The report of a run that ended. -/
def projectReport (run : Run) (root : Path) : ProjectReport :=
  { ProjectReport.ofFiles root run.results with
    summary :=
      { discovered := run.total
        analyzed := run.results.length
        failed := run.failed
        failures := run.failures } }

end Run

namespace Survey

/-- What a run leaves behind: its outcome, the progress that was reported, and its pool. -/
structure Ran where
  outcome : Except Fault ProjectReport
  progress : List Progress
  pool : Pool
  deriving Inhabited

/-- What has happened when a run over a root has ended.  Its pool is stopped, however it ended. -/
def Ran.ofRun (root : Path) (run : Run) : Ran :=
  { outcome := match run.ended with
      | some (.error fault) => .error fault
      | _ => .ok (run.projectReport root)
    progress := run.progress
    pool := run.pool.stop }

/-- The run over a root, before its first step. -/
def begin (survey : Survey) (files : FileSystem) (processors : Nat) (stopTime : StopTime)
    (root : Path) : Run :=
  let walk := survey.walk files root
  .ofFiles survey files processors stopTime walk.found (walk.faults.map (walkFailure root))

/-- Analyses every file that the walk finds. -/
def run (survey : Survey) (files : FileSystem) (processors : Nat) (stopTime : StopTime)
    (root : Path) : Ran :=
  if files.isDirectory root then Ran.ofRun root (survey.begin files processors stopTime root).go
  else ⟨.error (.io root "not a directory"), [], survey.pool processors⟩

end Survey
end CodeSurvey
