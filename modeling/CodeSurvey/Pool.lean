import CodeSurvey.Job
import CodeSurvey.Sum

/-
A pool of workers between two queues.  Jobs wait in one, results in the other, and both are bounded:
a job that finds no place is handed back, and a worker that finds none for its result waits.  Every
step of a worker is a step of the pool, so the ways in which workers can overtake each other are the
sequences of such steps.
-/

namespace CodeSurvey

inductive Worker where
  | idle
  | working (job : Job)
  /-- the result waits for a place in the queue -/
  | sending (result : JobResult)
  deriving Inhabited

/-- What exists from the start of a pool to its stop; the queues hold their oldest element first. -/
structure Session where
  jobs : List Job
  workers : List Worker
  results : List JobResult
  deriving Inhabited

namespace Session

def fresh (size : Nat) : Session := ⟨[], List.replicate size .idle, []⟩

/-- The only thing that a worker can do next, if it can do anything: take a job, finish it, or hand
over its result.  A job that is not `ready` is not finished. -/
def advance (capacity : Nat) (ready : Job → Bool) (session : Session) :
    Worker → Option (Worker × Session)
  | .idle =>
    match session.jobs with
    | [] => none
    | job :: rest => some (.working job, { session with jobs := rest })
  | .working job => if ready job then some (.sending job.run, session) else none
  | .sending result =>
    if session.results.length < capacity then
      some (.idle, { session with results := session.results ++ [result] })
    else none

/-- The step of the worker with the given number. -/
def step (capacity : Nat) (ready : Job → Bool) (session : Session) (index : Nat) : Option Session :=
  match session.workers[index]? with
  | none => none
  | some worker =>
    (session.advance capacity ready worker).map fun (worker, after) =>
      { after with workers := session.workers.set index worker }

/-- The steps that a worker has still to make for what it holds. -/
def Worker.weight : Worker → Nat
  | .idle => 0
  | .working _ => 2
  | .sending _ => 1

/-- The steps that are still to be made for all accepted jobs. -/
def weight (session : Session) : Nat :=
  3 * session.jobs.length + (session.workers.map Worker.weight).sum

/-- The step of the first worker that can make one. -/
def firstStep (capacity : Nat) (ready : Job → Bool) (session : Session) : Option Session :=
  (List.range session.workers.length).findSome? (session.step capacity ready)

/-- Lets the workers go on, at most so many steps. -/
def advanceBy (capacity : Nat) (ready : Job → Bool) : Nat → Session → Session
  | 0, session => session
  | limit + 1, session =>
    match session.firstStep capacity ready with
    | none => session
    | some after => advanceBy capacity ready limit after

/-- Lets the workers go on until none can. -/
def settle (capacity : Nat) (ready : Job → Bool) (session : Session) : Session :=
  advanceBy capacity ready session.weight session

end Session

/-- A job that was not accepted, with the reason. -/
structure Rejected where
  job : Job
  reason : Fault
  deriving Inhabited

/-- A pool has a session while it is running. -/
structure Pool where
  size : Nat
  capacity : Nat
  session : Option Session
  deriving Inhabited

namespace Pool

/-- A stopped pool, with at least one worker and one place. -/
def create (size capacity : Nat) : Pool := ⟨max size 1, max capacity 1, none⟩

def isRunning (pool : Pool) : Bool := pool.session.isSome

/-- Starts the workers; a running pool stays as it is. -/
def start (pool : Pool) : Pool :=
  match pool.session with
  | some _ => pool
  | none => { pool with session := some (.fresh pool.size) }

/-- Ends the session: waiting jobs and unread results are lost. -/
def stop (pool : Pool) : Pool := { pool with session := none }

/-- Puts a job into the queue without waiting. -/
def submit (pool : Pool) (job : Job) : Except Rejected Pool :=
  match pool.session with
  | none => .error ⟨job, .poolStopped⟩
  | some session =>
    if session.jobs.length < pool.capacity then
      .ok { pool with session := some { session with jobs := session.jobs ++ [job] } }
    else .error ⟨job, .queueFull pool.capacity⟩

/-- The oldest unread result, if there is one. -/
def receive (pool : Pool) : Except Fault (Option JobResult × Pool) :=
  match pool.session with
  | none => .error .poolStopped
  | some session =>
    match session.results with
    | [] => .ok (none, pool)
    | result :: rest =>
        .ok (some result, { pool with session := some { session with results := rest } })

/-- The step of the worker with the given number. -/
def step (ready : Job → Bool) (pool : Pool) (index : Nat) : Option Pool :=
  pool.session.bind fun session =>
    (session.step pool.capacity ready index).map fun after => { pool with session := some after }

/-- Lets the workers go on until none can. -/
def settle (ready : Job → Bool) (pool : Pool) : Pool :=
  { pool with session := pool.session.map (·.settle pool.capacity ready) }

end Pool
end CodeSurvey
