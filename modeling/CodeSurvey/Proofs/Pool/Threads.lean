import Mathlib.Logic.Relation
import CodeSurvey.Proofs.Pool.Operations

/-
A pool as its threads have it.  `Pool` starts and stops at once; here both take many steps, under a
lock that keeps submissions out and reads of results not.  Every start makes channels, a signal and
threads of its own.  The pool holds their ends in fields that are filled and emptied one after
another, and a thread goes on until it notices that an end is gone.  `Step.sound` says what is true
whichever steps were made: at most one session has threads, and the pool holds ends of no other.
-/

namespace CodeSurvey

/-- The threads of one session and what they share.  The session keeps what its threads are doing;
an end of a channel that was dropped does not come back. -/
structure Crew where
  session : Session
  /-- the threads that have come to their end -/
  exited : List Nat
  /-- the threads are asked to exit -/
  signalled : Bool
  /-- no sender of jobs is left -/
  closed : Bool
  /-- no receiver of results is left -/
  deaf : Bool

namespace Crew

/-- Channels that were just made, and so many threads that have done nothing. -/
def opened (count : Nat) : Crew := ⟨.fresh count, [], false, false, false⟩

def alive (crew : Crew) : List Nat :=
  (List.range crew.session.workers.length).filter fun index => index ∉ crew.exited

def addJob (crew : Crew) (job : Job) : Crew :=
  { crew with session := { crew.session with jobs := crew.session.jobs ++ [job] } }

def leaveResults (crew : Crew) (rest : List JobResult) : Crew :=
  { crew with session := { crew.session with results := rest } }

def addThread (crew : Crew) : Crew :=
  { crew with session := { crew.session with workers := crew.session.workers ++ [.idle] } }

/-- A thread exits when it looks for the next job and is asked to exit or can expect none, and when
nobody can receive its result. -/
def Dismisses (crew : Crew) : Worker → Prop
  | .idle => crew.signalled = true ∨ (crew.closed = true ∧ crew.session.jobs = [])
  | .working _ => False
  | .sending _ => crew.deaf = true

/-- What the thread with the given number can do next.  A thread that passed the signal before it
was raised may still take a job. -/
inductive Run (capacity : Nat) (crew : Crew) (index : Nat) : Crew → Prop
  | works {after : Session} (halive : index ∉ crew.exited)
      (hwork : crew.session.Work capacity index after)
      (hdeaf : crew.deaf = true → after.results = crew.session.results) :
      Run capacity crew index { crew with session := after }
  | exits {worker : Worker} (halive : index ∉ crew.exited) (hworker : crew.session.workers[index]? =
      some worker)
      (hdismissed : crew.Dismisses worker) :
      Run capacity crew index { crew with exited := index :: crew.exited }

end Crew

namespace ThreadPool

/-- What a pool holds: the ends of channels, the signal and the threads to wait for, each of the
session with the given number. -/
structure Holdings where
  running : Bool
  sender : Option Nat
  signal : Option Nat
  threads : Option Nat
  receiver : Option Nat

namespace Holdings

/-- A signal that was raised is of no further use. -/
def nothing (signal : Option Nat) : Holdings := ⟨false, none, signal, none, none⟩

def all (id : Nat) : Holdings := ⟨true, some id, some id, some id, some id⟩

end Holdings

/-- How far the call has come that holds the lock: nobody holds it, or a start, or a stop. -/
inductive Call where
  | free
  | spawning (id : Nat)
  /-- a thread could not be spawned -/
  | failing (id : Nat)
  | installing (id : Nat)
  | signalling
  | closing
  | joining

/-- The call is a start that has not returned. -/
def Call.IsStart : Call → Prop
  | .spawning _ | .failing _ | .installing _ => True
  | _ => False

end ThreadPool

@[ext] structure ThreadPool where
  size : Nat
  capacity : Nat
  crews : Nat → Crew
  /-- the number of the next session -/
  next : Nat
  held : ThreadPool.Holdings
  call : ThreadPool.Call
  /-- since the last start -/
  accepted : List Job
  received : List JobResult

namespace ThreadPool

/-- What callers and threads do; `proceed` is the next step of the call that holds the lock. -/
inductive Act where
  | start
  | stop
  | proceed
  | submit (job : Job)
  | receive
  | run (id index : Nat)

def create (size capacity : Nat) : ThreadPool :=
  ⟨max size 1, max capacity 1, fun _ => .opened 0, 0, .nothing none, .free, [], []⟩

def put (pool : ThreadPool) (id : Nat) (crew : Crew) : ThreadPool :=
  { pool with crews := Function.update pool.crews id crew }

theorem crews_put_self (pool : ThreadPool) (id : Nat) (crew : Crew) :
    (pool.put id crew).crews id = crew := by
  simp [put]

theorem crews_put_of_ne (pool : ThreadPool) (crew : Crew) {id other : Nat} (h : other ≠ id) :
    (pool.put id crew).crews other = pool.crews other := by
  simp [put, h]

/-- Changes the session that the pool holds an end of, if it does. -/
def change (pool : ThreadPool) (id : Option Nat) (f : Crew → Crew) : ThreadPool :=
  match id with
  | none => pool
  | some id => pool.put id (f (pool.crews id))

def raiseSignal (pool : ThreadPool) : ThreadPool :=
  pool.change pool.held.signal ({ · with signalled := true })

def dropSender (pool : ThreadPool) : ThreadPool :=
  pool.change pool.held.sender ({ · with closed := true })

def dropReceiver (pool : ThreadPool) : ThreadPool :=
  pool.change pool.held.receiver ({ · with deaf := true })

section Ends

variable {pool : ThreadPool} {id : Nat}

theorem raiseSignal_of_some (h : pool.held.signal = some id) :
    pool.raiseSignal = pool.put id { pool.crews id with signalled := true } := by
  rw [raiseSignal, h, change]

theorem dropSender_of_none (h : pool.held.sender = none) : pool.dropSender = pool := by
  rw [dropSender, h, change]

theorem dropSender_of_some (h : pool.held.sender = some id) :
    pool.dropSender = pool.put id { pool.crews id with closed := true } := by
  rw [dropSender, h, change]

theorem dropReceiver_of_none (h : pool.held.receiver = none) : pool.dropReceiver = pool := by
  rw [dropReceiver, h, change]

theorem dropReceiver_of_some (h : pool.held.receiver = some id) :
    pool.dropReceiver = pool.put id { pool.crews id with deaf := true } := by
  rw [dropReceiver, h, change]

end Ends

/-- A job for the session whose sender is held. -/
def submit (pool : ThreadPool) (job : Job) : Except Rejected ThreadPool :=
  match pool.held.sender.filter fun _ => pool.held.running with
  | none => .error ⟨job, .poolStopped⟩
  | some id =>
    let crew := pool.crews id
    if crew.alive = [] then .error ⟨job, .poolStopped⟩
    else if crew.session.jobs.length < pool.capacity then
      .ok { pool.put id (crew.addJob job) with accepted := pool.accepted ++ [job] }
    else .error ⟨job, .queueFull pool.capacity⟩

/-- The oldest unread result of the session whose receiver is held. -/
def receive (pool : ThreadPool) : Except Fault (Option JobResult × ThreadPool) :=
  match pool.held.receiver with
  | none => .error .poolStopped
  | some id =>
    let crew := pool.crews id
    match crew.session.results with
    | result :: rest =>
      .ok (some result,
        { pool.put id (crew.leaveResults rest) with received := pool.received ++ [result] })
    | [] => if crew.alive = [] then .error .poolStopped else .ok (none, pool)

inductive Step (pool : ThreadPool) : Act → ThreadPool → Prop
  | startRunning (hcall : pool.call = .free) (hrunning : pool.held.running = true) :
      Step pool .start pool
  | startStopped (hcall : pool.call = .free) (hrunning : pool.held.running = false) :
      Step pool .start
        { pool.put pool.next (.opened 0) with call := .spawning pool.next, next := pool.next + 1 }
  | spawned {id : Nat} (hcall : pool.call = .spawning id)
      (hmissing : (pool.crews id).session.workers.length < pool.size) :
      Step pool .proceed (pool.put id (pool.crews id).addThread)
  | unspawned {id : Nat} (hcall : pool.call = .spawning id)
      (hmissing : (pool.crews id).session.workers.length < pool.size) :
      Step pool .proceed
        { pool.put id { pool.crews id with signalled := true, closed := true } with
          call := .failing id }
  | failed {id : Nat} (hcall : pool.call = .failing id) (hexited : (pool.crews id).alive = []) :
      Step pool .proceed { pool.put id { pool.crews id with deaf := true } with call := .free }
  | installed {id : Nat} (hcall : pool.call = .spawning id)
      (hcomplete : pool.size ≤ (pool.crews id).session.workers.length) :
      Step pool .proceed { pool.dropSender with
        held := { pool.held with
          running := true, sender := some id, signal := some id, threads := some id }
        call := .installing id }
  | published {id : Nat} (hcall : pool.call = .installing id) :
      Step pool .proceed { pool.dropReceiver with
        held := { pool.held with receiver := some id }
        call := .free
        accepted := []
        received := [] }
  | stopStopped (hcall : pool.call = .free) (hrunning : pool.held.running = false) :
      Step pool .stop pool
  | signalled (hcall : pool.call = .free) (hrunning : pool.held.running = true) :
      Step pool .stop { pool.raiseSignal with call := .signalling }
  | closed (hcall : pool.call = .signalling) :
      Step pool .proceed
        { pool.dropSender with held := { pool.held with sender := none }, call := .closing }
  | deafened (hcall : pool.call = .closing) :
      Step pool .proceed
        { pool.dropReceiver with held := { pool.held with receiver := none }, call := .joining }
  | joined (hcall : pool.call = .joining)
      (hexited : ∀ id, pool.held.threads = some id → (pool.crews id).alive = []) :
      Step pool .proceed
        { pool with held := { pool.held with running := false, threads := none }, call := .free }
  | accepted {job : Job} {after : ThreadPool} (hcall : pool.call = .free)
      (h : pool.submit job = .ok after) :
      Step pool (.submit job) after
  | rejected {job : Job} {rejected : Rejected} (hcall : pool.call = .free)
      (h : pool.submit job = .error rejected) : Step pool (.submit job) pool
  | received {answer : Option JobResult} {after : ThreadPool}
      (h : pool.receive = .ok (answer, after)) :
      Step pool .receive after
  | refused {fault : Fault} (h : pool.receive = .error fault) : Step pool .receive pool
  | ran {id index : Nat} {crew : Crew} (h : (pool.crews id).Run pool.capacity index crew) :
      Step pool (.run id index) (pool.put id crew)

/-- What any sequence of steps can make of a pool of the given size and capacity. -/
def Reached (size capacity : Nat) : ThreadPool → Prop :=
  Relation.ReflTransGen (fun before after => ∃ act, Step before act after) (create size capacity)

end ThreadPool

/-! ## The threads of a session -/

namespace Crew

variable {capacity index size : Nat} {crew after : Crew}

theorem mem_alive : index ∈ crew.alive ↔ index < crew.session.workers.length ∧
    index ∉ crew.exited := by
  simp [alive]

theorem alive_congr (hworkers : after.session.workers.length = crew.session.workers.length)
    (hexited : after.exited = crew.exited) : after.alive = crew.alive := by
  unfold alive
  rw [hworkers, hexited]

theorem Run.mem_alive (h : crew.Run capacity index after) : index ∈ crew.alive := by
  cases h with
  | works halive hwork => exact Crew.mem_alive.mpr ⟨hwork.index_lt, halive⟩
  | exits halive hworker =>
      exact Crew.mem_alive.mpr ⟨(List.getElem?_eq_some_iff.mp hworker).1, halive⟩

/-- Threads that are all at work, and all ends that they need. -/
structure IsOpen (size : Nat) (crew : Crew) : Prop where
  workers : crew.session.workers.length = size
  exited : crew.exited = []
  signalled : crew.signalled = false
  closed : crew.closed = false
  deaf : crew.deaf = false

theorem isOpen_opened (count : Nat) : (opened count).IsOpen count :=
  ⟨List.length_replicate, rfl, rfl, rfl, rfl⟩

theorem IsOpen.alive_ne_nil (h : crew.IsOpen size) (hsize : 0 < size) : crew.alive ≠ [] := by
  have hfirst : 0 ∈ crew.alive := mem_alive.mpr ⟨by rw [h.workers]; exact hsize, by simp [h.exited]⟩
  exact List.ne_nil_of_mem hfirst

theorem IsOpen.not_dismisses (h : crew.IsOpen size) (worker : Worker) :
    ¬ crew.Dismisses worker := by
  cases worker <;> simp [Dismisses, h.signalled, h.closed, h.deaf]

/-- What happens in a session without any end being dropped. -/
structure Continues (crew after : Crew) : Prop where
  gone : crew.alive = [] → after.alive = []
  isOpen : ∀ size, crew.IsOpen size → after.IsOpen size
  opened : ∀ count, crew ≠ .opened count
  signalled : after.signalled = crew.signalled
  deaf : after.deaf = crew.deaf

/-- Threads that were just spawned have to wait. -/
theorem not_run_opened (count : Nat) : ¬ (opened count).Run capacity index after := by
  intro h
  have hidle : ∀ {worker : Worker}, (opened count).session.workers[index]? = some worker →
      worker = .idle := by
    intro worker hworker
    exact List.eq_of_mem_replicate (List.mem_of_getElem? hworker)
  cases h with
  | works _ hwork =>
      cases hwork with
      | take _ hjobs => contradiction
      | finish hworker => exact Worker.noConfusion (hidle hworker)
      | send hworker => exact Worker.noConfusion (hidle hworker)
  | exits _ _ hdismissed => exact (isOpen_opened count).not_dismisses _ hdismissed

theorem Run.continues (h : crew.Run capacity index after) : crew.Continues after := by
  have hopened : ∀ count, crew ≠ opened count := fun count heq => not_run_opened count (heq ▸ h)
  refine ⟨fun hgone => absurd h.mem_alive (hgone ▸ List.not_mem_nil), ?_, hopened, ?_, ?_⟩
  · intro size hopen
    cases h with
    | works _ hwork =>
        have hworkers := hwork.workers_length.trans hopen.workers
        exact ⟨hworkers, hopen.exited, hopen.signalled, hopen.closed, hopen.deaf⟩
    | exits _ _ hdismissed => exact absurd hdismissed (hopen.not_dismisses _)
  · cases h <;> rfl
  · cases h <;> rfl

theorem continues_read {result : JobResult} {rest : List JobResult}
    (h : crew.session.results = result :: rest) : crew.Continues (crew.leaveResults rest) := by
  refine ⟨fun hgone => hgone, ?_, ?_, rfl, rfl⟩
  · intro size hopen
    exact ⟨hopen.workers, hopen.exited, hopen.signalled, hopen.closed, hopen.deaf⟩
  · intro count hopened
    rw [hopened] at h
    contradiction

/-- The steps that the threads can still make, their last ones included. -/
def weight (crew : Crew) : Nat := crew.session.weight + crew.alive.length

theorem Run.weight_lt (h : crew.Run capacity index after) : after.weight < crew.weight := by
  have hindex := h.mem_alive
  cases h with
  | @works session _ hwork =>
      have hsame : ({ crew with session } : Crew).alive = crew.alive :=
        alive_congr hwork.workers_length rfl
      have hless := hwork.weight_succ
      rw [weight, weight, hsame]
      dsimp only
      omega
  | exits =>
      refine Nat.add_lt_add_left ?_ _
      have hfilter : ({ crew with exited := index :: crew.exited } : Crew).alive =
          crew.alive.filter fun other => other ≠ index := by
        simp [alive, List.filter_filter, List.mem_cons]
      rw [hfilter, List.length_filter_lt_length_iff_exists]
      exact ⟨index, hindex, by simp⟩

/-- Without a receiver, threads that are asked to exit never have to wait. -/
theorem exists_run (hsignalled : crew.signalled = true) (hdeaf : crew.deaf = true)
    (h : index ∈ crew.alive) : ∃ after, crew.Run capacity index after := by
  obtain ⟨hlt, halive⟩ := mem_alive.mp h
  have hworker := List.getElem?_eq_getElem hlt
  cases hdoing : crew.session.workers[index] with
  | idle =>
      rw [hdoing] at hworker
      exact ⟨_, .exits halive hworker (.inl hsignalled)⟩
  | working job =>
      rw [hdoing] at hworker
      exact ⟨_, .works halive (.finish hworker) fun _ => rfl⟩
  | sending result =>
      rw [hdoing] at hworker
      exact ⟨_, .exits halive hworker hdeaf⟩

end Crew

/-! ## What the pool holds -/

namespace ThreadPool

variable {pool after : ThreadPool} {id : Nat} {crew : Crew}

/-- No thread of any other session is left. -/
def OthersGone (pool : ThreadPool) (id : Nat) : Prop :=
  ∀ other, other ≠ id → (pool.crews other).alive = []

/-- What is true while a call has come so far: at most one session has threads, and the pool
holds ends of no other. -/
def Sound (pool : ThreadPool) : Prop :=
  match pool.call with
  | .free => (∃ signal, pool.held = .nothing signal ∧ ∀ id, (pool.crews id).alive = []) ∨
      ∃ id, pool.held = .all id ∧ pool.OthersGone id ∧ (pool.crews id).IsOpen pool.size
  | .spawning id => (∃ signal, pool.held = .nothing signal) ∧ pool.OthersGone id ∧
      ∃ count, count ≤ pool.size ∧ pool.crews id = .opened count
  | .failing id => (∃ signal, pool.held = .nothing signal) ∧ pool.OthersGone id
  | .installing id => pool.held = { Holdings.all id with receiver := none } ∧ pool.OthersGone id ∧
      pool.crews id = .opened pool.size
  | .signalling => ∃ id, pool.held = .all id ∧ pool.OthersGone id ∧ (pool.crews id).signalled = true
  | .closing => ∃ id, pool.held = { Holdings.all id with sender := none } ∧ pool.OthersGone id ∧
      (pool.crews id).signalled = true
  | .joining => ∃ id, pool.held = { Holdings.all id with sender := none, receiver := none } ∧
      pool.OthersGone id ∧ (pool.crews id).signalled = true ∧ (pool.crews id).deaf = true

/-- What the new state of one session keeps of the old one holds in all sessions as before. -/
theorem of_put {P : Crew → Prop} (hput : P (pool.crews id) → P crew) {other : Nat}
    (h : P (pool.crews other)) : P ((pool.put id crew).crews other) := by
  by_cases hother : other = id
  · rw [hother] at h ⊢
    rw [crews_put_self]
    exact hput h
  · rw [crews_put_of_ne _ _ hother]
    exact h

theorem OthersGone.put (hgone : (pool.crews id).alive = [] → crew.alive = []) {current : Nat}
    (h : pool.OthersGone current) : (pool.put id crew).OthersGone current :=
  fun other hother => of_put (P := fun crew => crew.alive = []) hgone (h other hother)

theorem OthersGone.put_current (h : pool.OthersGone id) (crew : Crew) :
    (pool.put id crew).OthersGone id := by
  intro other hother
  rw [crews_put_of_ne _ _ hother]
  exact h other hother

theorem OthersGone.gone (h : pool.OthersGone id) (hid : (pool.crews id).alive = []) (other : Nat) :
    (pool.crews other).alive = [] := by
  by_cases hother : other = id
  · rw [hother]
    exact hid
  · exact h other hother

theorem sound_of_running (hcall : pool.call = .free) (hheld : pool.held = .all id)
    (hothers : pool.OthersGone id) (hopen : (pool.crews id).IsOpen pool.size) : pool.Sound := by
  rw [Sound, hcall]
  exact .inr ⟨id, hheld, hothers, hopen⟩

theorem Sound.put (hcrew : (pool.crews id).Continues crew) (h : pool.Sound) :
    (pool.put id crew).Sound := by
  have hsame : ∀ {other count}, pool.crews other = .opened count →
      (pool.put id crew).crews other = .opened count :=
    fun {_ count} => of_put (P := fun crew => crew = .opened count) fun hopened =>
      absurd hopened (hcrew.opened count)
  have hsignalled : ∀ {other},
      (pool.crews other).signalled = true → ((pool.put id crew).crews other).signalled = true :=
    of_put (P := fun crew => crew.signalled = true) hcrew.signalled.trans
  unfold Sound at h ⊢
  have hcall : (pool.put id crew).call = pool.call := rfl
  rw [hcall]
  cases hpool : pool.call with
  | free =>
      rw [hpool] at h
      rcases h with ⟨signal, hheld, hgone⟩ | ⟨current, hheld, hothers, hopen⟩
      · exact .inl ⟨signal, hheld,
          fun other => of_put (P := fun crew => crew.alive = []) hcrew.gone (hgone other)⟩
      · exact .inr ⟨current, hheld, hothers.put hcrew.gone, of_put (hcrew.isOpen _) hopen⟩
  | spawning current =>
      rw [hpool] at h
      obtain ⟨hheld, hothers, count, hcount, hopened⟩ := h
      exact ⟨hheld, hothers.put hcrew.gone, count, hcount, hsame hopened⟩
  | failing current =>
      rw [hpool] at h
      exact ⟨h.1, h.2.put hcrew.gone⟩
  | installing current =>
      rw [hpool] at h
      exact ⟨h.1, h.2.1.put hcrew.gone, hsame h.2.2⟩
  | signalling =>
      rw [hpool] at h
      obtain ⟨current, hheld, hothers, hraised⟩ := h
      exact ⟨current, hheld, hothers.put hcrew.gone, hsignalled hraised⟩
  | closing =>
      rw [hpool] at h
      obtain ⟨current, hheld, hothers, hraised⟩ := h
      exact ⟨current, hheld, hothers.put hcrew.gone, hsignalled hraised⟩
  | joining =>
      rw [hpool] at h
      obtain ⟨current, hheld, hothers, hraised, hdeaf⟩ := h
      exact ⟨current, hheld, hothers.put hcrew.gone, hsignalled hraised,
        of_put (P := fun crew => crew.deaf = true) hcrew.deaf.trans hdeaf⟩

theorem submit_ok {job : Job} (h : pool.submit job = .ok after) :
    ∃ id, pool.held.sender = some id ∧ pool.held.running = true ∧ (pool.crews id).alive ≠ [] ∧
      (pool.crews id).session.jobs.length < pool.capacity ∧
      after = { pool.put id ((pool.crews id).addJob job) with
        accepted := pool.accepted ++ [job] } := by
  unfold submit at h
  split at h
  · contradiction
  · next id hsender =>
      obtain ⟨hid, hrunning⟩ := Option.filter_eq_some_iff.mp hsender
      dsimp only at h
      split at h
      · contradiction
      · next halive =>
          split at h
          · next hplace => exact ⟨id, hid, hrunning, halive, hplace, (Except.ok.inj h).symm⟩
          · contradiction

theorem receive_ok {answer : Option JobResult} (h : pool.receive = .ok (answer, after)) :
    ∃ id, pool.held.receiver = some id ∧
      ((∃ result rest, (pool.crews id).session.results = result :: rest ∧ answer = some result ∧
        after = { pool.put id ((pool.crews id).leaveResults rest) with
          received := pool.received ++ [result] }) ∨
      ((pool.crews id).session.results = [] ∧ (pool.crews id).alive ≠ [] ∧ answer = none ∧
        after = pool)) := by
  unfold receive at h
  split at h
  · contradiction
  · next id hreceiver =>
      refine ⟨id, hreceiver, ?_⟩
      dsimp only at h
      split at h
      · next result rest hresults =>
          rw [Except.ok.injEq, Prod.mk.injEq] at h
          exact .inl ⟨result, rest, hresults, h.1.symm, h.2.symm⟩
      · next hresults =>
          split at h
          · contradiction
          · next halive =>
              rw [Except.ok.injEq, Prod.mk.injEq] at h
              exact .inr ⟨hresults, halive, h.1.symm, h.2.symm⟩

theorem Step.sound {act : Act} (hstep : pool.Step act after) (h : pool.Sound) : after.Sound := by
  cases hstep with
  | startRunning => exact h
  | startStopped hcall hrunning =>
      rw [Sound, hcall] at h
      rcases h with ⟨signal, hheld, hgone⟩ | ⟨id, hheld, _⟩
      · refine ⟨⟨signal, hheld⟩, ?_, 0, Nat.zero_le _, crews_put_self _ _ _⟩
        exact OthersGone.put_current (fun other _ => hgone other) _
      · rw [hheld] at hrunning
        contradiction
  | @spawned id hcall hmissing =>
      rw [Sound, hcall] at h
      obtain ⟨hheld, hothers, count, hcount, hopened⟩ := h
      rw [hopened] at hmissing ⊢
      have hput : ∀ crew, (pool.put id crew).call = .spawning id := fun _ => hcall
      rw [Sound, hput]
      refine ⟨hheld, hothers.put_current _, count + 1, ?_, ?_⟩
      · have hlength : (Crew.opened count).session.workers.length = count := List.length_replicate
        rw [hlength] at hmissing
        exact hmissing
      · rw [crews_put_self, Crew.addThread, Crew.opened, Session.fresh, Crew.opened, Session.fresh,
          List.replicate_succ']
  | unspawned hcall =>
      rw [Sound, hcall] at h
      exact ⟨h.1, h.2.1.put_current _⟩
  | failed hcall hexited =>
      rw [Sound, hcall] at h
      obtain ⟨⟨signal, hheld⟩, hothers⟩ := h
      refine .inl ⟨signal, hheld, (hothers.put_current _).gone ?_⟩
      rw [crews_put_self]
      exact hexited
  | @installed id hcall hcomplete =>
      rw [Sound, hcall] at h
      obtain ⟨⟨signal, hheld⟩, hothers, count, hcount, hopened⟩ := h
      have hlength : (Crew.opened count).session.workers.length = count := List.length_replicate
      rw [hopened, hlength] at hcomplete
      have hsize : count = pool.size := Nat.le_antisymm hcount hcomplete
      rw [dropSender_of_none (by rw [hheld]; rfl), hheld]
      exact ⟨rfl, hothers, hsize ▸ hopened⟩
  | published hcall =>
      rw [Sound, hcall] at h
      obtain ⟨hheld, hothers, hopened⟩ := h
      rw [dropReceiver_of_none (by rw [hheld]), hheld]
      refine .inr ⟨_, rfl, hothers, ?_⟩
      exact hopened ▸ Crew.isOpen_opened pool.size
  | stopStopped => exact h
  | signalled hcall hrunning =>
      rw [Sound, hcall] at h
      rcases h with ⟨signal, hheld, _⟩ | ⟨id, hheld, hothers, _⟩
      · rw [hheld] at hrunning
        contradiction
      · rw [raiseSignal_of_some (by rw [hheld]; rfl)]
        exact ⟨id, hheld, hothers.put_current _, congrArg Crew.signalled (crews_put_self _ _ _)⟩
  | closed hcall =>
      rw [Sound, hcall] at h
      obtain ⟨id, hheld, hothers, hraised⟩ := h
      rw [dropSender_of_some (by rw [hheld]; rfl), hheld]
      exact ⟨id, rfl, hothers.put_current _,
        (congrArg Crew.signalled (crews_put_self _ _ _)).trans hraised⟩
  | deafened hcall =>
      rw [Sound, hcall] at h
      obtain ⟨id, hheld, hothers, hraised⟩ := h
      rw [dropReceiver_of_some (by rw [hheld]; rfl), hheld]
      exact ⟨id, rfl, hothers.put_current _,
        (congrArg Crew.signalled (crews_put_self _ _ _)).trans hraised,
        congrArg Crew.deaf (crews_put_self _ _ _)⟩
  | joined hcall hexited =>
      rw [Sound, hcall] at h
      obtain ⟨id, hheld, hothers, _⟩ := h
      have hgone := hothers.gone (hexited id (by rw [hheld]; rfl))
      rw [hheld]
      exact .inl ⟨some id, rfl, hgone⟩
  | accepted hcall hsubmit =>
      obtain ⟨id, hsender, hrunning, _, _, rfl⟩ := submit_ok hsubmit
      rw [Sound, hcall] at h
      rcases h with ⟨signal, hheld, _⟩ | ⟨current, hheld, hothers, hopen⟩
      · rw [hheld] at hrunning
        contradiction
      · have hid : current = id := by
          rw [hheld] at hsender
          exact Option.some.inj hsender
        subst hid
        refine sound_of_running hcall hheld (hothers.put_current _) (of_put (fun hopen => ?_) hopen)
        exact ⟨hopen.workers, hopen.exited, hopen.signalled, hopen.closed, hopen.deaf⟩
  | rejected => exact h
  | received hreceive =>
      obtain ⟨id, _, ⟨result, rest, hresults, _, rfl⟩ | ⟨_, _, _, rfl⟩⟩ := receive_ok hreceive
      · exact h.put (Crew.continues_read hresults)
      · exact h
  | refused => exact h
  | ran hrun => exact h.put hrun.continues

/-- Stop has returned, or there was no start yet, and none was called since. -/
def IsStopped (pool : ThreadPool) : Prop := pool.call = .free ∧ pool.held.running = false

theorem Sound.of_isStopped (h : pool.Sound) (hstopped : pool.IsStopped) :
    ∃ signal, pool.held = .nothing signal ∧ ∀ id, (pool.crews id).alive = [] := by
  rw [Sound, hstopped.1] at h
  rcases h with hnothing | ⟨id, hheld, _⟩
  · exact hnothing
  · have hrunning := hstopped.2
    rw [hheld] at hrunning
    contradiction

theorem Sound.receiver_of_isStart (h : pool.Sound) (hstart : pool.call.IsStart) :
    pool.held.receiver = none := by
  cases hcall : pool.call with
  | spawning id =>
      rw [Sound, hcall] at h
      obtain ⟨⟨signal, hheld⟩, _⟩ := h
      rw [hheld]
      rfl
  | failing id =>
      rw [Sound, hcall] at h
      obtain ⟨⟨signal, hheld⟩, _⟩ := h
      rw [hheld]
      rfl
  | installing id =>
      rw [Sound, hcall] at h
      rw [h.1]
  | free => rw [hcall] at hstart; contradiction
  | signalling => rw [hcall] at hstart; contradiction
  | closing => rw [hcall] at hstart; contradiction
  | joining => rw [hcall] at hstart; contradiction

end ThreadPool
end CodeSurvey
