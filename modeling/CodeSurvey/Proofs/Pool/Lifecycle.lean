import CodeSurvey.Proofs.Pool.Threads
import CodeSurvey.Proofs.Pool.Traffic

/-
Sessions of a pool, one after another.  Callers see no more of the threads than of a `Pool`
(`Step.leads`): a start takes effect when the receiver is put in place, and a stop when nothing more
can be received.  So what is read stems from jobs of the same session, because it does in a `Pool`;
that no thread is left, and that a stop returns, is seen on the threads.  The theorem this file
exists for is `sessions_never_leak`.
-/

namespace CodeSurvey

namespace Traffic

/-- What was read since the last start is of jobs that were accepted since then, also when
the pool is stopped. -/
theorem Reached.received_of_accepted {size capacity : Nat} {traffic : Traffic}
    (h : Reached size capacity traffic) :
    ∃ returned : List Job,
      traffic.received = returned.map Job.run ∧ (↑returned : Multiset Job) ≤ ↑traffic.accepted := by
  induction h with
  | refl => exact ⟨[], rfl, le_refl _⟩
  | @tail before after hbefore hstep ih =>
      have hafter : Reached size capacity after := hbefore.tail hstep
      cases hsession : after.pool.session with
      | some session =>
          obtain ⟨held, delivered, returned, _, hreceived, haccepted⟩ :=
            (hafter.conserved.2 session hsession).placed
          exact ⟨returned, hreceived, haccepted ▸ Multiset.le_add_left _ _⟩
      | none =>
          -- a pool that is stopped now accepted nothing and gave nothing out in the last step
          obtain ⟨action, hstep⟩ := hstep
          cases hstep with
          | opened hbefore => simp [Pool.start, hbefore] at hsession
          | running hbefore => simp [Pool.start, hbefore] at hsession
          | stopped => exact ih
          | accepted hsubmit =>
              obtain ⟨_, _, _, rfl⟩ := Pool.submit_ok hsubmit
              contradiction
          | rejected => exact ih
          | worked _ hwork =>
              obtain ⟨_, _, _, _, rfl⟩ := Pool.work_of_step hwork
              contradiction
          | received hreceive =>
              obtain ⟨_, _, _, _, rfl⟩ := Pool.receive_some hreceive
              contradiction
          | nothing hreceive =>
              obtain ⟨rfl, _⟩ := Pool.receive_none hreceive
              exact ih
          | refused => exact ih

end Traffic

namespace ThreadPool

variable {pool after : ThreadPool} {id : Nat} {crew : Crew}

/-! ## What callers see -/

/-- A session is over for callers when nothing more can be received of it. -/
def session (pool : ThreadPool) : Option Session :=
  pool.held.receiver.bind fun id =>
    if (pool.crews id).alive = [] ∧ (pool.crews id).session.results = [] then none
    else some (pool.crews id).session

def seen (pool : ThreadPool) : Pool := ⟨pool.size, pool.capacity, pool.session⟩

def traffic (pool : ThreadPool) : Traffic := ⟨pool.seen, pool.accepted, pool.received⟩

theorem session_eq_none (h : pool.held.receiver = none) : pool.session = none := by
  rw [session, h, Option.bind_none]

theorem session_eq_some (pool : ThreadPool) (hreceiver : pool.held.receiver = some id)
    (h : (pool.crews id).alive ≠ [] ∨ (pool.crews id).session.results ≠ []) :
    pool.session = some (pool.crews id).session := by
  rw [session, hreceiver, Option.bind_some, if_neg (not_and_or.mpr h)]

/-- Ends that are dropped, and calls that go on, are not seen. -/
theorem session_put (pool : ThreadPool) (hsession : crew.session = (pool.crews id).session)
    (halive : crew.alive = (pool.crews id).alive) :
    (pool.put id crew).session = pool.session := by
  have hreceiver : (pool.put id crew).held = pool.held := rfl
  unfold session
  rw [hreceiver]
  cases pool.held.receiver with
  | none => rfl
  | some current =>
      by_cases hcurrent : current = id
      · rw [hcurrent, Option.bind_some, Option.bind_some, crews_put_self, hsession, halive]
      · rw [Option.bind_some, Option.bind_some, crews_put_of_ne _ _ hcurrent]

/-- From one traffic to another by any number of actions. -/
abbrev Leads : Traffic → Traffic → Prop :=
  Relation.ReflTransGen fun before after => ∃ action, Traffic.Step before action after

theorem leads_of_session (hsession : after.session = pool.session)
    (hsame : (after.size, after.capacity, after.accepted, after.received) =
      (pool.size, pool.capacity, pool.accepted, pool.received)) :
      Leads pool.traffic after.traffic := by
  simp only [Prod.mk.injEq] at hsame
  rw [traffic, traffic, seen, seen, hsession, hsame.1, hsame.2.1, hsame.2.2.1, hsame.2.2.2]

theorem leads_of_receiver (hbefore : pool.held.receiver = none)
    (hafter : after.held.receiver = none)
    (hsame : (after.size, after.capacity, after.accepted, after.received) =
      (pool.size, pool.capacity, pool.accepted, pool.received)) :
      Leads pool.traffic after.traffic :=
  leads_of_session ((session_eq_none hafter).trans (session_eq_none hbefore).symm) hsame

theorem leads_started (hbefore : pool.held.receiver = none)
    (hafter : after.session = some (.fresh pool.size))
    (hsame : (after.size, after.capacity, after.accepted, after.received) =
      (pool.size, pool.capacity, [], [])) :
    Leads pool.traffic after.traffic := by
  have hopens : Traffic.Step pool.traffic .start ⟨pool.traffic.pool.start, [], []⟩ :=
    .opened (session_eq_none hbefore)
  have hstart : pool.traffic.pool.start = ⟨pool.size, pool.capacity, some (.fresh pool.size)⟩ := by
    rw [traffic, seen, Pool.start, session_eq_none hbefore]
  have hend : after.traffic = ⟨⟨pool.size, pool.capacity, some (.fresh pool.size)⟩, [], []⟩ := by
    simp only [Prod.mk.injEq] at hsame
    rw [traffic, seen, hafter, hsame.1, hsame.2.1, hsame.2.2.1, hsame.2.2.2]
  rw [hend, ← hstart]
  exact .single ⟨.start, hopens⟩

/-- If nothing more can be received of a session, it is seen as stopped. -/
theorem leads_stopped (pool : ThreadPool) (hreceiver : pool.held.receiver = some id)
    {session : Session} (hsession : (pool.crews id).session = session) :
    Leads ⟨⟨pool.size, pool.capacity, some session⟩, pool.accepted,
      pool.received⟩ pool.traffic := by
  rw [← hsession]
  by_cases hover : (pool.crews id).alive = [] ∧ (pool.crews id).session.results = []
  · have hsession : pool.session = none := by rw [ThreadPool.session, hreceiver, Option.bind_some,
      if_pos hover]
    rw [traffic, seen, hsession]
    exact .single ⟨.stop, .stopped⟩
  · rw [traffic, seen, session_eq_some _ hreceiver (not_and_or.mp hover)]

theorem submit_of_sender (hsender : pool.held.sender = some id)
    (hrunning : pool.held.running = true) (halive : (pool.crews id).alive ≠ []) (job : Job) :
    pool.submit job =
      if (pool.crews id).session.jobs.length < pool.capacity then
        .ok { pool.put id ((pool.crews id).addJob job) with accepted := pool.accepted ++ [job] }
      else .error ⟨job, .queueFull pool.capacity⟩ := by
  rw [submit, hsender, hrunning, Option.filter_some, if_pos rfl]
  exact if_neg halive

theorem seen_submit (h : pool.Sound) (hsize : 0 < pool.size) (hcall : pool.call = .free)
    (job : Job) : pool.seen.submit job = (pool.submit job).map seen := by
  rw [Sound, hcall] at h
  rcases h with ⟨signal, hheld, _⟩ | ⟨id, hheld, _, hopen⟩
  · have hsession : pool.session = none := session_eq_none (by rw [hheld]; rfl)
    simp [Pool.submit, seen, hsession, submit, hheld, Holdings.nothing, Except.map]
  · have halive := hopen.alive_ne_nil hsize
    have hreceiver : pool.held.receiver = some id := by rw [hheld]; rfl
    have hsession := session_eq_some _ hreceiver (.inl halive)
    have hjob : ((pool.put id ((pool.crews id).addJob job)).crews id).alive ≠ [] := by
      rw [crews_put_self]
      exact halive
    have hafter : (pool.put id ((pool.crews id).addJob job)).session = _ :=
      session_eq_some _ hreceiver (.inl hjob)
    rw [crews_put_self] at hafter
    rw [submit_of_sender (by rw [hheld]; rfl) (by rw [hheld]; rfl) halive, seen,
      Pool.submit, hsession]
    dsimp only
    split
    · rw [Except.map, seen]
      exact congrArg
        (fun session => Except.ok (Pool.mk pool.size pool.capacity session)) hafter.symm
    · rfl

theorem seen_receive (pool : ThreadPool) :
    pool.seen.receive.map (·.1) = pool.receive.map (·.1) := by
  cases hreceiver : pool.held.receiver with
  | none => simp [Pool.receive, seen, session_eq_none hreceiver, receive, hreceiver, Except.map]
  | some id =>
      cases hresults : (pool.crews id).session.results with
      | nil =>
          by_cases hgone : (pool.crews id).alive = []
          · simp [Pool.receive, seen, session, receive, hreceiver, hresults, hgone, Except.map]
          · simp [Pool.receive, seen, session, receive, hreceiver, hresults, hgone, Except.map]
      | cons result rest => simp [Pool.receive, seen, session, receive, hreceiver,
          hresults, Except.map]

/-- A thread's step is one of the pool that is seen, or is not seen at all. -/
theorem leads_ran {index : Nat} (hrun : (pool.crews id).Run pool.capacity index crew) :
    Leads pool.traffic (pool.put id crew).traffic := by
  by_cases hreceiver : pool.held.receiver = some id
  · have hsession := session_eq_some _ hreceiver (.inl (List.ne_nil_of_mem hrun.mem_alive))
    have hstops :
        Leads ⟨⟨pool.size, pool.capacity, some crew.session⟩, pool.accepted, pool.received⟩
          (pool.put id crew).traffic :=
      leads_stopped (pool.put id crew) hreceiver (congrArg Crew.session (crews_put_self _ _ _))
    cases hrun with
    | works _ hwork =>
        refine .head ⟨.work index, .worked (fun _ => true) ?_⟩ hstops
        rw [traffic, seen, Pool.step, hsession, Option.bind_some, Session.step_of_work hwork]
        rfl
    | exits =>
        rw [traffic, seen, hsession]
        exact hstops
  · refine leads_of_session ?_ rfl
    have hheld : (pool.put id crew).held = pool.held := rfl
    rw [session, session, hheld]
    cases hcurrent : pool.held.receiver with
    | none => rfl
    | some current =>
        have hne : current ≠ id := fun heq => hreceiver (heq ▸ hcurrent)
        rw [Option.bind_some, Option.bind_some, crews_put_of_ne _ _ hne]

theorem leads_received {answer : Option JobResult} (h : pool.receive = .ok (answer, after)) :
    Leads pool.traffic after.traffic := by
  obtain ⟨id, hreceiver, ⟨result, rest, hresults, _, rfl⟩ | ⟨_, _, _, rfl⟩⟩ := receive_ok h
  · have hsession :=
      session_eq_some _ hreceiver (.inr (by rw [hresults]; exact List.cons_ne_nil _ _))
    have hread := congrArg Crew.session (crews_put_self pool id ((pool.crews id).leaveResults rest))
    have hstops := leads_stopped
      { pool.put id ((pool.crews id).leaveResults rest) with
        received := pool.received ++ [result] } hreceiver hread
    refine .head ⟨.receive, .received ?_⟩ hstops
    rw [traffic, seen, Pool.receive, hsession]
    simp only [hresults]
    rfl
  · exact .refl

/-- Each step is a sequence of those that a `Pool` can make, most often an empty one. -/
theorem Step.leads {act : Act} (hstep : pool.Step act after) (h : pool.Sound)
    (hsize : 0 < pool.size) : Leads pool.traffic after.traffic := by
  cases hstep with
  | startRunning => exact .refl
  | startStopped hcall hrunning =>
      obtain ⟨signal, hheld, _⟩ := h.of_isStopped ⟨hcall, hrunning⟩
      have hreceiver : pool.held.receiver = none := by rw [hheld]; rfl
      exact leads_of_receiver hreceiver hreceiver rfl
  | spawned hcall =>
      have hreceiver := h.receiver_of_isStart (by rw [hcall]; trivial)
      exact leads_of_receiver hreceiver hreceiver rfl
  | unspawned hcall =>
      have hreceiver := h.receiver_of_isStart (by rw [hcall]; trivial)
      exact leads_of_receiver hreceiver hreceiver rfl
  | failed hcall =>
      have hreceiver := h.receiver_of_isStart (by rw [hcall]; trivial)
      exact leads_of_receiver hreceiver hreceiver rfl
  | installed hcall =>
      have hreceiver := h.receiver_of_isStart (by rw [hcall]; trivial)
      rw [Sound, hcall] at h
      obtain ⟨⟨signal, hheld⟩, _⟩ := h
      rw [dropSender_of_none (by rw [hheld]; rfl)]
      exact leads_of_receiver hreceiver hreceiver rfl
  | @published id hcall =>
      have hreceiver := h.receiver_of_isStart (by rw [hcall]; trivial)
      rw [Sound, hcall] at h
      obtain ⟨_, _, hopened⟩ := h
      have halive : (pool.crews id).alive ≠ [] := by
        rw [hopened]
        exact (Crew.isOpen_opened _).alive_ne_nil hsize
      have hsession :=
        session_eq_some { pool with held := { pool.held with receiver := some id } } rfl
          (.inl halive)
      rw [hopened] at hsession
      rw [dropReceiver_of_none hreceiver]
      exact leads_started hreceiver hsession rfl
  | stopStopped => exact .refl
  | signalled hcall hrunning =>
      rw [Sound, hcall] at h
      rcases h with ⟨signal, hheld, _⟩ | ⟨id, hheld, _⟩
      · rw [hheld] at hrunning
        contradiction
      · have hsession : (pool.put id { pool.crews id with signalled := true }).session =
            pool.session :=
          session_put pool rfl rfl
        rw [raiseSignal_of_some (by rw [hheld]; rfl)]
        exact leads_of_session hsession rfl
  | closed hcall =>
      rw [Sound, hcall] at h
      obtain ⟨id, hheld, _⟩ := h
      have hsession : (pool.put id { pool.crews id with closed := true }).session = pool.session :=
        session_put pool rfl rfl
      rw [dropSender_of_some (by rw [hheld]; rfl)]
      exact leads_of_session hsession rfl
  | deafened hcall =>
      rw [Sound, hcall] at h
      obtain ⟨id, hheld, _⟩ := h
      rw [dropReceiver_of_some (by rw [hheld]; rfl)]
      exact .single ⟨.stop, .stopped⟩
  | joined hcall =>
      rw [Sound, hcall] at h
      obtain ⟨id, hheld, _⟩ := h
      have hreceiver : pool.held.receiver = none := by rw [hheld]
      exact leads_of_receiver hreceiver hreceiver rfl
  | @accepted job after hcall hsubmit =>
      have hseen := seen_submit h hsize hcall job
      rw [hsubmit] at hseen
      obtain ⟨id, _, _, _, _, rfl⟩ := submit_ok hsubmit
      exact .single ⟨.submit job, .accepted hseen⟩
  | rejected => exact .refl
  | received hreceive => exact leads_received hreceive
  | refused => exact .refl
  | ran hrun => exact leads_ran hrun

/-! ## Every run -/

theorem shape_change (pool : ThreadPool) (id : Option Nat) (f : Crew → Crew) :
    (pool.change id f).size = pool.size ∧ (pool.change id f).capacity = pool.capacity := by
  cases id <;> exact ⟨rfl, rfl⟩

theorem Step.shape {act : Act} (hstep : pool.Step act after) :
    after.size = pool.size ∧ after.capacity = pool.capacity := by
  cases hstep with
  | installed => exact shape_change _ _ _
  | published => exact shape_change _ _ _
  | signalled => exact shape_change _ _ _
  | closed => exact shape_change _ _ _
  | deafened => exact shape_change _ _ _
  | accepted _ h =>
      obtain ⟨_, _, _, _, _, rfl⟩ := submit_ok h
      exact ⟨rfl, rfl⟩
  | received h =>
      obtain ⟨_, _, ⟨_, _, _, _, rfl⟩ | ⟨_, _, _, rfl⟩⟩ := receive_ok h
      · exact ⟨rfl, rfl⟩
      · exact ⟨rfl, rfl⟩
  | _ => exact ⟨rfl, rfl⟩

theorem Reached.invariant {size capacity : Nat} (h : Reached size capacity pool) :
    pool.Sound ∧ 0 < pool.size ∧ Traffic.Reached size capacity pool.traffic := by
  induction h with
  | refl => exact ⟨.inl ⟨none, rfl, fun _ => rfl⟩, Nat.le_max_right size 1, .refl⟩
  | tail _ hstep ih =>
      obtain ⟨act, hstep⟩ := hstep
      obtain ⟨hsound, hsize, hreached⟩ := ih
      exact ⟨hstep.sound hsound, hstep.shape.1 ▸ hsize, hreached.trans (hstep.leads hsound hsize)⟩

/-- The steps that the threads can still make for which the pool waits. -/
def weight (pool : ThreadPool) : Nat :=
  (pool.held.threads.map fun id => (pool.crews id).weight).getD 0

theorem weight_put_lt {index : Nat} (hthreads : pool.held.threads = some id)
    (hrun : (pool.crews id).Run pool.capacity index crew) :
    (pool.put id crew).weight < pool.weight := by
  have hput : (pool.put id crew).held.threads = some id := hthreads
  rw [weight, weight, hput, hthreads, Option.map_some, Option.map_some, crews_put_self]
  exact hrun.weight_lt

theorem Step.eq_of_isStopped {act : Act} (hstep : pool.Step act after) (h : pool.Sound)
    (hstopped : pool.IsStopped) (hact : act ≠ .start) : after = pool := by
  obtain ⟨signal, hheld, hgone⟩ := h.of_isStopped hstopped
  obtain ⟨hfree, hrunning⟩ := hstopped
  cases hstep with
  | stopStopped => rfl
  | accepted _ h =>
      obtain ⟨_, _, hrunning, _⟩ := submit_ok h
      rw [hheld] at hrunning
      contradiction
  | rejected => rfl
  | received h =>
      obtain ⟨_, hreceiver, _⟩ := receive_ok h
      rw [hheld] at hreceiver
      contradiction
  | refused => rfl
  | ran h =>
      have hmem := h.mem_alive
      rw [hgone] at hmem
      contradiction
  -- the other steps are those of a call that holds the lock, or begin one
  | _ => simp_all only [ne_eq, reduceCtorEq, not_true_eq_false]

/-- A stop that waits for the threads is held up by nothing but their steps, of
which each is one less. -/
theorem Step.of_joining {act : Act} (hstep : pool.Step act after) (h : pool.Sound)
    (hcall : pool.call = .joining) :
    after = pool ∨ after.IsStopped ∨ (after.call = .joining ∧ after.weight < pool.weight) := by
  rw [Sound, hcall] at h
  obtain ⟨current, hheld, hothers, _⟩ := h
  cases hstep with
  | joined => exact .inr (.inl ⟨rfl, rfl⟩)
  | received h =>
      obtain ⟨_, hreceiver, _⟩ := receive_ok h
      rw [hheld] at hreceiver
      contradiction
  | refused => exact .inl rfl
  | @ran id index crew hrun =>
      have hid : id = current := by
        by_contra hne
        have hmem := hrun.mem_alive
        rw [hothers id hne] at hmem
        contradiction
      subst hid
      exact .inr (.inr ⟨hcall, weight_put_lt (by rw [hheld]; rfl) hrun⟩)
  | _ => simp_all only [reduceCtorEq]

/-- As long as a stop waits, some thread can go on, and when none is left the stop can. -/
theorem Sound.exists_step (h : pool.Sound) (hcall : pool.call = .joining) :
    ∃ act after, pool.Step act after ∧ (after.IsStopped ∨ after.weight < pool.weight) := by
  rw [Sound, hcall] at h
  obtain ⟨id, hheld, _, hsignalled, hdeaf⟩ := h
  by_cases hgone : (pool.crews id).alive = []
  · refine ⟨.proceed, _, .joined hcall ?_, .inl ⟨rfl, rfl⟩⟩
    intro other hother
    rw [hheld] at hother
    exact Option.some.inj hother ▸ hgone
  · obtain ⟨index, hindex⟩ := List.exists_mem_of_ne_nil _ hgone
    obtain ⟨crew, hrun⟩ := Crew.exists_run hsignalled hdeaf hindex
    exact ⟨.run id index, _, .ran hrun, .inr (weight_put_lt (by rw [hheld]; rfl) hrun)⟩

/-- At no time do two sessions have threads. -/
theorem Sound.othersGone (h : pool.Sound) : ∃ id, pool.OthersGone id := by
  cases hcall : pool.call with
  | free =>
      rw [Sound, hcall] at h
      rcases h with ⟨_, _, hgone⟩ | ⟨id, _, hothers, _⟩
      · exact ⟨0, fun other _ => hgone other⟩
      · exact ⟨id, hothers⟩
  | spawning id => rw [Sound, hcall] at h; exact ⟨id, h.2.1⟩
  | failing id => rw [Sound, hcall] at h; exact ⟨id, h.2⟩
  | installing id => rw [Sound, hcall] at h; exact ⟨id, h.2.1⟩
  | signalling => rw [Sound, hcall] at h; exact ⟨_, h.choose_spec.2.1⟩
  | closing => rw [Sound, hcall] at h; exact ⟨_, h.choose_spec.2.1⟩
  | joining => rw [Sound, hcall] at h; exact ⟨_, h.choose_spec.2.1⟩

/-- What sessions have to do with each other. -/
structure SessionsApart (size capacity : Nat) (pool : ThreadPool) : Prop where
  /-- callers see what a `Pool` could have come to, and get its answers -/
  reached : Traffic.Reached size capacity pool.traffic
  submits : pool.call = .free → ∀ job, pool.seen.submit job = (pool.submit job).map seen
  receives : pool.seen.receive.map (·.1) = pool.receive.map (·.1)
  startRunning : pool.call = .free → pool.held.running = true →
    pool.seen.isRunning = true ∧ pool.seen.start = pool.seen ∧ ∀ after, pool.Step .start after ↔
      after = pool
  stopStopped : pool.IsStopped →
    pool.seen.isRunning = false ∧ pool.seen.stop = pool.seen ∧ ∀ after, pool.Step .stop after ↔
      after = pool
  /-- a stop that waits for the threads comes to its end, whatever else happens -/
  stopReturns : pool.call = .joining →
    (∃ act after, pool.Step act after ∧ (after.IsStopped ∨ after.weight < pool.weight)) ∧
    ∀ act after, pool.Step act after →
      after = pool ∨ after.IsStopped ∨ (after.call = .joining ∧ after.weight < pool.weight)
  oneAlive : ∃ id, ∀ other, other ≠ id → (pool.crews other).alive = []
  noneAlive : pool.IsStopped → ∀ id, (pool.crews id).alive = []
  refuses : pool.IsStopped → (∀ job, pool.submit job = .error ⟨job, .poolStopped⟩) ∧
    pool.receive = .error .poolStopped
  untilStart : pool.IsStopped → ∀ act after, act ≠ .start → pool.Step act after → after = pool
  untilStarted : pool.call.IsStart → pool.receive = .error .poolStopped
  /-- what was read since the last start is of jobs that were accepted since then, and
  of each once at most -/
  received : ∃ returned : List Job,
    pool.received = returned.map Job.run ∧ (↑returned : Multiset Job) ≤ ↑pool.accepted

theorem Sound.session_of_running (h : pool.Sound) (hsize : 0 < pool.size)
    (hcall : pool.call = .free) (hrunning : pool.held.running = true) :
    ∃ session, pool.session = some session := by
  rw [Sound, hcall] at h
  rcases h with ⟨signal, hheld, _⟩ | ⟨id, hheld, _, hopen⟩
  · rw [hheld] at hrunning
    contradiction
  · exact ⟨_, session_eq_some pool (by rw [hheld]; rfl) (.inl (hopen.alive_ne_nil hsize))⟩

/-- Sessions do not leak into each other, in whatever order callers and threads make their steps. -/
theorem sessions_never_leak {size capacity : Nat} (h : Reached size capacity pool) :
    SessionsApart size capacity pool := by
  obtain ⟨hsound, hsize, hreached⟩ := h.invariant
  have hunheard : pool.held.receiver = none → pool.receive = .error .poolStopped := by
    intro hreceiver
    rw [receive, hreceiver]
  refine ⟨hreached, seen_submit hsound hsize, seen_receive pool, ?_, ?_, ?_, hsound.othersGone,
    ?_, ?_, ?_, ?_, hreached.received_of_accepted⟩
  · intro hcall hrunning
    obtain ⟨session, hsession⟩ := hsound.session_of_running hsize hcall hrunning
    refine ⟨by rw [Pool.isRunning, seen, hsession]; rfl, by rw [Pool.start, seen, hsession],
      fun after => ?_⟩
    constructor
    · intro hstep
      cases hstep with
      | startRunning => rfl
      | startStopped _ hstopped =>
          rw [hrunning] at hstopped
          contradiction
    · rintro rfl
      exact .startRunning hcall hrunning
  · intro hstopped
    obtain ⟨signal, hheld, _⟩ := hsound.of_isStopped hstopped
    have hsession : pool.session = none := session_eq_none (by rw [hheld]; rfl)
    refine ⟨by rw [Pool.isRunning, seen, hsession]; rfl, by rw [Pool.stop, seen, hsession],
      fun after => ?_⟩
    constructor
    · intro hstep
      exact hstep.eq_of_isStopped hsound hstopped (by simp)
    · rintro rfl
      exact .stopStopped hstopped.1 hstopped.2
  · intro hcall
    exact ⟨hsound.exists_step hcall, fun act after hstep => hstep.of_joining hsound hcall⟩
  · intro hstopped
    obtain ⟨_, _, hgone⟩ := hsound.of_isStopped hstopped
    exact hgone
  · intro hstopped
    obtain ⟨signal, hheld, _⟩ := hsound.of_isStopped hstopped
    refine ⟨fun job => ?_, hunheard (by rw [hheld]; rfl)⟩
    rw [submit, hheld]
    rfl
  · intro hstopped act after hact hstep
    exact hstep.eq_of_isStopped hsound hstopped hact
  · intro hstart
    exact hunheard (hsound.receiver_of_isStart hstart)

/-- A pool with one worker and one place that was stopped while its worker had the first
job, and started again. -/
def restarted : ThreadPool :=
  { size := 1
    capacity := 1
    crews := fun
      | 0 => ⟨⟨[], [.sending (Traffic.crashingJob "a.boom").run], []⟩, [0], true, true, true⟩
      | 1 => .opened 1
      | _ => .opened 0
    next := 2
    held := .all 1
    call := .free
    accepted := [Traffic.crashingJob "b.boom"]
    received := [(Traffic.crashingJob "b.boom").run] }

theorem reached_restarted : Reached 1 1 restarted := by
  let lost := Traffic.crashingJob "a.boom"
  let kept := Traffic.crashingJob "b.boom"
  have hspawned : Reached 1 1 _ :=
    (Relation.ReflTransGen.single ⟨.start, .startStopped rfl rfl⟩).tail
      ⟨.proceed, .spawned rfl (by decide)⟩
  have hstarted : Reached 1 1 _ :=
    (hspawned.tail ⟨.proceed, .installed rfl (by decide)⟩).tail ⟨.proceed, .published rfl⟩
  have htaken : Reached 1 1 _ :=
    (hstarted.tail ⟨.submit lost, .accepted rfl rfl⟩).tail
      ⟨.run 0 0, .ran (.works nofun (.take rfl rfl) nofun)⟩
  have hdeaf : Reached 1 1 _ :=
    ((htaken.tail ⟨.stop, .signalled rfl rfl⟩).tail ⟨.proceed, .closed rfl⟩).tail
      ⟨.proceed, .deafened rfl⟩
  -- the result of the first job can be given to nobody
  have hexited : Reached 1 1 _ :=
    (hdeaf.tail ⟨.run 0 0, .ran (.works nofun (.finish rfl) fun _ => rfl)⟩).tail
      ⟨.run 0 0, .ran (.exits nofun rfl rfl)⟩
  have hstopped : Reached 1 1 _ :=
    hexited.tail ⟨.proceed, .joined rfl fun id hid => Option.some.inj hid ▸ rfl⟩
  have hrespawned : Reached 1 1 _ :=
    (hstopped.tail ⟨.start, .startStopped rfl rfl⟩).tail ⟨.proceed, .spawned rfl (by decide)⟩
  have hrestarted : Reached 1 1 _ :=
    (hrespawned.tail ⟨.proceed, .installed rfl (by decide)⟩).tail ⟨.proceed, .published rfl⟩
  have hsent : Reached 1 1 _ :=
    (((hrestarted.tail ⟨.submit kept, .accepted rfl rfl⟩).tail
      ⟨.run 1 0, .ran (.works nofun (.take rfl rfl) nofun)⟩).tail
      ⟨.run 1 0, .ran (.works nofun (.finish rfl) nofun)⟩).tail
      ⟨.run 1 0, .ran (.works nofun (.send rfl (by decide)) nofun)⟩
  obtain ⟨pool, hreached, hcrews, hrest⟩ : ∃ pool, Reached 1 1 pool ∧
      (∀ id, pool.crews id = restarted.crews id) ∧
        { pool with crews := restarted.crews } = restarted := by
    refine ⟨_, hsent.tail ⟨.receive, .received rfl⟩, ?_, rfl⟩
    intro id
    match id with
    | 0 => rfl
    | 1 => rfl
    | _ + 2 => rfl
  have hpool : pool = { pool with crews := restarted.crews } :=
    ThreadPool.ext rfl rfl (funext hcrews) rfl rfl rfl rfl rfl
  rw [hpool, hrest] at hreached
  exact hreached

/-- The result that was read is not that of the job which the first session had. -/
theorem sessions_never_leak_restarted :
    Reached 1 1 restarted ∧ SessionsApart 1 1 restarted ∧
      restarted.received.map (·.path) = [⟨"b.boom"⟩] ∧ (restarted.crews 0).alive = [] :=
  ⟨reached_restarted, sessions_never_leak reached_restarted, rfl, rfl⟩

end ThreadPool
end CodeSurvey
