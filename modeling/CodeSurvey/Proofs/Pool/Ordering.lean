import CodeSurvey.Proofs.Pool.Lifecycle

/-
A pool with one worker answers in order.  A job goes from the queue of jobs into the worker's hand
and from there into the queue of results, and with one hand between two queues no job can pass
another.  So the jobs whose results are unread, the one in hand and those that wait stand in the
order in which they were accepted (`Traffic.Lined`), and what was read is of the jobs before them.
The theorem this file exists for is `one_worker_answers_in_order`.
-/

namespace CodeSurvey

namespace Session

variable {capacity index : Nat} {session after : Session} {held : Option Job} {delivered : List Job}

theorem Custody.single (h : session.Custody [held] delivered) :
    ∃ worker, session.workers = [worker] ∧ worker.Holds held := by
  have hworkers := h.workers
  rw [List.forall₂_cons_right_iff] at hworkers
  obtain ⟨worker, rest, hholds, hrest, hworkers⟩ := hworkers
  rw [List.forall₂_nil_right_iff] at hrest
  rw [hrest] at hworkers
  exact ⟨worker, hworkers, hholds⟩

theorem custody_single {worker : Worker} (hworkers : session.workers = [worker])
    (hholds : worker.Holds held) (hresults : session.results = delivered.map Job.run) :
    session.Custody [held] delivered :=
  ⟨hworkers ▸ .cons hholds .nil, hresults⟩

/-- The only worker moves a job on, and never past another. -/
theorem Work.lined (h : Work capacity session index after)
    (hcustody : session.Custody [held] delivered) :
    ∃ held' delivered', after.Custody [held'] delivered' ∧
      delivered' ++ held'.toList ++ after.jobs = delivered ++ held.toList ++ session.jobs := by
  obtain ⟨worker, hworkers, hholds⟩ := hcustody.single
  have hindex : index = 0 := by
    have hlt := h.index_lt
    rw [hworkers, List.length_singleton] at hlt
    omega
  have hset : ∀ next : Worker, session.workers.set index next = [next] := by
    intro next
    rw [hworkers, hindex, List.set_cons_zero]
  have hfirst : ∀ {found : Worker}, session.workers[index]? = some found → worker = found := by
    intro found hfound
    rw [hworkers, hindex, List.getElem?_cons_zero] at hfound
    exact Option.some.inj hfound
  cases h with
  | @take job rest hworker hjobs =>
      obtain rfl := hfirst hworker
      cases hholds
      refine ⟨some job, delivered, custody_single (hset _) (.working job) hcustody.results, ?_⟩
      simp [hjobs]
  | @finish job hworker =>
      obtain rfl := hfirst hworker
      cases hholds
      exact ⟨some job, delivered, custody_single (hset _) (.sending job) hcustody.results, rfl⟩
  | @send result hworker hplace =>
      obtain rfl := hfirst hworker
      cases hholds with
      | sending job =>
          refine ⟨none, delivered ++ [job], custody_single (hset _) .idle ?_, by simp⟩
          rw [List.map_append, ← hcustody.results]
          rfl

end Session

namespace Traffic

variable {traffic after : Traffic} {action : Pool.Action}

/-- The jobs that were accepted, in their order: first those whose results were read, then the
pending ones.  In a running pool these are the jobs of unread results, the one that the worker has,
and those that wait. -/
structure Lined (traffic : Traffic) (returned pending : List Job) : Prop where
  accepted : traffic.accepted = returned ++ pending
  received : traffic.received = returned.map Job.run
  running : ∀ session, traffic.pool.session = some session → ∃ held delivered,
    session.Custody [held] delivered ∧ pending = delivered ++ held.toList ++ session.jobs

theorem lined_of_session {session : Session} {held : Option Job} {returned delivered : List Job}
    (hsession : traffic.pool.session = some session) (hcustody : session.Custody [held] delivered)
    (haccepted : traffic.accepted = returned ++ (delivered ++ held.toList ++ session.jobs))
    (hreceived : traffic.received = returned.map Job.run) :
    ∃ returned pending, traffic.Lined returned pending := by
  refine ⟨returned, _, haccepted, hreceived, fun other hother => ?_⟩
  rw [hsession] at hother
  obtain rfl := Option.some.inj hother
  exact ⟨held, delivered, hcustody, rfl⟩

theorem Step.lined {returned pending : List Job} (h : Step traffic action after)
    (hone : traffic.pool.size = 1) (hlined : traffic.Lined returned pending) :
    ∃ returned pending, after.Lined returned pending := by
  cases h with
  | opened hsession =>
      refine ⟨[], [], rfl, rfl, ?_⟩
      intro session hafter
      simp only [Pool.start, hsession, hone, Option.some.injEq] at hafter
      subst hafter
      exact ⟨none, [], Session.custody_fresh 1, rfl⟩
  | running hsession =>
      have hstart : traffic.pool.start = traffic.pool := by simp [Pool.start, hsession]
      rw [hstart]
      exact ⟨returned, pending, hlined⟩
  | stopped =>
      refine ⟨returned, pending, hlined.accepted, hlined.received, ?_⟩
      intro session hafter
      simp [Pool.stop] at hafter
  | @accepted job _ hsubmit =>
      obtain ⟨before, hsession, _, rfl⟩ := Pool.submit_ok hsubmit
      obtain ⟨held, delivered, hcustody, hpending⟩ := hlined.running before hsession
      refine lined_of_session rfl ⟨hcustody.workers, hcustody.results⟩ ?_ hlined.received
      rw [hlined.accepted, hpending, List.append_assoc, List.append_assoc _ before.jobs]
  | rejected => exact ⟨returned, pending, hlined⟩
  | worked _ hstep =>
      obtain ⟨before, next, hsession, hwork, rfl⟩ := Pool.work_of_step hstep
      obtain ⟨held, delivered, hcustody, hpending⟩ := hlined.running before hsession
      obtain ⟨held', delivered', hcustody', hsame⟩ := hwork.lined hcustody
      refine lined_of_session rfl hcustody' ?_ hlined.received
      rw [hsame, ← hpending]
      exact hlined.accepted
  | @received result _ hreceive =>
      obtain ⟨before, rest, hsession, hresults, rfl⟩ := Pool.receive_some hreceive
      obtain ⟨held, delivered, hcustody, hpending⟩ := hlined.running before hsession
      rw [hcustody.results] at hresults
      -- the first of the pending jobs is the one whose result is read
      cases delivered with
      | nil => simp at hresults
      | cons job delivered =>
          rw [List.map_cons, List.cons.injEq] at hresults
          have haccepted : traffic.accepted = (returned ++ [job]) ++
              (delivered ++ held.toList ++ before.jobs) := by
            rw [hlined.accepted, hpending]
            simp
          refine lined_of_session rfl ⟨hcustody.workers, hresults.2.symm⟩ haccepted ?_
          rw [hlined.received, List.map_append, ← hresults.1]
          rfl
  | nothing hreceive =>
      obtain ⟨rfl, _⟩ := Pool.receive_none hreceive
      exact ⟨returned, pending, hlined⟩
  | refused => exact ⟨returned, pending, hlined⟩

theorem Reached.lined {size capacity : Nat} (h : Reached size capacity traffic)
    (hone : traffic.pool.size = 1) : ∃ returned pending, traffic.Lined returned pending := by
  induction h with
  | refl =>
      exact ⟨[], [], rfl, rfl, fun session hsession => by simp [create, Pool.create] at hsession⟩
  | tail _ hstep ih =>
      obtain ⟨action, hstep⟩ := hstep
      have hbefore := hstep.shape.1.symm.trans hone
      obtain ⟨returned, pending, hlined⟩ := ih hbefore
      exact hstep.lined hbefore hlined

/-- As many jobs as results were read have been answered, each at its own place. -/
theorem Lined.getElem? {returned pending : List Job} (h : traffic.Lined returned pending)
    {index : Nat} {job : Job} (hjob : traffic.accepted[index]? = some job)
    (hindex : index < traffic.received.length) : traffic.received[index]? = some job.run := by
  rw [h.received, List.length_map] at hindex
  rw [h.accepted, List.getElem?_append_left hindex] at hjob
  rw [h.received, List.getElem?_map, hjob, Option.map_some]

end Traffic

namespace ThreadPool

variable {pool : ThreadPool}

/-- What a pool with one worker makes of the jobs that it accepts. -/
structure InOrder (pool : ThreadPool) : Prop where
  /-- what was read is, result for result, of the jobs that were accepted first -/
  answered : ∃ returned : List Job, returned <+: pool.accepted ∧
    pool.received = returned.map Job.run
  /-- the other jobs stand in their order between the caller that submits and
  the one that receives -/
  pending : ∀ session, pool.session = some session → ∃ worker held delivered,
    session.workers = [worker] ∧ Worker.Holds worker held ∧
      session.results = delivered.map Job.run ∧
    pool.accepted.drop pool.received.length = delivered ++ held.toList ++ session.jobs
  /-- the next result is that of the oldest job without one -/
  next : ∀ result after, pool.receive = .ok (some result, after) →
    after.accepted = pool.accepted ∧ after.received = pool.received ++ [result] ∧
    ∃ job, pool.accepted[pool.received.length]? = some job ∧ result = job.run
  /-- a job that fails, or whose outliner breaks down, is answered in its turn -/
  failures : ∀ (index : Nat) (job : Job) (fault : Fault), pool.accepted[index]? = some job →
    index < pool.received.length →
    (job.language.outline job.path job.content = .refused fault ∨ ∃ message,
      job.language.outline job.path job.content = .crashed message ∧
        fault = Job.crash job.path message) →
    pool.received[index]? = some ⟨job.path, .error fault⟩
  /-- a job takes its place when it is accepted -/
  accepts : ∀ job after, pool.submit job = .ok after →
    after.accepted = pool.accepted ++ [job] ∧ after.received = pool.received
  /-- and one that is turned away takes none -/
  skips : ∀ job rejected after, pool.submit job = .error rejected → pool.Step (.submit job) after →
    after = pool

theorem Reached.lined {size capacity : Nat} (h : Reached size capacity pool)
    (hone : pool.size = 1) : ∃ returned pending, pool.traffic.Lined returned pending :=
  h.invariant.2.2.lined hone

/-- Nothing overtakes anything in a pool with one worker, whatever callers and the worker do
and in whatever order. -/
theorem one_worker_answers_in_order {size capacity : Nat} (h : Reached size capacity pool)
    (hone : pool.size = 1) : pool.InOrder := by
  obtain ⟨returned, pending, hlined⟩ := h.lined hone
  have haccepted : pool.accepted = returned ++ pending := hlined.accepted
  have hreceived : pool.received = returned.map Job.run := hlined.received
  refine ⟨⟨returned, ⟨pending, haccepted.symm⟩, hreceived⟩, ?_, ?_, ?_, ?_, ?_⟩
  · intro session hsession
    obtain ⟨held, delivered, hcustody, hpending⟩ := hlined.running session hsession
    obtain ⟨worker, hworkers, hholds⟩ := hcustody.single
    refine ⟨worker, held, delivered, hworkers, hholds, hcustody.results, ?_⟩
    rw [haccepted, hreceived, List.length_map, List.drop_left, hpending]
  · intro result after hreceive
    have hafter : Reached size capacity after := h.tail ⟨.receive, .received hreceive⟩
    obtain ⟨id, _, ⟨first, rest, _, hanswer, rfl⟩ | ⟨_, _, hanswer, _⟩⟩ := receive_ok hreceive
    · obtain rfl := Option.some.inj hanswer
      refine ⟨rfl, rfl, ?_⟩
      -- the pool after the call has answered one job more
      obtain ⟨returned', pending', hlined'⟩ := hafter.lined hone
      have haccepted' : pool.accepted = returned' ++ pending' := hlined'.accepted
      have hreceived' : pool.received ++ [result] = returned'.map Job.run := hlined'.received
      have hlength := congrArg List.length hreceived'
      rw [List.length_append, List.length_singleton, List.length_map] at hlength
      have hlt : pool.received.length < returned'.length := by omega
      refine ⟨returned'[pool.received.length], ?_, ?_⟩
      · rw [haccepted', List.getElem?_append_left hlt, List.getElem?_eq_getElem hlt]
      · have hlast := congrArg (·[pool.received.length]?) hreceived'
        simpa [hlt] using hlast
    · contradiction
  · intro index job fault hjob hindex hfails
    have hresult : pool.received[index]? = some job.run := hlined.getElem? hjob hindex
    rcases hfails with hrefused | ⟨message, hcrashed, rfl⟩
    · rw [hresult, Job.run, Job.outcome, hrefused]
    · rw [hresult, Job.run, Job.outcome, hcrashed]
  · intro job after hsubmit
    obtain ⟨_, _, _, _, _, rfl⟩ := submit_ok hsubmit
    exact ⟨rfl, rfl⟩
  · intro job rejected after hsubmit hstep
    cases hstep with
    | accepted _ hok =>
        rw [hsubmit] at hok
        contradiction
    | rejected => rfl

/-- A job whose outliner finds nothing. -/
def emptyJob (name : String) : Job :=
  { path := ⟨name⟩
    content := []
    language :=
      { name := "Plain"
        extensions := [".txt"]
        outline := fun path _ => .outlined (.assemble path "Plain" [] []) } }

/-- A pool with one worker and one place.  Of its three jobs the first broke down, and the last
was turned away once. -/
def busy : ThreadPool :=
  { size := 1
    capacity := 1
    crews := fun
      | 0 => ⟨⟨[emptyJob "c.txt"], [.idle], []⟩, [], false, false, false⟩
      | _ => .opened 0
    next := 1
    held := .all 0
    call := .free
    accepted := [Traffic.crashingJob "a.boom", emptyJob "b.txt", emptyJob "c.txt"]
    received := [(Traffic.crashingJob "a.boom").run, (emptyJob "b.txt").run] }

theorem reached_busy : Reached 1 1 busy := by
  let first := Traffic.crashingJob "a.boom"
  let second := emptyJob "b.txt"
  let third := emptyJob "c.txt"
  have hspawned : Reached 1 1 _ :=
    (Relation.ReflTransGen.single ⟨.start, .startStopped rfl rfl⟩).tail
      ⟨.proceed, .spawned rfl (by decide)⟩
  have hstarted : Reached 1 1 _ :=
    (hspawned.tail ⟨.proceed, .installed rfl (by decide)⟩).tail ⟨.proceed, .published rfl⟩
  have htaken : Reached 1 1 _ :=
    (hstarted.tail ⟨.submit first, .accepted rfl rfl⟩).tail
      ⟨.run 0 0, .ran (.works List.not_mem_nil (.take rfl rfl) fun _ => rfl)⟩
  have hfull : Reached 1 1 _ :=
    (htaken.tail ⟨.submit second, .accepted rfl rfl⟩).tail ⟨.submit third, .rejected rfl rfl⟩
  have hsent : Reached 1 1 _ :=
    (hfull.tail ⟨.run 0 0, .ran (.works List.not_mem_nil (.finish rfl) fun _ => rfl)⟩).tail
      ⟨.run 0 0,
        .ran (.works List.not_mem_nil (.send rfl (by decide)) fun hdeaf =>
          absurd hdeaf Bool.false_ne_true)⟩
  have haccepted : Reached 1 1 _ :=
    (hsent.tail ⟨.run 0 0, .ran (.works List.not_mem_nil (.take rfl rfl) fun _ => rfl)⟩).tail
      ⟨.submit third, .accepted rfl rfl⟩
  -- the result of the second job finds no place until that of the first is read
  have hread : Reached 1 1 _ :=
    (haccepted.tail ⟨.run 0 0, .ran (.works List.not_mem_nil (.finish rfl) fun _ => rfl)⟩).tail
      ⟨.receive, .received rfl⟩
  have hresent : Reached 1 1 _ :=
    hread.tail
      ⟨.run 0 0,
        .ran (.works List.not_mem_nil (.send rfl (by decide)) fun hdeaf =>
          absurd hdeaf Bool.false_ne_true)⟩
  obtain ⟨pool, hreached, hcrews, hrest⟩ : ∃ pool, Reached 1 1 pool ∧
      (∀ id, pool.crews id = busy.crews id) ∧ { pool with crews := busy.crews } = busy := by
    refine ⟨_, hresent.tail ⟨.receive, .received rfl⟩, ?_, rfl⟩
    intro id
    cases id with
    | zero => rfl
    | succ id => rfl
  have hpool : pool = { pool with crews := busy.crews } :=
    ThreadPool.ext rfl rfl (funext hcrews) rfl rfl rfl rfl rfl
  rw [hpool, hrest] at hreached
  exact hreached

/-- The crash of the first job was read first, and the job that was turned away is the
next to be answered. -/
theorem one_worker_answers_in_order_busy :
    Reached 1 1 busy ∧ busy.size = 1 ∧ busy.InOrder ∧
    busy.received.map (·.path) = [⟨"a.boom"⟩, ⟨"b.txt"⟩] ∧
    busy.received[0]? = some ⟨⟨"a.boom"⟩, .error (Job.crash ⟨"a.boom"⟩ (some "boom"))⟩ :=
  have hordered := one_worker_answers_in_order reached_busy rfl
  ⟨reached_busy, rfl, hordered, rfl,
    hordered.failures 0 (Traffic.crashingJob "a.boom") _ rfl (by decide)
    (.inr ⟨_, rfl, rfl⟩)⟩

end ThreadPool
end CodeSurvey
