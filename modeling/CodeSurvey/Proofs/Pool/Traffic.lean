import Mathlib.Data.List.ReduceOption
import Mathlib.Logic.Relation
import CodeSurvey.Proofs.Pool.Operations

/-
A pool and what has passed through it.  Callers start, stop, submit and receive, and workers make
their steps, in any order; `Traffic` keeps the jobs that were accepted and the results that were
read since the last start.  The theorem this file exists for is `accepted_jobs_conserved`: each
accepted job is in exactly one place, and what is read of it is what running it gives.
-/

namespace CodeSurvey

/-- What a caller or a worker may do to a pool. -/
inductive Pool.Action where
  | start
  | stop
  | submit (job : Job)
  | work (index : Nat)
  | receive

/-- A pool with what has passed through it since it was last started. -/
structure Traffic where
  pool : Pool
  accepted : List Job
  received : List JobResult

namespace Traffic

/-- One action and what it leads to.  A worker that has to wait makes no step. -/
inductive Step : Traffic → Pool.Action → Traffic → Prop
  | opened {traffic : Traffic} (hsession : traffic.pool.session = none) :
      Step traffic .start ⟨traffic.pool.start, [], []⟩
  | running {traffic : Traffic} {session : Session}
      (hsession : traffic.pool.session = some session) :
      Step traffic .start { traffic with pool := traffic.pool.start }
  | stopped {traffic : Traffic} : Step traffic .stop { traffic with pool := traffic.pool.stop }
  | accepted {traffic : Traffic} {job : Job} {pool : Pool}
      (h : traffic.pool.submit job = .ok pool) :
      Step traffic (.submit job) { traffic with pool, accepted := traffic.accepted ++ [job] }
  | rejected {traffic : Traffic} {job : Job} {rejected : Rejected}
      (h : traffic.pool.submit job = .error rejected) : Step traffic (.submit job) traffic
  | worked {traffic : Traffic} (ready : Job → Bool) {index : Nat} {pool : Pool}
      (h : traffic.pool.step ready index = some pool) :
      Step traffic (.work index) { traffic with pool }
  | received {traffic : Traffic} {result : JobResult} {pool : Pool}
      (h : traffic.pool.receive = .ok (some result, pool)) :
      Step traffic .receive { traffic with pool, received := traffic.received ++ [result] }
  | nothing {traffic : Traffic} {pool : Pool} (h : traffic.pool.receive = .ok (none, pool)) :
      Step traffic .receive { traffic with pool }
  | refused {traffic : Traffic} {fault : Fault} (h : traffic.pool.receive = .error fault) :
      Step traffic .receive traffic

/-- A pool that was never started. -/
def create (size capacity : Nat) : Traffic := ⟨.create size capacity, [], []⟩

/-- What any sequence of actions can make of a pool of the given size and capacity. -/
def Reached (size capacity : Nat) : Traffic → Prop :=
  Relation.ReflTransGen (fun before after => ∃ action, Step before action after)
    (create size capacity)

end Traffic

/-- A worker holds the job that it took until it has handed over the result. -/
inductive Worker.Holds : Worker → Option Job → Prop
  | idle : Holds .idle none
  | working (job : Job) : Holds (.working job) (some job)
  | sending (job : Job) : Holds (.sending job.run) (some job)

theorem forall₂_set {α β : Type*} {R : α → β → Prop} {as : List α} {bs : List β}
    (h : List.Forall₂ R as bs) {index : Nat} {a : α} (ha : as[index]? = some a) :
    ∃ b, bs[index]? = some b ∧ R a b ∧
      ∀ a' b', R a' b' → List.Forall₂ R (as.set index a') (bs.set index b') := by
  induction h generalizing index with
  | nil => simp at ha
  | @cons x y xs ys hxy hrest ih =>
      cases index with
      | zero =>
          have hx : x = a := by simpa using ha
          subst hx
          exact ⟨y, rfl, hxy, fun _ _ hnew => .cons hnew hrest⟩
      | succ index =>
          obtain ⟨b, hb, hab, hset⟩ := ih (by simpa using ha)
          exact ⟨b, by simpa using hb, hab, fun _ _ hnew => .cons hxy (hset _ _ hnew)⟩

theorem coe_reduceOption {α : Type*} (items : List (Option α)) :
    (↑items.reduceOption : Multiset α) =
      (items.map fun item => (↑item.toList : Multiset α)).sum := by
  induction items with
  | nil => rfl
  | cons item items ih =>
      cases item with
      | none => simpa using ih
      | some value =>
          rw [List.reduceOption_cons_of_some, ← Multiset.cons_coe, ih]
          simp [Multiset.singleton_add]

/-- Replacing one entry trades what it holds for what the new one does. -/
theorem coe_reduceOption_set {α : Type*} {items : List (Option α)} {index : Nat} {old : Option α}
    (new : Option α) (h : items[index]? = some old) :
    (↑(items.set index new).reduceOption + ↑old.toList : Multiset α) =
      ↑items.reduceOption + ↑new.toList := by
  rw [coe_reduceOption, coe_reduceOption]
  exact sum_map_set (fun item => (↑item.toList : Multiset α)) new h

namespace Session

/-- Which jobs the workers hold, and which ones the unread results are of. -/
structure Custody (session : Session) (held : List (Option Job)) (delivered : List Job) : Prop where
  workers : List.Forall₂ Worker.Holds session.workers held
  results : session.results = delivered.map Job.run

theorem custody_fresh (size : Nat) : (fresh size).Custody (List.replicate size none) [] := by
  refine ⟨?_, rfl⟩
  induction size with
  | zero => exact .nil
  | succ size ih => exact .cons .idle ih

/-- A job leaves one place when it comes to the next. -/
theorem Work.custody {capacity index : Nat} {session after : Session} {held : List (Option Job)}
    {delivered : List Job} (h : Work capacity session index after)
    (hcustody : session.Custody held delivered) :
    ∃ held' delivered', after.Custody held' delivered' ∧
      (↑after.jobs + ↑held'.reduceOption + ↑delivered' : Multiset Job) =
        ↑session.jobs + ↑held.reduceOption + ↑delivered := by
  cases h with
  | @take job rest hworker hjobs =>
      obtain ⟨before, hbefore, hholds, hset⟩ := forall₂_set hcustody.workers hworker
      cases hholds
      refine ⟨held.set index (some job), delivered, ⟨hset _ _ (.working job), hcustody.results⟩, ?_⟩
      have hset := coe_reduceOption_set (some job) hbefore
      rw [Option.toList_none, Multiset.coe_nil, add_zero, Option.toList_some,
        Multiset.coe_singleton] at hset
      rw [hset, hjobs, ← Multiset.cons_coe, ← Multiset.singleton_add]
      ac_rfl
  | @finish job hworker =>
      obtain ⟨before, hbefore, hholds, hset⟩ := forall₂_set hcustody.workers hworker
      cases hholds
      refine ⟨held.set index (some job), delivered, ⟨hset _ _ (.sending job), hcustody.results⟩, ?_⟩
      have hsame : held.set index (some job) = held := by
        obtain ⟨hlt, hget⟩ := List.getElem?_eq_some_iff.mp hbefore
        rw [← hget, List.set_getElem_self]
      rw [hsame]
  | @send result hworker hplace =>
      obtain ⟨before, hbefore, hholds, hset⟩ := forall₂_set hcustody.workers hworker
      cases hholds with
      | sending job =>
          refine ⟨held.set index none, delivered ++ [job], ⟨hset _ _ .idle, ?_⟩, ?_⟩
          · rw [List.map_append, ← hcustody.results]
            rfl
          · have hset := coe_reduceOption_set none hbefore
            rw [Option.toList_none, Multiset.coe_nil, add_zero, Option.toList_some,
              Multiset.coe_singleton] at hset
            rw [← hset, ← Multiset.coe_add, Multiset.coe_singleton]
            ac_rfl

end Session

namespace Traffic

variable {traffic after : Traffic} {action : Pool.Action} {session : Session}

/-- Every job that was accepted is in one place, and no queue holds more than it may. -/
structure Conserved (traffic : Traffic) (session : Session) : Prop where
  placed : ∃ (held : List (Option Job)) (delivered returned : List Job),
    session.Custody held delivered ∧ traffic.received = returned.map Job.run ∧
    (↑traffic.accepted : Multiset Job) =
      ↑session.jobs + ↑held.reduceOption + ↑delivered + ↑returned
  jobs : session.jobs.length ≤ traffic.pool.capacity
  workers : session.workers.length = traffic.pool.size
  results : session.results.length ≤ traffic.pool.capacity

theorem Step.shape (h : Step traffic action after) :
    after.pool.size = traffic.pool.size ∧ after.pool.capacity = traffic.pool.capacity := by
  cases h with
  | opened hsession => simp [Pool.start, hsession]
  | running hsession => simp [Pool.start, hsession]
  | stopped => exact ⟨rfl, rfl⟩
  | accepted h =>
      obtain ⟨_, _, _, rfl⟩ := Pool.submit_ok h
      exact ⟨rfl, rfl⟩
  | rejected => exact ⟨rfl, rfl⟩
  | worked _ h =>
      obtain ⟨_, _, _, _, rfl⟩ := Pool.work_of_step h
      exact ⟨rfl, rfl⟩
  | received h =>
      obtain ⟨_, _, _, _, rfl⟩ := Pool.receive_some h
      exact ⟨rfl, rfl⟩
  | nothing h =>
      obtain ⟨rfl, _⟩ := Pool.receive_none h
      exact ⟨rfl, rfl⟩
  | refused => exact ⟨rfl, rfl⟩

/-- No action breaks the conservation of a running pool. -/
theorem Step.conserved (h : Step traffic action after)
    (hbefore : ∀ session, traffic.pool.session = some session → traffic.Conserved session) :
    ∀ session, after.pool.session = some session → after.Conserved session := by
  intro session hafter
  cases h with
  | opened hsession =>
      simp only [Pool.start, hsession, Option.some.injEq] at hafter
      subst hafter
      refine ⟨⟨_, [], [], Session.custody_fresh _, rfl, ?_⟩, ?_, ?_, ?_⟩
      · simp [Session.fresh, List.reduceOption_replicate_none]
      · exact Nat.zero_le _
      · simp [Session.fresh, Pool.start, hsession]
      · exact Nat.zero_le _
  | running hsession =>
      have hstart : traffic.pool.start = traffic.pool := by simp [Pool.start, hsession]
      rw [hstart] at hafter ⊢
      exact hbefore session hafter
  | stopped => simp [Pool.stop] at hafter
  | @accepted job _ h =>
      obtain ⟨before, hsession, hplace, rfl⟩ := Pool.submit_ok h
      obtain ⟨held, delivered, returned, hcustody, hreceived, haccepted⟩ :=
        (hbefore before hsession).placed
      simp only [Option.some.injEq] at hafter
      subst hafter
      refine ⟨⟨held, delivered, returned, ⟨hcustody.workers, hcustody.results⟩, hreceived, ?_⟩,
        ?_, (hbefore before hsession).workers, (hbefore before hsession).results⟩
      · rw [← Multiset.coe_add, haccepted, ← Multiset.coe_add]
        ac_rfl
      · rw [List.length_append]
        exact hplace
  | rejected => exact hbefore session hafter
  | worked _ h =>
      obtain ⟨before, next, hsession, hwork, rfl⟩ := Pool.work_of_step h
      obtain ⟨held, delivered, returned, hcustody, hreceived, haccepted⟩ :=
        (hbefore before hsession).placed
      simp only [Option.some.injEq] at hafter
      subst hafter
      obtain ⟨held', delivered', hcustody', hsame⟩ := hwork.custody hcustody
      refine ⟨⟨held', delivered', returned, hcustody', hreceived, ?_⟩, ?_, ?_, ?_⟩
      · rw [haccepted, hsame]
      · exact Nat.le_trans hwork.jobs_length_le (hbefore before hsession).jobs
      · rw [hwork.workers_length, (hbefore before hsession).workers]
      · exact hwork.results_length_le (hbefore before hsession).results
  | @received result _ h =>
      obtain ⟨before, rest, hsession, hresults, rfl⟩ := Pool.receive_some h
      obtain ⟨held, delivered, returned, hcustody, hreceived, haccepted⟩ :=
        (hbefore before hsession).placed
      simp only [Option.some.injEq] at hafter
      subst hafter
      -- The oldest unread result is that of the job delivered first.
      rw [hcustody.results] at hresults
      cases delivered with
      | nil => simp at hresults
      | cons job delivered =>
          rw [List.map_cons, List.cons.injEq] at hresults
          refine ⟨⟨held, delivered, returned ++ [job], ⟨hcustody.workers, hresults.2.symm⟩, ?_, ?_⟩,
            (hbefore before hsession).jobs, (hbefore before hsession).workers, ?_⟩
          · rw [hreceived, List.map_append, ← hresults.1]
            rfl
          · rw [haccepted, ← Multiset.cons_coe, ← Multiset.singleton_add, ← Multiset.coe_add,
              Multiset.coe_singleton]
            ac_rfl
          · have hle := (hbefore before hsession).results
            rw [hcustody.results, List.map_cons, List.length_cons, hresults.2] at hle
            exact Nat.le_of_succ_le hle
  | nothing h =>
      obtain ⟨rfl, _⟩ := Pool.receive_none h
      exact hbefore session hafter
  | refused => exact hbefore session hafter

theorem Reached.conserved {size capacity : Nat} (h : Reached size capacity traffic) :
    (traffic.pool.size = max size 1 ∧ traffic.pool.capacity = max capacity 1) ∧
      ∀ session, traffic.pool.session = some session → traffic.Conserved session := by
  induction h with
  | refl => exact ⟨⟨rfl, rfl⟩, fun session hsession => by simp [create, Pool.create] at hsession⟩
  | tail _ hstep ih =>
      obtain ⟨action, hstep⟩ := hstep
      have hshape := hstep.shape
      exact ⟨⟨hshape.1.trans ih.1.1, hshape.2.trans ih.1.2⟩, hstep.conserved ih.2⟩

/-- Nothing is lost, doubled or mixed up in a running pool, whatever happens to
it in whatever order. -/
theorem accepted_jobs_conserved {size capacity : Nat} {traffic : Traffic} {session : Session}
    (hreached : Reached size capacity traffic) (hsession : traffic.pool.session = some session) :
    (∃ (held : List (Option Job)) (delivered returned : List Job),
      (↑traffic.accepted : Multiset Job) =
        ↑session.jobs + ↑held.reduceOption + ↑delivered + ↑returned ∧
      List.Forall₂ Worker.Holds session.workers held ∧
      held.reduceOption.length ≤ max size 1 ∧
      session.results = delivered.map Job.run ∧
      traffic.received = returned.map Job.run) ∧
    session.jobs.length ≤ max capacity 1 ∧
    session.results.length ≤ max capacity 1 ∧
    (∀ job ∈ traffic.accepted, job.run.path = job.path ∧ job.run.outcome = job.outcome ∧
      ∀ message, job.language.outline job.path job.content = .crashed message →
        job.run.outcome =
          .error (.parse job.path ("parser panicked: " ++ message.getD "unknown panic"))) ∧
    ∀ job rejected, traffic.pool.submit job = .error rejected →
      rejected = ⟨job, .queueFull (max capacity 1)⟩ ∧
        ∀ after, Step traffic (.submit job) after → after = traffic := by
  obtain ⟨⟨hsize, hcapacity⟩, hconserved⟩ := hreached.conserved
  have hall := hconserved session hsession
  obtain ⟨held, delivered, returned, hcustody, hreceived, haccepted⟩ := hall.placed
  refine ⟨⟨held, delivered, returned, haccepted, hcustody.workers, ?_, hcustody.results, hreceived⟩,
    hcapacity ▸ hall.jobs, hcapacity ▸ hall.results, ?_, ?_⟩
  · calc held.reduceOption.length
        ≤ held.length := List.reduceOption_length_le held
      _ = session.workers.length := hcustody.workers.length_eq.symm
      _ = max size 1 := by rw [hall.workers, hsize]
  · intro job _
    refine ⟨rfl, rfl, ?_⟩
    intro message hcrash
    simp only [Job.run, Job.outcome, hcrash, Job.crash]
  · intro job rejected hrejected
    constructor
    · rcases Pool.submit_error hrejected with ⟨hstopped, _⟩ | ⟨_, _, _, heq⟩
      · rw [hsession] at hstopped
        contradiction
      · rw [heq, hcapacity]
    · intro after hstep
      cases hstep with
      | accepted hok =>
          rw [hrejected] at hok
          contradiction
      | rejected => rfl

/-- A job whose outliner breaks down. -/
def crashingJob (name : String) : Job :=
  { path := ⟨name⟩
    content := []
    language :=
      { name := "Boom", extensions := [".boom"], outline := fun _ _ => .crashed (some "boom") } }

/-- A pool with one worker and one place, after one of two such jobs has come back. -/
def afterCrash : Traffic :=
  { pool := ⟨1, 1, some ⟨[crashingJob "b.boom"], [.idle], []⟩⟩
    accepted := [crashingJob "a.boom", crashingJob "b.boom"]
    received := [(crashingJob "a.boom").run] }

theorem reached_afterCrash : Reached 1 1 afterCrash := by
  let job := crashingJob "a.boom"
  let other := crashingJob "b.boom"
  have hqueued : Reached 1 1 ⟨⟨1, 1, some ⟨[job], [.idle], []⟩⟩, [job], []⟩ :=
    (Relation.ReflTransGen.single ⟨.start, .opened rfl⟩).tail ⟨.submit job, .accepted rfl⟩
  -- The second job is turned away until the worker has taken the first.
  have hfull : Reached 1 1 ⟨⟨1, 1, some ⟨[job], [.idle], []⟩⟩, [job], []⟩ :=
    hqueued.tail ⟨.submit other, .rejected rfl⟩
  have htaken : Reached 1 1 ⟨⟨1, 1, some ⟨[other], [.working job], []⟩⟩, [job, other], []⟩ :=
    (hfull.tail ⟨.work 0, .worked (fun _ => true) rfl⟩).tail ⟨.submit other, .accepted rfl⟩
  have hsent : Reached 1 1 ⟨⟨1, 1, some ⟨[other], [.idle], [job.run]⟩⟩, [job, other], []⟩ :=
    (htaken.tail ⟨.work 0, .worked (fun _ => true) rfl⟩).tail
      ⟨.work 0, .worked (fun _ => true) rfl⟩
  exact hsent.tail ⟨.receive, .received rfl⟩

/-- Both jobs of that pool are accounted for: one waits, and the crash of the other was read. -/
theorem accepted_jobs_conserved_afterCrash :
    Reached 1 1 afterCrash ∧
    afterCrash.received =
      [⟨⟨"a.boom"⟩, .error (.parse ⟨"a.boom"⟩ ("parser panicked: " ++ "boom"))⟩] ∧
    (∃ (held : List (Option Job)) (delivered returned : List Job),
      (↑afterCrash.accepted : Multiset Job) =
        ↑[crashingJob "b.boom"] + ↑held.reduceOption + ↑delivered + ↑returned ∧
      List.Forall₂ Worker.Holds [.idle] held ∧ held.reduceOption.length ≤ max 1 1 ∧
      [] = delivered.map Job.run ∧ afterCrash.received = returned.map Job.run) :=
  ⟨reached_afterCrash, rfl, (accepted_jobs_conserved reached_afterCrash rfl).1⟩

end Traffic
end CodeSurvey
