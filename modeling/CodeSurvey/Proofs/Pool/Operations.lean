import Mathlib.Algebra.BigOperators.Group.List.Basic
import Mathlib.Algebra.Order.Group.Multiset
import CodeSurvey.Pool

/-
What can happen to a pool, said once for each operation.  A worker takes a job, finishes it or hands
over its result; each of these steps moves what the session owes from one place to the next, so
`Session.owed` is the same multiset before and after it.
-/

namespace CodeSurvey

/-- Replacing one element trades its share of a sum for that of the new one. -/
theorem sum_map_set {α M : Type*} [AddCommMonoid M] (f : α → M) {items : List α} {index : Nat}
    {old : α} (new : α) (h : items[index]? = some old) :
    ((items.set index new).map f).sum + f old = (items.map f).sum + f new := by
  induction items generalizing index with
  | nil => simp at h
  | cons item items ih =>
      cases index with
      | zero =>
          have hitem : item = old := by simpa using h
          subst hitem
          simp only [List.set_cons_zero, List.map_cons, List.sum_cons]
          ac_rfl
      | succ index =>
          have htail := ih (by simpa using h)
          simp only [List.set_cons_succ, List.map_cons, List.sum_cons]
          rw [add_assoc, htail, add_assoc]

namespace Worker

/-- The result that a worker still owes, if any. -/
def owed : Worker → Multiset JobResult
  | .idle => 0
  | .working job => {job.run}
  | .sending result => {result}

@[simp] theorem owed_idle : owed .idle = 0 := rfl

@[simp] theorem owed_working (job : Job) : owed (.working job) = {job.run} := rfl

@[simp] theorem owed_sending (result : JobResult) : owed (.sending result) = {result} := rfl

end Worker

namespace Session

/-- Every result that is still to be read: of the jobs that wait, of those in work,
and the unread ones. -/
def owed (session : Session) : Multiset JobResult :=
  ↑(session.jobs.map Job.run) + (session.workers.map Worker.owed).sum + ↑session.results

/-- What a step of the worker with the given number does to a session. -/
inductive Work (capacity : Nat) (session : Session) (index : Nat) : Session → Prop
  | take {job : Job} {rest : List Job} (hworker : session.workers[index]? = some .idle)
      (hjobs : session.jobs = job :: rest) :
      Work capacity session index
        { session with jobs := rest, workers := session.workers.set index (.working job) }
  | finish {job : Job} (hworker : session.workers[index]? = some (.working job)) :
      Work capacity session index
        { session with workers := session.workers.set index (.sending job.run) }
  | send {result : JobResult} (hworker : session.workers[index]? = some (.sending result))
      (hplace : session.results.length < capacity) :
      Work capacity session index
        { session with
          workers := session.workers.set index .idle
          results := session.results ++ [result] }

variable {capacity index : Nat} {ready : Job → Bool} {session after : Session}

theorem work_of_step (h : session.step capacity ready index = some after) :
    Work capacity session index after := by
  unfold step at h
  cases hworker : session.workers[index]? with
  | none => simp [hworker] at h
  | some worker =>
      cases worker with
      | idle =>
          cases hjobs : session.jobs with
          | nil => simp [hworker, advance, hjobs] at h
          | cons job rest =>
              simp only [hworker, advance, hjobs, Option.map_some, Option.some.injEq] at h
              rw [← h]
              exact .take hworker hjobs
      | working job =>
          by_cases hready : ready job = true
          · simp only [hworker, advance, hready, if_true, Option.map_some, Option.some.injEq] at h
            rw [← h]
            exact .finish hworker
          · simp [hworker, advance, hready] at h
      | sending result =>
          by_cases hplace : session.results.length < capacity
          · simp only [hworker, advance, hplace, if_true, Option.map_some, Option.some.injEq] at h
            rw [← h]
            exact .send hworker hplace
          · simp [hworker, advance, hplace] at h

theorem step_of_work (h : Work capacity session index after) :
    session.step capacity (fun _ => true) index = some after := by
  cases h with
  | take hworker hjobs => simp [step, hworker, advance, hjobs]
  | finish hworker => simp [step, hworker, advance]
  | send hworker hplace => simp [step, hworker, advance, hplace]

theorem Work.index_lt (h : Work capacity session index after) : index < session.workers.length := by
  cases h with
  | take hworker => exact (List.getElem?_eq_some_iff.mp hworker).1
  | finish hworker => exact (List.getElem?_eq_some_iff.mp hworker).1
  | send hworker => exact (List.getElem?_eq_some_iff.mp hworker).1

theorem Work.workers_length (h : Work capacity session index after) :
    after.workers.length = session.workers.length := by
  cases h with
  | take => exact List.length_set
  | finish => exact List.length_set
  | send => exact List.length_set

theorem Work.jobs_length_le (h : Work capacity session index after) :
    after.jobs.length ≤ session.jobs.length := by
  cases h with
  | take hworker hjobs =>
      rw [hjobs]
      exact Nat.le_succ _
  | finish => exact Nat.le_refl _
  | send => exact Nat.le_refl _

theorem Work.results_length_le (h : Work capacity session index after)
    (hresults : session.results.length ≤ capacity) : after.results.length ≤ capacity := by
  cases h with
  | take => exact hresults
  | finish => exact hresults
  | send hworker hplace =>
      rw [List.length_append]
      exact hplace

/-- A worker's step changes where a result is owed, and never which results are. -/
theorem Work.owed_eq (h : Work capacity session index after) : after.owed = session.owed := by
  cases h with
  | @take job rest hworker hjobs =>
      have hsum := sum_map_set Worker.owed (.working job) hworker
      rw [Worker.owed_idle, Worker.owed_working, add_zero] at hsum
      simp only [owed, hjobs, hsum, List.map_cons, ← Multiset.cons_coe, ← Multiset.singleton_add]
      ac_rfl
  | @finish job hworker =>
      have hsum := sum_map_set Worker.owed (.sending job.run) hworker
      rw [Worker.owed_working, Worker.owed_sending] at hsum
      simp only [owed, add_right_cancel hsum]
  | @send result hworker hplace =>
      have hsum := sum_map_set Worker.owed .idle hworker
      rw [Worker.owed_idle, Worker.owed_sending, add_zero] at hsum
      simp only [owed, ← hsum, ← Multiset.coe_add, Multiset.coe_singleton]
      ac_rfl

/-- A worker's step is one of those that were still to be made. -/
theorem Work.weight_succ (h : Work capacity session index after) :
    after.weight + 1 = session.weight := by
  cases h with
  | @take job rest hworker hjobs =>
      have hsum := sum_map_set Worker.weight (.working job) hworker
      simp only [Worker.weight] at hsum
      simp only [weight, hjobs, List.length_cons]
      omega
  | @finish job hworker =>
      have hsum := sum_map_set Worker.weight (.sending job.run) hworker
      simp only [Worker.weight] at hsum
      simp only [weight]
      omega
  | send hworker hplace =>
      have hsum := sum_map_set Worker.weight .idle hworker
      simp only [Worker.weight] at hsum
      simp only [weight]
      omega

end Session

namespace Pool

variable {pool after : Pool} {job : Job}

theorem submit_ok (h : pool.submit job = .ok after) :
    ∃ session, pool.session = some session ∧ session.jobs.length < pool.capacity ∧
      after = { pool with session := some { session with jobs := session.jobs ++ [job] } } := by
  unfold submit at h
  cases hsession : pool.session with
  | none => simp [hsession] at h
  | some session =>
      by_cases hplace : session.jobs.length < pool.capacity
      · simp only [hsession, hplace, if_true, Except.ok.injEq] at h
        exact ⟨session, rfl, hplace, h.symm⟩
      · simp [hsession, hplace] at h

/-- A job that is not accepted comes back with the reason. -/
theorem submit_error {rejected : Rejected} (h : pool.submit job = .error rejected) :
    (pool.session = none ∧ rejected = ⟨job, .poolStopped⟩) ∨
      ∃ session, pool.session = some session ∧ pool.capacity ≤ session.jobs.length ∧
        rejected = ⟨job, .queueFull pool.capacity⟩ := by
  unfold submit at h
  cases hsession : pool.session with
  | none =>
      simp only [hsession, Except.error.injEq] at h
      exact .inl ⟨rfl, h.symm⟩
  | some session =>
      by_cases hplace : session.jobs.length < pool.capacity
      · simp [hsession, hplace] at h
      · simp only [hsession, hplace, if_false, Except.error.injEq] at h
        exact .inr ⟨session, rfl, Nat.le_of_not_lt hplace, h.symm⟩

theorem receive_some {result : JobResult} (h : pool.receive = .ok (some result, after)) :
    ∃ session rest, pool.session = some session ∧ session.results = result :: rest ∧
      after = { pool with session := some { session with results := rest } } := by
  unfold receive at h
  cases hsession : pool.session with
  | none => simp [hsession] at h
  | some session =>
      cases hresults : session.results with
      | nil => simp [hsession, hresults] at h
      | cons first rest =>
          simp only [hsession, hresults, Except.ok.injEq, Prod.mk.injEq, Option.some.injEq] at h
          exact ⟨session, rest, rfl, by rw [hresults, h.1], h.2.symm⟩

theorem receive_none (h : pool.receive = .ok (none, after)) :
    after = pool ∧ ∃ session, pool.session = some session ∧ session.results = [] := by
  unfold receive at h
  cases hsession : pool.session with
  | none => simp [hsession] at h
  | some session =>
      cases hresults : session.results with
      | nil =>
          simp only [hsession, hresults, Except.ok.injEq, Prod.mk.injEq, true_and] at h
          exact ⟨h.symm, session, rfl, hresults⟩
      | cons first rest => simp [hsession, hresults] at h

theorem receive_error {fault : Fault} (h : pool.receive = .error fault) :
    pool.session = none ∧ fault = .poolStopped := by
  unfold receive at h
  cases hsession : pool.session with
  | none =>
      simp only [hsession, Except.error.injEq] at h
      exact ⟨rfl, h.symm⟩
  | some session =>
      cases hresults : session.results with
      | nil => simp [hsession, hresults] at h
      | cons first rest => simp [hsession, hresults] at h

theorem work_of_step {ready : Job → Bool} {index : Nat} (h : pool.step ready index = some after) :
    ∃ session next, pool.session = some session ∧ session.Work pool.capacity index next ∧
      after = { pool with session := some next } := by
  unfold step at h
  cases hsession : pool.session with
  | none => simp [hsession] at h
  | some session =>
      rw [hsession, Option.bind_some, Option.map_eq_some_iff] at h
      obtain ⟨next, hstep, hafter⟩ := h
      exact ⟨session, next, rfl, Session.work_of_step hstep, hafter.symm⟩

/-- The results that a pool still owes; one that is stopped owes nothing. -/
def owed (pool : Pool) : Multiset JobResult := (pool.session.map Session.owed).getD 0

theorem owed_of_session {session : Session} (h : pool.session = some session) :
    pool.owed = session.owed := by
  rw [owed, h, Option.map_some, Option.getD_some]

theorem owed_create_start (size capacity : Nat) : (create size capacity).start.owed = 0 := by
  rw [owed_of_session rfl, Session.owed, Session.fresh]
  simp

theorem owed_submit (h : pool.submit job = .ok after) : after.owed = {job.run} + pool.owed := by
  obtain ⟨session, hsession, _, rfl⟩ := submit_ok h
  rw [owed_of_session rfl, owed_of_session hsession, Session.owed, Session.owed, List.map_append,
    ← Multiset.coe_add, List.map_singleton, Multiset.coe_singleton]
  ac_rfl

theorem owed_receive {result : JobResult} (h : pool.receive = .ok (some result, after)) :
    pool.owed = {result} + after.owed := by
  obtain ⟨session, rest, hsession, hresults, rfl⟩ := receive_some h
  rw [owed_of_session hsession, owed_of_session rfl, Session.owed, Session.owed, hresults,
    ← Multiset.cons_coe, ← Multiset.singleton_add]
  ac_rfl

theorem owed_step {ready : Job → Bool} {index : Nat} (h : pool.step ready index = some after) :
    after.owed = pool.owed := by
  obtain ⟨session, next, hsession, hwork, rfl⟩ := work_of_step h
  rw [owed_of_session rfl, owed_of_session hsession, hwork.owed_eq]

/-- The steps that the workers of a pool have still to make. -/
def weight (pool : Pool) : Nat := (pool.session.map Session.weight).getD 0

theorem weight_of_session {session : Session} (h : pool.session = some session) :
    pool.weight = session.weight := by
  rw [weight, h, Option.map_some, Option.getD_some]

theorem weight_submit (h : pool.submit job = .ok after) : after.weight = pool.weight + 3 := by
  obtain ⟨session, hsession, _, rfl⟩ := submit_ok h
  rw [weight_of_session rfl, weight_of_session hsession]
  simp only [Session.weight, List.length_append, List.length_singleton]
  omega

theorem weight_receive {result : JobResult} (h : pool.receive = .ok (some result, after)) :
    after.weight = pool.weight := by
  obtain ⟨session, rest, hsession, _, rfl⟩ := receive_some h
  rw [weight_of_session rfl, weight_of_session hsession]
  rfl

theorem weight_step {ready : Job → Bool} {index : Nat} (h : pool.step ready index = some after) :
    after.weight + 1 = pool.weight := by
  obtain ⟨session, next, hsession, hwork, rfl⟩ := work_of_step h
  rw [weight_of_session rfl, weight_of_session hsession, hwork.weight_succ]

end Pool
end CodeSurvey
