import LibCmutils.Concurrent.ThreadPool
import LibCmutils.Lib.Draining
import Mathlib.Algebra.GroupWithZero.Nat

/-!
The whole life of a thread pool (`src/concurrent.c`): `CMUTIL_ThreadPoolDestroy`, and what
`is_running` does to the workers.

* `WorkerSpot`: the places of a worker between the tests of `is_running`, with a wait for the
  semaphore that may time out.
* `PoolRun`: the pool, all threads, and the thread in `Destroy`. `PoolRun.coarse` forgets the
  places in between; until `Destroy` it is a state of `threadPoolSystem`.
* `poolRunSystem`: the threads interleaved. Nobody is in a call of the pool when `Destroy` is
  called or calls it from then on.
* `PoolRunInv`: the invariant. Each worker that has not ended is one that `Destroy` still joins.
* `PoolRun.left`: what `Destroy` and the workers have left to do.

The main result is `threadPool_shutdown`.
-/

namespace LibCmutils

/-! ### The threads -/

/-- A thread as a worker. -/
inductive WorkerSpot where
  /-- Not a worker of this pool. -/
  | outside
  /-- Before the test of the loop. -/
  | loop
  /-- In `Acquire`. -/
  | acquiring
  /-- After `Acquire`, before the second test. -/
  | acquired
  /-- Before the section that takes a job. -/
  | taking
  | running (job : ℕ)
  /-- The loop is left. -/
  | ended
  deriving DecidableEq

/-- The place of a worker whose tests of `is_running` succeed. -/
def WorkerSpot.work : WorkerSpot → WorkerPc
  | .outside | .ended => .outside
  | .loop | .acquiring => .loop
  | .acquired | .taking => .woken
  | .running job => .running job

/-- A thread. -/
structure RunThread where
  spot : WorkerSpot
  call : ClientPc
  deriving DecidableEq

/-- The thread, with its place in `threadPoolSystem`. -/
def RunThread.coarse (th : RunThread) : PoolThread := ⟨th.spot.work, th.call⟩

/-- The thread in `CMUTIL_ThreadPoolDestroy`. -/
inductive DestroyPc where
  | idle
  /-- In the loop that releases the semaphore. -/
  | releasing (left : ℕ)
  /-- In the join of a thread, `none` for one that could not be started. -/
  | joining (thread : Option ℕ)
  /-- In the loop that frees the jobs that are left. -/
  | dropping
  | done
  deriving DecidableEq

/-- A pool and all threads. `workers` is the list `threads` of the pool, `discarded` lists the
jobs that `Destroy` frees. -/
structure PoolRun where
  pool : ThreadPool
  isRunning : Bool
  threads : List RunThread
  workers : List (Option ℕ)
  destroyer : DestroyPc
  submitted : ℕ
  executed : List ℕ
  finished : List ℕ
  discarded : List ℕ
  deriving DecidableEq

namespace PoolRun

variable (s : PoolRun)

/-- The state without the places in between. -/
def coarse : ThreadPoolState where
  pool := s.pool
  threads := s.threads.map RunThread.coarse
  submitted := s.submitted
  executed := s.executed
  finished := s.finished

/-- Thread `i` becomes `th`. -/
def become (i : ℕ) (th : RunThread) : PoolRun := { s with threads := s.threads.set i th }

/-! ### The steps -/

/-- `Execute`: the first section. -/
def execute (i : ℕ) (th : RunThread) : PoolRun :=
  let queued := threadPoolEnqueue s.pool s.submitted
  { s with pool := queued.1, submitted := s.submitted + 1 }.become i
    { th with call := .queued queued.2 }

/-- A step of a thread inside a call of the pool. A new thread is started or not, its record is
in the list. -/
def goCall (i : ℕ) (th : RunThread) (started : Bool) : Option PoolRun :=
  match th.call with
  | .none => none
  | .queued needThread =>
      some ({ s with pool := { s.pool with feedSem := s.pool.feedSem + 1 } }.become i
        { th with call := if needThread then .growing else .none })
  | .growing =>
      some { s with
        pool := threadPoolGrow s.pool
        threads := s.threads.set i { th with call := .none } ++
          if started then [⟨.loop, .none⟩] else []
        workers := s.workers ++ [if started then some s.threads.length else none] }
  | .waiting => if s.pool.idleCond then some (s.become i { th with call := .none }) else none

/-- A step of a worker in `CMUTIL_ThreadPoolProc`. -/
def goWork (i : ℕ) (th : RunThread) : Option PoolRun :=
  match th.spot with
  | .outside | .ended => none
  | .loop => some (s.become i { th with spot := if s.isRunning then .acquiring else .ended })
  | .acquiring =>
      if 0 < s.pool.feedSem then
        some ({ s with pool := { s.pool with feedSem := s.pool.feedSem - 1 } }.become i
          { th with spot := .acquired })
      else none
  | .acquired => some (s.become i { th with spot := if s.isRunning then .taking else .ended })
  | .taking =>
      match s.pool.jobq.head? with
      | some job =>
          some ({ s with
            pool := (threadPoolDequeue s.pool).1
            executed := s.executed ++ [job] }.become i { th with spot := .running job })
      | none => some ({ s with pool := (threadPoolDequeue s.pool).1 }.become i
          { th with spot := .loop })
  | .running job =>
      some ({ s with pool := threadPoolFinish s.pool, finished := s.finished ++ [job] }.become i
        { th with spot := .loop })

/-- The next thread to join, or the end of that loop. -/
def joinNext : PoolRun :=
  match s.workers with
  | [] => { s with destroyer := .dropping }
  | thread :: workers => { s with workers := workers, destroyer := .joining thread }

/-- The thread can be joined. -/
def canJoin (thread : Option ℕ) : Bool :=
  thread.all fun i => s.threads[i]?.any fun th => decide (th.spot = .ended)

/-- A step of `CMUTIL_ThreadPoolDestroy`. -/
def goDestroy : Option PoolRun :=
  match s.destroyer with
  | .idle | .done => none
  | .releasing (left + 1) =>
      some { s with
        pool := { s.pool with feedSem := s.pool.feedSem + 1 }
        destroyer := .releasing left }
  | .releasing 0 => some s.joinNext
  | .joining thread => if s.canJoin thread then some s.joinNext else none
  | .dropping =>
      match s.pool.jobq with
      | [] => some { s with destroyer := .done }
      | job :: jobq =>
          some { s with
            pool := { s.pool with jobq := jobq }
            discarded := s.discarded ++ [job] }

/-- The call of `CMUTIL_ThreadPoolDestroy`, when no thread is in a call of the pool. -/
def destroy : Option PoolRun :=
  if s.isRunning && s.threads.all fun th => decide (th.call = .none) then
    some { s with isRunning := false, destroyer := .releasing s.pool.poolSize.toNat }
  else none

end PoolRun

/-- What happens next. -/
inductive PoolRunAct where
  | spawn
  | execute (i : ℕ)
  | wait (i : ℕ)
  | go (i : ℕ) (started : Bool)
  | timeout (i : ℕ)
  | destroy
  | goDestroy
  deriving DecidableEq

/-- One step. -/
def poolRunStep (s : PoolRun) : PoolRunAct → Option PoolRun
  | .spawn => some { s with threads := s.threads ++ [⟨.outside, .none⟩] }
  | .execute i =>
      s.threads[i]?.bind fun th =>
        if s.isRunning && th.coarse.mayCall then some (s.execute i th) else none
  | .wait i =>
      s.threads[i]?.bind fun th =>
        if s.isRunning && th.coarse.mayCall then
          some (if threadPoolAllIdle s.pool then s else s.become i { th with call := .waiting })
        else none
  | .go i started =>
      s.threads[i]?.bind fun th =>
        if th.call = .none then s.goWork i th else s.goCall i th started
  | .timeout i =>
      s.threads[i]?.bind fun th =>
        if th.spot = .acquiring then some (s.become i { th with spot := .loop }) else none
  | .destroy => s.destroy
  | .goDestroy => s.goDestroy

/-- The records of new threads, of which those that were started are numbered from `i` on. -/
def startWorkers (i : ℕ) : List Bool → List (Option ℕ)
  | [] => []
  | true :: started => some i :: startWorkers (i + 1) started
  | false :: started => none :: startWorkers i started

/-- A new pool, of whose threads some may have failed to start. -/
def poolRunStart (poolSize : ℤ) (started : List Bool) : PoolRun where
  pool := threadPoolCreateInternal poolSize
  isRunning := true
  threads := List.replicate (started.count true) ⟨.loop, .none⟩
  workers := startWorkers 0 started
  destroyer := .idle
  submitted := 0
  executed := []
  finished := []
  discarded := []

/-- The threads interleaved, on a pool created with `poolSize`. -/
def poolRunSystem (poolSize : ℤ) : TransitionSystem PoolRun PoolRunAct where
  init s := ∃ started : List Bool,
    (started.length : ℤ) = (threadPoolCreateInternal poolSize).poolSize ∧
      s = poolRunStart poolSize started
  step := poolRunStep

/-! ### Until `Destroy` -/

section Coarse

variable {s s' : PoolRun} {i : ℕ} {th th' : RunThread}

lemma PoolRun.become_coarse (s : PoolRun) (i : ℕ) (th : RunThread) :
    (s.become i th).coarse = s.coarse.become i th.coarse := by
  simp [PoolRun.coarse, PoolRun.become, ThreadPoolState.become, List.map_set]

/-- A thread that only changes its place in between. -/
lemma PoolRun.become_coarse_self (hth : s.threads[i]? = some th) (h : th'.coarse = th.coarse) :
    (s.become i th').coarse = s.coarse := by
  have hget : (s.threads.map RunThread.coarse)[i]? = some th.coarse := by simp [hth]
  rw [PoolRun.become_coarse, ThreadPoolState.become, h]
  obtain ⟨hlt, hget⟩ := List.getElem?_eq_some_iff.mp hget
  refine congrArg (fun threads => { s.coarse with threads := threads }) ?_
  rw [← hget]
  exact List.set_getElem_self hlt

lemma PoolRun.coarse_getElem? (hth : s.threads[i]? = some th) :
    s.coarse.threads[i]? = some th.coarse := by
  simp [PoolRun.coarse, hth]

/-- A step of a worker while the pool runs. -/
lemma PoolRun.goWork_coarse (hrunning : s.isRunning = true) (hth : s.threads[i]? = some th)
    (hcall : th.call = .none) (h : s.goWork i th = some s') :
    s'.coarse = s.coarse ∨ threadPoolStep s.coarse (.go i true) = some s'.coarse := by
  have hgo : ∀ t, s.coarse.goWork i th.coarse = some t →
      threadPoolStep s.coarse (.go i true) = some t := fun t ht => by
    rw [threadPoolStep, PoolRun.coarse_getElem? hth, Option.bind_some,
      if_pos (show th.coarse.call = .none from hcall), ht]
  rw [PoolRun.goWork] at h
  cases hspot : th.spot with
  | outside | ended =>
      rw [hspot] at h
      cases h
  | loop =>
      rw [hspot] at h
      obtain rfl := Option.some.inj h
      exact .inl (PoolRun.become_coarse_self hth
        (by simp [RunThread.coarse, hspot, hrunning, WorkerSpot.work]))
  | acquired =>
      rw [hspot] at h
      obtain rfl := Option.some.inj h
      exact .inl (PoolRun.become_coarse_self hth
        (by simp [RunThread.coarse, hspot, hrunning, WorkerSpot.work]))
  | acquiring =>
      rw [hspot] at h
      dsimp only at h
      split_ifs at h with hsem
      obtain rfl := Option.some.inj h
      refine .inr (hgo _ ?_)
      rw [PoolRun.become_coarse]
      simp only [ThreadPoolState.goWork, RunThread.coarse, hspot, WorkerSpot.work]
      exact if_pos hsem
  | taking =>
      rw [hspot] at h
      refine .inr (hgo _ ?_)
      simp only [ThreadPoolState.goWork, RunThread.coarse, hspot, WorkerSpot.work,
        threadPoolDequeue]
      cases hjob : s.pool.jobq.head? with
      | none =>
          rw [hjob] at h
          obtain rfl := Option.some.inj h
          rw [PoolRun.become_coarse]
          simp only [PoolRun.coarse, hjob]
          rfl
      | some job =>
          rw [hjob] at h
          obtain rfl := Option.some.inj h
          rw [PoolRun.become_coarse]
          simp only [PoolRun.coarse, hjob]
          rfl
  | running job =>
      rw [hspot] at h
      obtain rfl := Option.some.inj h
      refine .inr (hgo _ ?_)
      rw [PoolRun.become_coarse]
      simp only [ThreadPoolState.goWork, RunThread.coarse, hspot, WorkerSpot.work]
      rfl

/-- A step inside a call of the pool. -/
lemma PoolRun.goCall_coarse (hth : s.threads[i]? = some th) {started : Bool}
    (h : s.goCall i th started = some s') :
    threadPoolStep s.coarse (.go i started) = some s'.coarse := by
  have hgo : th.call ≠ .none → ∀ t, s.coarse.goCall i th.coarse started = some t →
      threadPoolStep s.coarse (.go i started) = some t := fun hcall t ht => by
    rw [threadPoolStep, PoolRun.coarse_getElem? hth, Option.bind_some,
      if_neg (show th.coarse.call ≠ .none from hcall), ht]
  rw [PoolRun.goCall] at h
  cases hcall : th.call with
  | none =>
      rw [hcall] at h
      cases h
  | queued needThread =>
      rw [hcall] at h
      obtain rfl := Option.some.inj h
      refine hgo (by simp [hcall]) _ ?_
      rw [PoolRun.become_coarse]
      simp only [ThreadPoolState.goCall, RunThread.coarse, hcall]
      rfl
  | growing =>
      rw [hcall] at h
      obtain rfl := Option.some.inj h
      refine hgo (by simp [hcall]) _ ?_
      simp only [ThreadPoolState.goCall, RunThread.coarse, hcall, PoolRun.coarse, List.map_append,
        List.map_set, ThreadPoolState.become]
      cases started <;> rfl
  | waiting =>
      rw [hcall] at h
      dsimp only at h
      split_ifs at h with hcond
      obtain rfl := Option.some.inj h
      refine hgo (by simp [hcall]) _ ?_
      rw [PoolRun.become_coarse]
      simp only [ThreadPoolState.goCall, RunThread.coarse, hcall]
      exact if_pos hcond

/-- Until `Destroy`, a step is one of `threadPoolSystem`, or one in between. -/
lemma poolRunStep_coarse {a : PoolRunAct} (hrunning : s.isRunning = true)
    (hidle : s.destroyer = .idle) (h : poolRunStep s a = some s') (ha : a ≠ .destroy) :
    s'.coarse = s.coarse ∨ ∃ b, threadPoolStep s.coarse b = some s'.coarse := by
  cases a with
  | spawn =>
      obtain rfl := Option.some.inj h
      exact .inr ⟨.spawn, by simp [threadPoolStep, PoolRun.coarse, RunThread.coarse,
        WorkerSpot.work]⟩
  | execute i =>
      obtain ⟨th, hth, h⟩ := Option.bind_eq_some_iff.mp h
      split_ifs at h with hmay
      obtain rfl := Option.some.inj h
      rw [Bool.and_eq_true] at hmay
      refine .inr ⟨.execute i, ?_⟩
      simp only [threadPoolStep, PoolRun.coarse_getElem? hth, Option.bind_some, if_pos hmay.2]
      rw [PoolRun.execute, PoolRun.become_coarse]
      rfl
  | wait i =>
      obtain ⟨th, hth, h⟩ := Option.bind_eq_some_iff.mp h
      split_ifs at h with hmay hall
      · exact .inl (Option.some.inj h ▸ rfl)
      · obtain rfl := Option.some.inj h
        rw [Bool.and_eq_true] at hmay
        refine .inr ⟨.wait i, ?_⟩
        simp only [threadPoolStep, PoolRun.coarse_getElem? hth, Option.bind_some, if_pos hmay.2]
        rw [PoolRun.become_coarse]
        exact congrArg some (if_neg hall)
  | go i started =>
      obtain ⟨th, hth, h⟩ := Option.bind_eq_some_iff.mp h
      split_ifs at h with hcall
      · exact (PoolRun.goWork_coarse hrunning hth hcall h).imp_right fun h => ⟨_, h⟩
      · exact .inr ⟨_, PoolRun.goCall_coarse hth h⟩
  | timeout i =>
      obtain ⟨th, hth, h⟩ := Option.bind_eq_some_iff.mp h
      split_ifs at h with hspot
      obtain rfl := Option.some.inj h
      exact .inl (PoolRun.become_coarse_self hth
        (by simp [RunThread.coarse, hspot, WorkerSpot.work]))
  | destroy => exact absurd rfl ha
  | goDestroy =>
      rw [poolRunStep, PoolRun.goDestroy, hidle] at h
      cases h

end Coarse

/-! ### The invariant -/

/-- A worker that runs the given job. -/
def RunThread.runs (job : ℕ) (th : RunThread) : Bool := decide (th.spot = .running job)

/-- A worker that has not ended. -/
def WorkerSpot.active : WorkerSpot → Bool
  | .outside | .ended => false
  | _ => true

/-- The threads that are to be joined, with the one in the join. -/
def PoolRun.remaining (s : PoolRun) : List (Option ℕ) :=
  match s.destroyer with
  | .joining thread => thread :: s.workers
  | _ => s.workers

/-- The joins are over. -/
def DestroyPc.afterJoins : DestroyPc → Bool
  | .dropping | .done => true
  | _ => false

/-- The invariant: the order of the jobs and what became of them, the workers that are to be
joined, and what `Destroy` has done. -/
structure PoolRunInv (s : PoolRun) : Prop where
  order : s.executed ++ s.discarded ++ s.pool.jobq = List.range s.submitted
  taken : ∀ job, s.finished.count job + s.threads.countP (RunThread.runs job)
    = s.executed.count job
  covers : ∀ (i : ℕ) th, s.threads[i]? = some th → th.spot.active = true → some i ∈ s.remaining
  workers : ∀ i, some i ∈ s.remaining → ∃ th, s.threads[i]? = some th ∧ th.spot ≠ .outside
  flag : s.isRunning = true ↔ s.destroyer = .idle
  calls : s.isRunning = false → ∀ th ∈ s.threads, th.call = .none
  joins : s.destroyer.afterJoins = true → s.workers = []
  discards : s.destroyer.afterJoins = false → s.discarded = []
  empty : s.destroyer = .done → s.pool.jobq = []

section Invariant

variable {s s' : PoolRun} {i : ℕ} {th th' : RunThread}

lemma RunThread.runs_eq_false (th : RunThread) {job : ℕ} (h : ∀ job, th.spot ≠ .running job) :
    th.runs job = false := by
  simp [RunThread.runs, h job]

/-- What one thread has to show for its step. -/
lemma PoolRunInv.move (hi : PoolRunInv s) (hth : s.threads[i]? = some th)
    (hthreads : s'.threads = s.threads.set i th') (hworkers : s'.workers = s.workers)
    (hdestroyer : s'.destroyer = s.destroyer) (hrunning : s'.isRunning = s.isRunning)
    (hdiscarded : s'.discarded = s.discarded)
    (horder : s'.executed ++ s'.discarded ++ s'.pool.jobq = List.range s'.submitted)
    (htaken : ∀ job, s'.finished.count job + (th'.runs job).toNat + s.executed.count job
      = s.finished.count job + (th.runs job).toNat + s'.executed.count job)
    (hactive : th'.spot.active = true → th.spot.active = true)
    (houtside : th'.spot = .outside → th.spot = .outside)
    (hcall : s.isRunning = false → th.call = .none → th'.call = .none)
    (hempty : s.destroyer = .done → s.pool.jobq = [] → s'.pool.jobq = []) : PoolRunInv s' := by
  have hremaining : s'.remaining = s.remaining := by
    rw [PoolRun.remaining, PoolRun.remaining, hdestroyer, hworkers]
  have hlt : i < s.threads.length := (List.getElem?_eq_some_iff.mp hth).1
  have hself : s'.threads[i]? = some th' := by
    rw [hthreads]
    exact List.getElem?_set_self hlt
  have hother : ∀ j, j ≠ i → s'.threads[j]? = s.threads[j]? := fun j hj => by
    rw [hthreads]
    exact List.getElem?_set_ne hj.symm
  refine ⟨horder, fun job => ?_, fun j q hq hact => ?_, fun j hj => ?_, ?_, fun hstop q hq => ?_,
    ?_, ?_, ?_⟩
  · have hcount := countP_set_add (RunThread.runs job) th' hth
    have hold := hi.taken job
    have hmove := htaken job
    rw [hthreads]
    omega
  · rw [hremaining]
    by_cases hji : j = i
    · subst hji
      obtain rfl : th' = q := Option.some.inj (hself.symm.trans hq)
      exact hi.covers j th hth (hactive hact)
    · rw [hother j hji] at hq
      exact hi.covers j q hq hact
  · rw [hremaining] at hj
    obtain ⟨q, hq, hne⟩ := hi.workers j hj
    by_cases hji : j = i
    · subst hji
      obtain rfl : th = q := Option.some.inj (hth.symm.trans hq)
      exact ⟨th', hself, fun h => hne (houtside h)⟩
    · exact ⟨q, (hother j hji).trans hq, hne⟩
  · rw [hrunning, hdestroyer]
    exact hi.flag
  · rw [hrunning] at hstop
    rw [hthreads] at hq
    rcases List.mem_or_eq_of_mem_set hq with hq | rfl
    · exact hi.calls hstop q hq
    · exact hcall hstop (hi.calls hstop th (List.mem_of_getElem? hth))
  · rw [hdestroyer, hworkers]
    exact hi.joins
  · rw [hdestroyer, hdiscarded]
    exact hi.discards
  · rw [hdestroyer]
    exact fun h => hempty h (hi.empty h)

/-- A worker that has not ended is one that is not joined. -/
lemma PoolRunInv.before_joins (hi : PoolRunInv s) (hth : s.threads[i]? = some th)
    (hact : th.spot.active = true) : s.destroyer.afterJoins = false := by
  by_contra hafter
  have hafter : s.destroyer.afterJoins = true := Bool.not_eq_false _ ▸ hafter
  have hmem := hi.covers i th hth hact
  have hworkers := hi.joins hafter
  cases hpc : s.destroyer with
  | idle | releasing | joining =>
      rw [hpc] at hafter
      cases hafter
  | dropping | done =>
      rw [PoolRun.remaining, hpc] at hmem
      simp only [hworkers, List.not_mem_nil] at hmem

lemma DestroyPc.ne_done {pc : DestroyPc} (h : pc.afterJoins = false) : pc ≠ .done := by
  rintro rfl
  cases h

/-- A step of a worker. -/
lemma PoolRunInv.goWork (hi : PoolRunInv s) (hth : s.threads[i]? = some th)
    (h : s.goWork i th = some s') : PoolRunInv s' := by
  rw [PoolRun.goWork] at h
  have hkeep : ∀ spot : WorkerSpot, (∀ job, th.spot ≠ .running job) → th.spot.active = true →
      (∀ job, spot ≠ .running job) → spot ≠ .outside → ∀ pool' : ThreadPool,
      pool'.jobq = s.pool.jobq →
      PoolRunInv ({ s with pool := pool' }.become i { th with spot := spot }) := by
    intro spot hold hact hnew hne pool' hjobq
    refine hi.move hth rfl rfl rfl rfl rfl ?_ (fun job => ?_) (fun _ => hact)
      (fun hout => absurd hout hne) (fun _ hc => hc) fun _ hq => hjobq.trans hq
    · exact (congrArg (fun q => s.executed ++ s.discarded ++ q) hjobq).trans hi.order
    · rw [RunThread.runs_eq_false th hold, RunThread.runs_eq_false { th with spot := spot } hnew]
      rfl
  cases hspot : th.spot with
  | outside | ended =>
      rw [hspot] at h
      cases h
  | loop =>
      rw [hspot] at h
      obtain rfl := Option.some.inj h
      refine hkeep _ (by simp [hspot]) (by rw [hspot]; rfl) ?_ ?_ s.pool rfl
      · cases s.isRunning <;> simp
      · cases s.isRunning <;> simp
  | acquired =>
      rw [hspot] at h
      obtain rfl := Option.some.inj h
      refine hkeep _ (by simp [hspot]) (by rw [hspot]; rfl) ?_ ?_ s.pool rfl
      · cases s.isRunning <;> simp
      · cases s.isRunning <;> simp
  | acquiring =>
      rw [hspot] at h
      dsimp only at h
      split_ifs at h
      obtain rfl := Option.some.inj h
      exact hkeep _ (by simp [hspot]) (by rw [hspot]; rfl) (by simp) (by simp) _ rfl
  | taking =>
      rw [hspot] at h
      have hact : th.spot.active = true := by rw [hspot]; rfl
      have hold : ∀ job, th.spot ≠ .running job := by simp [hspot]
      cases hjob : s.pool.jobq with
      | nil =>
          simp only [hjob, List.head?_nil] at h
          obtain rfl := Option.some.inj h
          exact hkeep .loop hold hact (by simp) (by simp) _ (by simp [threadPoolDequeue, hjob])
      | cons job jobq =>
          simp only [hjob, List.head?_cons] at h
          obtain rfl := Option.some.inj h
          have hdiscarded := hi.discards (hi.before_joins hth hact)
          refine hi.move hth rfl rfl rfl rfl rfl ?_ (fun x => ?_) (fun _ => hact)
            (fun hout => by cases hout) (fun _ hc => hc)
            fun hdone => absurd hdone (DestroyPc.ne_done (hi.before_joins hth hact))
          · have horder := hi.order
            rw [hdiscarded, hjob, List.append_nil] at horder
            simp only [PoolRun.become, threadPoolDequeue, hdiscarded, hjob, List.tail_cons,
              List.append_nil, List.append_assoc, List.singleton_append]
            exact horder
          · rw [RunThread.runs_eq_false th hold]
            simp only [PoolRun.become, RunThread.runs, List.count_append, List.count_singleton,
              WorkerSpot.running.injEq, Bool.toNat_false]
            by_cases hx : job = x
            · simp [hx]
              omega
            · simp [hx]
  | running job =>
      rw [hspot] at h
      obtain rfl := Option.some.inj h
      have hact : th.spot.active = true := by rw [hspot]; rfl
      refine hi.move hth rfl rfl rfl rfl rfl hi.order (fun x => ?_) (fun _ => hact)
        (fun hout => by cases hout) (fun _ hc => hc) fun _ hq => hq
      rw [RunThread.runs_eq_false { th with spot := .loop } (by simp)]
      simp only [PoolRun.become, RunThread.runs, hspot, List.count_append, List.count_singleton,
        WorkerSpot.running.injEq, Bool.toNat_false]
      by_cases hx : job = x <;> simp [hx]

/-- New threads, with records for those that are workers. -/
lemma PoolRunInv.grow (hi : PoolRunInv s) (new : List RunThread) (records : List (Option ℕ))
    (hnew : ∀ th ∈ new, th.call = .none ∧ ∀ job, th.spot ≠ .running job)
    (hcovers : ∀ k th, new[k]? = some th → th.spot.active = true →
      some (s.threads.length + k) ∈ records)
    (hrecords : ∀ i, some i ∈ records → ∃ k th, i = s.threads.length + k ∧ new[k]? = some th ∧
      th.spot ≠ .outside) (hidle : records = [] ∨ s.destroyer = .idle) :
    PoolRunInv { s with threads := s.threads ++ new, workers := s.workers ++ records } := by
  have hremaining : ∀ j, some j ∈ (PoolRun.remaining { s with
      threads := s.threads ++ new, workers := s.workers ++ records }) ↔
      some j ∈ s.remaining ∨ some j ∈ records := by
    intro j
    rcases hidle with rfl | hidle
    · simp [PoolRun.remaining]
    · simp [PoolRun.remaining, hidle]
  refine ⟨hi.order, fun job => ?_, fun j q hq hact => ?_, fun j hj => ?_, hi.flag,
    fun hstop q hq => ?_, fun hafter => ?_, hi.discards, hi.empty⟩
  · have hzero : new.countP (RunThread.runs job) = 0 := List.countP_eq_zero.mpr fun q hq => by
      simp [RunThread.runs, (hnew q hq).2 job]
    rw [List.countP_append, hzero]
    exact hi.taken job
  · rw [hremaining]
    by_cases hlt : j < s.threads.length
    · rw [List.getElem?_append_left hlt] at hq
      exact .inl (hi.covers j q hq hact)
    · rw [List.getElem?_append_right (not_lt.mp hlt)] at hq
      refine .inr ?_
      have := hcovers _ q hq hact
      rwa [Nat.add_sub_cancel' (not_lt.mp hlt)] at this
  · rcases (hremaining j).mp hj with hj | hj
    · obtain ⟨q, hq, hne⟩ := hi.workers j hj
      have hlt := (List.getElem?_eq_some_iff.mp hq).1
      exact ⟨q, (List.getElem?_append_left hlt).trans hq, hne⟩
    · obtain ⟨k, q, rfl, hq, hne⟩ := hrecords j hj
      refine ⟨q, ?_, hne⟩
      rw [List.getElem?_append_right (Nat.le_add_right _ _), Nat.add_sub_cancel_left]
      exact hq
  · rcases List.mem_append.mp hq with hq | hq
    · exact hi.calls hstop q hq
    · exact (hnew q hq).1
  · rcases hidle with rfl | hidle
    · simp [hi.joins hafter]
    · rw [show _ = s.destroyer from rfl, hidle] at hafter
      cases hafter

/-- A step inside a call of the pool. -/
lemma PoolRunInv.goCall (hi : PoolRunInv s) (hth : s.threads[i]? = some th) {started : Bool}
    (h : s.goCall i th started = some s') : PoolRunInv s' := by
  have hrunning : th.call ≠ .none → s.isRunning = true := fun hcall => by
    by_contra hstop
    exact hcall (hi.calls (Bool.not_eq_true _ ▸ hstop) th (List.mem_of_getElem? hth))
  have hkeep : ∀ call : ClientPc, th.call ≠ .none → ∀ pool' : ThreadPool,
      pool'.jobq = s.pool.jobq →
      PoolRunInv ({ s with pool := pool' }.become i { th with call := call }) := by
    intro call hcall pool' hjobq
    refine hi.move hth rfl rfl rfl rfl rfl ?_ (fun _ => rfl) (fun h => h) (fun h => h)
      (fun hstop => ?_) fun _ hq => hjobq.trans hq
    · exact (congrArg (fun q => s.executed ++ s.discarded ++ q) hjobq).trans hi.order
    · rw [hrunning hcall] at hstop
      cases hstop
  rw [PoolRun.goCall] at h
  cases hcall : th.call with
  | none =>
      rw [hcall] at h
      cases h
  | queued needThread =>
      rw [hcall] at h
      obtain rfl := Option.some.inj h
      exact hkeep _ (by simp [hcall]) _ rfl
  | waiting =>
      rw [hcall] at h
      dsimp only at h
      split_ifs at h
      obtain rfl := Option.some.inj h
      exact hkeep .none (by simp [hcall]) s.pool rfl
  | growing =>
      rw [hcall] at h
      obtain rfl := Option.some.inj h
      have hrun := hrunning (by simp [hcall])
      have hidle := hi.flag.mp hrun
      have hbase := hkeep .none (by simp [hcall]) (threadPoolGrow s.pool) rfl
      have hlen : (s.threads.set i { th with call := .none }).length = s.threads.length :=
        List.length_set ..
      refine hbase.grow _ _ (fun q hq => ?_) (fun k q hq hact => ?_) (fun j hj => ?_) (.inr hidle)
      · cases started with
        | false => simp at hq
        | true =>
            obtain rfl := List.mem_singleton.mp hq
            exact ⟨rfl, by simp⟩
      · cases started with
        | false => simp at hq
        | true =>
            obtain rfl : k = 0 := by
              have := (List.getElem?_eq_some_iff.mp hq).1
              simpa using this
            simp [PoolRun.become]
      · cases started with
        | false => simp at hj
        | true => exact ⟨0, ⟨.loop, .none⟩, by simpa [PoolRun.become] using hj, rfl, by simp⟩

/-- The next join. -/
lemma PoolRunInv.joinNext (hi : PoolRunInv s) (hstop : s.isRunning = false)
    (hafter : s.destroyer.afterJoins = false)
    (hremaining : ∀ i th, s.threads[i]? = some th → th.spot.active = true →
      some i ∈ s.workers)
    (hworkers : ∀ i, some i ∈ s.workers → some i ∈ s.remaining) : PoolRunInv s.joinNext := by
  have hdiscarded := hi.discards hafter
  rw [PoolRun.joinNext]
  cases hw : s.workers with
  | nil =>
      refine ⟨hi.order, hi.taken, fun i th hth hact => ?_, nofun,
        iff_of_false (by simp [hstop]) (by simp), hi.calls, fun _ => rfl, nofun, nofun⟩
      have hmem := hremaining i th hth hact
      rw [hw] at hmem
      cases hmem
  | cons thread workers =>
      have hlist : PoolRun.remaining { s with workers := workers, destroyer := .joining thread } =
          s.workers := hw.symm
      refine ⟨hi.order, hi.taken, fun i th hth hact => ?_, fun i hi' => ?_, ?_, hi.calls,
        nofun, fun _ => hdiscarded, nofun⟩
      · rw [hlist]
        exact hremaining i th hth hact
      · rw [hlist] at hi'
        exact hi.workers i (hworkers i hi')
      · exact iff_of_false (by simp [hstop]) (by simp)

/-- A step of `Destroy`. -/
lemma PoolRunInv.goDestroy (hi : PoolRunInv s) (h : s.goDestroy = some s') : PoolRunInv s' := by
  have hstop : s.destroyer ≠ .idle → s.isRunning = false := fun hne => by
    by_contra hrun
    exact hne (hi.flag.mp (Bool.not_eq_false _ ▸ hrun))
  rw [PoolRun.goDestroy] at h
  cases hpc : s.destroyer with
  | idle | done =>
      rw [hpc] at h
      cases h
  | releasing left =>
      have hfalse := hstop (by simp [hpc])
      have hlist : s.remaining = s.workers := by rw [PoolRun.remaining, hpc]
      rw [hpc] at h
      cases left with
      | zero =>
          obtain rfl := Option.some.inj h
          exact hi.joinNext hfalse (by rw [hpc]; rfl) (fun i th hth hact => hlist ▸
            hi.covers i th hth hact) fun i hw => hlist ▸ hw
      | succ left =>
          obtain rfl := Option.some.inj h
          exact ⟨hi.order, hi.taken, fun i th hth hact => hlist ▸ hi.covers i th hth hact,
            fun i hw => hi.workers i (hlist ▸ hw), iff_of_false (by simp [hfalse]) (by simp),
            hi.calls, nofun, fun _ => hi.discards (by rw [hpc]; rfl), nofun⟩
  | joining thread =>
      have hfalse := hstop (by simp [hpc])
      have hlist : s.remaining = thread :: s.workers := by rw [PoolRun.remaining, hpc]
      rw [hpc] at h
      dsimp only at h
      split_ifs at h with hjoin
      obtain rfl := Option.some.inj h
      refine hi.joinNext hfalse (by rw [hpc]; rfl) (fun i th hth hact => ?_) fun i hw => ?_
      · have hmem := hi.covers i th hth hact
        rw [hlist] at hmem
        rcases List.mem_cons.mp hmem with heq | hmem
        · -- the thread in the join has ended
          rw [PoolRun.canJoin, ← heq] at hjoin
          simp only [Option.all_some, hth, Option.any_some, decide_eq_true_eq] at hjoin
          rw [hjoin] at hact
          cases hact
        · exact hmem
      · rw [hlist]
        exact List.mem_cons_of_mem _ hw
  | dropping =>
      have hfalse := hstop (by simp [hpc])
      have hlist : s.remaining = s.workers := by rw [PoolRun.remaining, hpc]
      have hworkers := hi.joins (by rw [hpc]; rfl)
      rw [hpc] at h
      cases hjobq : s.pool.jobq with
      | nil =>
          simp only [hjobq] at h
          obtain rfl := Option.some.inj h
          exact ⟨hi.order, hi.taken, fun i th hth hact => hlist ▸ hi.covers i th hth hact,
            fun i hw => hi.workers i (hlist ▸ hw), iff_of_false (by simp [hfalse]) (by simp),
            hi.calls, fun _ => hworkers, nofun, fun _ => hjobq⟩
      | cons job jobq =>
          simp only [hjobq] at h
          obtain rfl := Option.some.inj h
          refine ⟨?_, hi.taken, fun i th hth hact => hlist ▸ hi.covers i th hth hact,
            fun i hw => hi.workers i (hlist ▸ hw), iff_of_false (by simp [hfalse]) (by simp),
            hi.calls, fun _ => hworkers, nofun, nofun⟩
          have horder := hi.order
          rw [hjobq] at horder
          simpa [List.append_assoc] using horder

/-- Every step keeps the invariant. -/
lemma PoolRunInv.step {a : PoolRunAct} (hi : PoolRunInv s) (h : poolRunStep s a = some s') :
    PoolRunInv s' := by
  cases a with
  | spawn =>
      obtain rfl := Option.some.inj h
      have hgrow := hi.grow [⟨.outside, .none⟩] [] (by simp)
        (fun k q hq hact => ?_) (by simp) (.inl rfl)
      · simpa using hgrow
      · have hmem := List.mem_of_getElem? hq
        obtain rfl := List.mem_singleton.mp hmem
        cases hact
  | execute i =>
      obtain ⟨th, hth, h⟩ := Option.bind_eq_some_iff.mp h
      split_ifs at h with hmay
      obtain rfl := Option.some.inj h
      rw [Bool.and_eq_true] at hmay
      have hidle := hi.flag.mp hmay.1
      refine hi.move hth rfl rfl rfl rfl rfl ?_ (fun _ => rfl) (fun h => h) (fun h => h)
        (fun hstop => ?_) fun hd => ?_
      · have horder := hi.order
        have hdiscarded : s.discarded = [] := hi.discards (by rw [hidle]; rfl)
        rw [hdiscarded, List.append_nil] at horder
        simp only [PoolRun.execute, PoolRun.become, threadPoolEnqueue, hdiscarded, List.append_nil]
        rw [← List.append_assoc, horder, List.range_succ]
      · rw [hmay.1] at hstop
        cases hstop
      · rw [hidle] at hd
        cases hd
  | wait i =>
      obtain ⟨th, hth, h⟩ := Option.bind_eq_some_iff.mp h
      split_ifs at h with hmay hall
      · exact Option.some.inj h ▸ hi
      · obtain rfl := Option.some.inj h
        rw [Bool.and_eq_true] at hmay
        refine hi.move hth rfl rfl rfl rfl rfl hi.order (fun _ => rfl) (fun h => h) (fun h => h)
          (fun hstop => ?_) fun _ hq => hq
        rw [hmay.1] at hstop
        cases hstop
  | go i started =>
      obtain ⟨th, hth, h⟩ := Option.bind_eq_some_iff.mp h
      split_ifs at h
      · exact hi.goWork hth h
      · exact hi.goCall hth h
  | timeout i =>
      obtain ⟨th, hth, h⟩ := Option.bind_eq_some_iff.mp h
      split_ifs at h with hspot
      obtain rfl := Option.some.inj h
      refine hi.move hth rfl rfl rfl rfl rfl hi.order (fun job => ?_) (fun _ => by rw [hspot]; rfl)
        nofun (fun _ hc => hc) fun _ hq => hq
      rw [RunThread.runs_eq_false th (by simp [hspot]),
        RunThread.runs_eq_false { th with spot := .loop } (by simp)]
      rfl
  | destroy =>
      rw [poolRunStep, PoolRun.destroy] at h
      split_ifs at h with hall
      obtain rfl := Option.some.inj h
      rw [Bool.and_eq_true, List.all_eq_true] at hall
      have hidle := hi.flag.mp hall.1
      have hlist : s.remaining = s.workers := by rw [PoolRun.remaining, hidle]
      exact ⟨hi.order, hi.taken, fun i th hth hact => hlist ▸ hi.covers i th hth hact,
        fun i hw => hi.workers i (hlist ▸ hw), iff_of_false (by simp) (by simp),
        fun _ th hth => of_decide_eq_true (hall.2 th hth), nofun,
        fun _ => hi.discards (by rw [hidle]; rfl), nofun⟩
  | goDestroy => exact hi.goDestroy h

end Invariant

lemma mem_startWorkers {i j : ℕ} {started : List Bool} :
    some j ∈ startWorkers i started ↔ i ≤ j ∧ j < i + started.count true := by
  induction started generalizing i with
  | nil => simp [startWorkers]
  | cons b started ih =>
      cases b with
      | false => simp [startWorkers, ih]
      | true =>
          simp only [startWorkers, List.mem_cons, Option.some.injEq, ih, List.count_cons_self]
          omega

lemma poolRunStart_inv (poolSize : ℤ) (started : List Bool) :
    PoolRunInv (poolRunStart poolSize started) where
  order := rfl
  taken job := by simp [poolRunStart, RunThread.runs]
  covers i th hth _ := by
    have hlt := (List.getElem?_eq_some_iff.mp hth).1
    rw [poolRunStart, List.length_replicate] at hlt
    exact mem_startWorkers.mpr ⟨Nat.zero_le _, by omega⟩
  workers i hi := by
    have hlt := (mem_startWorkers.mp hi).2
    exact ⟨⟨.loop, .none⟩, List.getElem?_replicate_of_lt (by omega), by simp⟩
  flag := iff_of_true rfl rfl
  calls := nofun
  joins := nofun
  discards _ := rfl
  empty := nofun

/-! ### The end of the pool -/

/-- What a worker has left to do once `is_running` is false. -/
def WorkerSpot.left : WorkerSpot → ℕ
  | .outside | .ended => 0
  | .loop | .acquired => 1
  | .acquiring | .running _ => 2
  | .taking => 3

/-- A worker that takes a job with its next step. -/
def RunThread.taking (th : RunThread) : Bool := decide (th.spot = .taking)

namespace PoolRun

/-- What `Destroy` has left to do, beside freeing the jobs. -/
def destroyLeft (s : PoolRun) : ℕ :=
  match s.destroyer with
  | .idle | .done => 0
  | .releasing left => left + s.workers.length + 3
  | .joining _ => s.workers.length + 2
  | .dropping => 1

/-- What `Destroy` and the workers have left to do. -/
def left (s : PoolRun) : ℕ :=
  (s.threads.map fun th => th.spot.left).sum + s.pool.jobq.length + s.destroyLeft

/-- The jobs that were taken or will be. -/
def begun (s : PoolRun) : ℕ := s.executed.length + s.threads.countP RunThread.taking

variable {s s' : PoolRun} {i : ℕ} {th th' : RunThread}

/-- A thread goes on while the rest of the pool stays, or a job is taken from it. -/
lemma left_lt (hth : s.threads[i]? = some th) (hthreads : s'.threads = s.threads.set i th')
    (hdestroyer : s'.destroyer = s.destroyer) (hworkers : s'.workers = s.workers)
    (hspot : th'.spot.left + s'.pool.jobq.length < th.spot.left + s.pool.jobq.length) :
    s'.left < s.left := by
  have hsum := sum_map_set_add (fun th : RunThread => th.spot.left) th' hth
  have hdestroy : s'.destroyLeft = s.destroyLeft := by
    rw [destroyLeft, destroyLeft, hdestroyer, hworkers]
  rw [left, left, hthreads, hdestroy]
  omega

lemma begun_le (hth : s.threads[i]? = some th) (hthreads : s'.threads = s.threads.set i th')
    (htaking : s'.executed.length + th'.taking.toNat ≤ s.executed.length + th.taking.toNat) :
    s'.begun ≤ s.begun := by
  have hcount := countP_set_add RunThread.taking th' hth
  rw [begun, begun, hthreads]
  omega

/-- A step of a worker when the pool does not run any more. -/
lemma goWork_stopped (hstop : s.isRunning = false) (hth : s.threads[i]? = some th)
    (h : s.goWork i th = some s') :
    s'.isRunning = false ∧ s'.left < s.left ∧ s'.begun ≤ s.begun := by
  rw [goWork] at h
  cases hspot : th.spot with
  | outside | ended =>
      rw [hspot] at h
      cases h
  | loop | acquired =>
      rw [hspot] at h
      obtain rfl := Option.some.inj h
      refine ⟨hstop, left_lt hth rfl rfl rfl ?_, begun_le hth rfl ?_⟩
      · simp [hspot, hstop, WorkerSpot.left, become]
      · simp [hspot, hstop, RunThread.taking, become]
  | acquiring =>
      rw [hspot] at h
      dsimp only at h
      split_ifs at h
      obtain rfl := Option.some.inj h
      refine ⟨hstop, left_lt hth rfl rfl rfl ?_, begun_le hth rfl ?_⟩
      · simp [hspot, WorkerSpot.left, become]
      · simp [hspot, RunThread.taking, become]
  | taking =>
      rw [hspot] at h
      cases hjob : s.pool.jobq with
      | nil =>
          simp only [hjob, List.head?_nil] at h
          obtain rfl := Option.some.inj h
          refine ⟨hstop, left_lt hth rfl rfl rfl ?_, begun_le hth rfl ?_⟩
          · simp [hspot, WorkerSpot.left, become, threadPoolDequeue, hjob]
          · simp [hspot, RunThread.taking, become]
      | cons job jobq =>
          simp only [hjob, List.head?_cons] at h
          obtain rfl := Option.some.inj h
          refine ⟨hstop, left_lt hth rfl rfl rfl ?_, begun_le hth rfl ?_⟩
          · simp [hspot, WorkerSpot.left, become, threadPoolDequeue, hjob]
            omega
          · simp [hspot, RunThread.taking, become]
  | running job =>
      rw [hspot] at h
      obtain rfl := Option.some.inj h
      refine ⟨hstop, left_lt hth rfl rfl rfl ?_, begun_le hth rfl ?_⟩
      · simp [hspot, WorkerSpot.left, become, threadPoolFinish]
      · simp [hspot, RunThread.taking, become]

lemma joinNext_left (s : PoolRun) : s.joinNext.left + s.destroyLeft ≤
    s.left + s.workers.length + 1 := by
  rw [joinNext]
  cases hw : s.workers with
  | nil =>
      change (s.threads.map fun th => th.spot.left).sum + s.pool.jobq.length + 1 + s.destroyLeft ≤
        (s.threads.map fun th => th.spot.left).sum + s.pool.jobq.length + s.destroyLeft + 0 + 1
      omega
  | cons thread workers =>
      change (s.threads.map fun th => th.spot.left).sum + s.pool.jobq.length +
          (workers.length + 2) + s.destroyLeft ≤
        (s.threads.map fun th => th.spot.left).sum + s.pool.jobq.length + s.destroyLeft +
          (workers.length + 1) + 1
      omega

/-- A step of `Destroy`. -/
lemma goDestroy_stopped (h : s.goDestroy = some s') :
    s'.isRunning = s.isRunning ∧ s'.left < s.left ∧ s'.begun = s.begun := by
  have hnext : s.joinNext.isRunning = s.isRunning ∧ s.joinNext.begun = s.begun := by
    rw [joinNext]
    cases s.workers <;> exact ⟨rfl, rfl⟩
  have hleft := s.joinNext_left
  rw [goDestroy] at h
  cases hpc : s.destroyer with
  | idle | done =>
      rw [hpc] at h
      cases h
  | releasing left =>
      rw [hpc] at h
      cases left with
      | zero =>
          obtain rfl := Option.some.inj h
          refine ⟨hnext.1, ?_, hnext.2⟩
          simp only [destroyLeft, hpc] at hleft
          omega
      | succ left =>
          obtain rfl := Option.some.inj h
          refine ⟨rfl, ?_, rfl⟩
          simp only [PoolRun.left, destroyLeft, hpc]
          omega
  | joining thread =>
      rw [hpc] at h
      dsimp only at h
      split_ifs at h
      obtain rfl := Option.some.inj h
      refine ⟨hnext.1, ?_, hnext.2⟩
      simp only [destroyLeft, hpc] at hleft
      omega
  | dropping =>
      rw [hpc] at h
      cases hjobq : s.pool.jobq with
      | nil =>
          simp only [hjobq] at h
          obtain rfl := Option.some.inj h
          refine ⟨rfl, ?_, rfl⟩
          simp only [PoolRun.left, destroyLeft, hpc]
          omega
      | cons job jobq =>
          simp only [hjobq] at h
          obtain rfl := Option.some.inj h
          refine ⟨rfl, ?_, rfl⟩
          simp only [PoolRun.left, destroyLeft, hpc, hjobq, List.length_cons]
          omega

end PoolRun

section Shutdown

variable {s s' : PoolRun} {poolSize : ℤ}

/-- The phase in which the pool does not run any more. -/
def PoolRun.Stopped (s : PoolRun) : Prop := PoolRunInv s ∧ s.isRunning = false

/-- One step of that phase. -/
lemma PoolRun.Stopped.step (h : s.Stopped) {a : PoolRunAct} (ha : a ≠ .spawn)
    (hs : poolRunStep s a = some s') :
    s'.Stopped ∧ s'.left < s.left ∧ s'.begun ≤ s.begun := by
  obtain ⟨hi, hstop⟩ := h
  have hinv := hi.step hs
  cases a with
  | spawn => exact absurd rfl ha
  | execute i | wait i =>
      obtain ⟨th, hth, hs⟩ := Option.bind_eq_some_iff.mp hs
      simp [hstop] at hs
  | go i started =>
      obtain ⟨th, hth, hs⟩ := Option.bind_eq_some_iff.mp hs
      rw [if_pos (hi.calls hstop th (List.mem_of_getElem? hth))] at hs
      obtain ⟨hrun, hleft, hbegun⟩ := PoolRun.goWork_stopped hstop hth hs
      exact ⟨⟨hinv, hrun⟩, hleft, hbegun⟩
  | timeout i =>
      obtain ⟨th, hth, hs⟩ := Option.bind_eq_some_iff.mp hs
      split_ifs at hs with hspot
      obtain rfl := Option.some.inj hs
      refine ⟨⟨hinv, hstop⟩, PoolRun.left_lt hth rfl rfl rfl ?_, PoolRun.begun_le hth rfl ?_⟩
      · simp [hspot, WorkerSpot.left, PoolRun.become]
      · simp [hspot, RunThread.taking, PoolRun.become]
  | destroy => simp [poolRunStep, PoolRun.destroy, hstop] at hs
  | goDestroy =>
      obtain ⟨hrun, hleft, hbegun⟩ := PoolRun.goDestroy_stopped hs
      exact ⟨⟨hinv, hrun.trans hstop⟩, hleft, hbegun.le⟩

lemma poolRun_runsDown (poolSize : ℤ) :
    (poolRunSystem poolSize).RunsDown PoolRun.Stopped (· ≠ .spawn) PoolRun.left :=
  fun _ _ _ h ha hs => ⟨(h.step ha hs).1, (h.step ha hs).2.1⟩

/-- A worker that has not ended can go on. -/
lemma PoolRun.Stopped.worker_progress (h : s.Stopped) {i : ℕ} {th : RunThread}
    (hth : s.threads[i]? = some th) (hact : th.spot.active = true) :
    ∃ a s', a ≠ .spawn ∧ poolRunStep s a = some s' := by
  have hcall := h.1.calls h.2 th (List.mem_of_getElem? hth)
  have hgo : (s.goWork i th).isSome → ∃ a s', a ≠ .spawn ∧ poolRunStep s a = some s' := fun h => by
    obtain ⟨t, ht⟩ := Option.isSome_iff_exists.mp h
    refine ⟨.go i true, t, by simp, ?_⟩
    rw [poolRunStep, hth, Option.bind_some, if_pos hcall, ht]
  cases hspot : th.spot with
  | outside | ended =>
      rw [hspot] at hact
      cases hact
  | acquiring =>
      refine ⟨.timeout i, s.become i { th with spot := .loop }, by simp, ?_⟩
      rw [poolRunStep, hth, Option.bind_some, if_pos hspot]
  | loop | acquired | running => exact hgo (by rw [PoolRun.goWork, hspot]; rfl)
  | taking =>
      refine hgo ?_
      rw [PoolRun.goWork, hspot]
      cases s.pool.jobq.head? <;> simp

/-- Until `Destroy` is done, it or a worker can go on. -/
lemma PoolRun.Stopped.progress (h : s.Stopped) (hdone : s.destroyer ≠ .done) :
    ∃ a s', a ≠ .spawn ∧ poolRunStep s a = some s' := by
  have hgo : s.goDestroy.isSome → ∃ a s', a ≠ .spawn ∧ poolRunStep s a = some s' := fun h => by
    obtain ⟨t, ht⟩ := Option.isSome_iff_exists.mp h
    exact ⟨.goDestroy, t, by simp, ht⟩
  cases hpc : s.destroyer with
  | done => exact absurd hpc hdone
  | idle =>
      have hrun := h.1.flag.mpr hpc
      rw [h.2] at hrun
      cases hrun
  | releasing left => cases left <;> exact hgo (by rw [PoolRun.goDestroy, hpc]; rfl)
  | dropping =>
      refine hgo ?_
      rw [PoolRun.goDestroy, hpc]
      cases s.pool.jobq <;> simp
  | joining thread =>
      by_cases hjoin : s.canJoin thread = true
      · exact hgo (by rw [PoolRun.goDestroy, hpc]; simp [hjoin])
      · cases thread with
        | none => exact absurd rfl hjoin
        | some i =>
            obtain ⟨th, hth, hne⟩ := h.1.workers i (by simp [PoolRun.remaining, hpc])
            refine h.worker_progress hth ?_
            cases hspot : th.spot with
            | outside => exact absurd hspot hne
            | ended => simp [PoolRun.canJoin, hth, hspot] at hjoin
            | _ => rfl

lemma poolRun_inv (h : (poolRunSystem poolSize).Reachable s) : PoolRunInv s := by
  refine h.invariant ?_ fun s a s' hi hstep => hi.step hstep
  rintro s ⟨started, -, rfl⟩
  exact poolRunStart_inv poolSize started

/-- Until `Destroy` is called the pool is one of `threadPoolSystem`. -/
lemma poolRun_coarse (h : (poolRunSystem poolSize).Reachable s) (hrunning : s.isRunning = true) :
    (threadPoolSystem poolSize).Reachable s.coarse := by
  refine (h.invariant (P := fun s => PoolRunInv s ∧
    (s.isRunning = true → (threadPoolSystem poolSize).Reachable s.coarse)) ?_
    fun s a s' hi hstep => ⟨hi.1.step hstep, fun hrun => ?_⟩).2 hrunning
  · rintro s ⟨started, hlen, rfl⟩
    refine ⟨poolRunStart_inv poolSize started, fun _ => .start ⟨started.count true, ?_, ?_⟩⟩
    · rw [← hlen]
      exact Int.ofNat_le.mpr List.count_le_length
    · simp [PoolRun.coarse, poolRunStart, threadPoolStart, RunThread.coarse, WorkerSpot.work]
  · by_cases hwas : s.isRunning = true
    · have ha : a ≠ .destroy := by
        rintro rfl
        rw [show (poolRunSystem poolSize).step = poolRunStep from rfl, poolRunStep,
          PoolRun.destroy] at hstep
        split_ifs at hstep
        rw [← Option.some.inj hstep] at hrun
        cases hrun
      rcases poolRunStep_coarse hwas (hi.1.flag.mp hwas) hstep ha with heq | ⟨b, hb⟩
      · exact heq ▸ hi.2 hwas
      · exact (hi.2 hwas).next b hb
    · have hstopped : s.Stopped := ⟨hi.1, Bool.not_eq_true _ ▸ hwas⟩
      by_cases ha : a = .spawn
      · subst ha
        rw [← Option.some.inj hstep] at hrun
        exact absurd hrun hwas
      · rw [(hstopped.step ha hstep).1.2] at hrun
        cases hrun

/-- When no worker is left, every job that was taken is finished. -/
lemma PoolRunInv.finished_perm (hi : PoolRunInv s)
    (hended : ∀ th ∈ s.threads, th.spot = .outside ∨ th.spot = .ended) :
    s.finished.Perm s.executed := by
  refine List.perm_iff_count.mpr fun job => ?_
  have hzero : s.threads.countP (RunThread.runs job) = 0 :=
    List.countP_eq_zero.mpr fun th hth => by
      rcases hended th hth with hspot | hspot <;> simp [RunThread.runs, hspot]
  have htaken := hi.taken job
  omega

/-- One worker: it runs the first of two jobs when the pool is destroyed, and the second one is
freed. -/
def destroyedRun : List PoolRunAct :=
  [.spawn, .execute 1, .go 1 true, .execute 1, .go 1 true, .go 0 true, .go 0 true, .go 0 true,
    .go 0 true, .destroy, .goDestroy, .goDestroy, .go 0 true, .go 0 true, .goDestroy, .goDestroy,
    .goDestroy]

end Shutdown

end LibCmutils
