import LibCmutils.Lib.Transition
import LibCmutils.Lib.Threads

/-!
Thread pools (`src/concurrent.c`): `CMUTIL_ThreadPool`, its workers and the threads
that give it work.

* `ThreadPool`: the record. `threadPoolEnqueue`, `threadPoolGrow`,
  `threadPoolDequeue`, `threadPoolFinish` and `threadPoolAllIdle` are the sections
  that `tmtx` and `qmtx` protect, each one step.
* `PoolThread`: a thread, as a worker of the pool or not, and inside `Execute` or
  `Wait` or not. A worker calls them from the job it runs.
* `threadPoolSystem`: the threads interleaved. Jobs are numbered in the order of
  the sections that queue them. A job runs from its dequeue to the section in which
  its worker reports back. `is_running` is true, the pool is not being destroyed.
* `ThreadPoolInv`: the invariant, one equation for each counter.

The main result is `threadPool_accounting`.
-/

namespace LibCmutils

/-! ### The pool -/

/-- `CMUTIL_ThreadPool_Internal`; a job is its number. -/
structure ThreadPool where
  autoIncrement : Bool
  poolSize : ℤ
  idleCount : ℤ
  jobq : List ℕ
  feedSem : ℕ
  idleCond : Bool
  deriving DecidableEq

/-- `CMUTIL_ThreadPoolCreateInternal`. -/
def threadPoolCreateInternal (poolSize : ℤ) : ThreadPool where
  autoIncrement := decide (poolSize ≤ 0)
  poolSize := if poolSize ≤ 0 then 1 else poolSize
  idleCount := if poolSize ≤ 0 then 1 else poolSize
  jobq := []
  feedSem := 0
  idleCond := false

/-- The first section of `CMUTIL_ThreadPoolExecute`, and whether it asks for a new
thread. -/
def threadPoolEnqueue (pool : ThreadPool) (job : ℕ) : ThreadPool × Bool :=
  let idleCount := pool.idleCount - 1
  ({ pool with idleCond := false, jobq := pool.jobq ++ [job], idleCount := idleCount },
    decide (idleCount ≤ 0) && pool.autoIncrement)

/-- The second section of `CMUTIL_ThreadPoolExecute`: room for a new thread. -/
def threadPoolGrow (pool : ThreadPool) : ThreadPool :=
  { pool with poolSize := pool.poolSize + 1, idleCount := pool.idleCount + 1 }

/-- The section of `CMUTIL_ThreadPoolProc` that takes a job. -/
def threadPoolDequeue (pool : ThreadPool) : ThreadPool × Option ℕ :=
  ({ pool with jobq := pool.jobq.tail }, pool.jobq.head?)

/-- The section of `CMUTIL_ThreadPoolProc` after a job. -/
def threadPoolFinish (pool : ThreadPool) : ThreadPool :=
  let idleCount := pool.idleCount + 1
  { pool with
    idleCount := idleCount
    idleCond := if idleCount = pool.poolSize then true else pool.idleCond }

/-- The section of `CMUTIL_ThreadPoolWait`. -/
def threadPoolAllIdle (pool : ThreadPool) : Bool :=
  decide (pool.poolSize ≤ pool.idleCount) && pool.jobq.isEmpty

/-! ### Threads -/

/-- A thread as a worker. -/
inductive WorkerPc where
  /-- Not a worker of this pool. -/
  | outside
  /-- In the loop, before `Acquire`. -/
  | loop
  /-- After `Acquire`, before it takes a job. -/
  | woken
  | running (job : ℕ)
  deriving DecidableEq

/-- A thread in a call of the pool. -/
inductive ClientPc where
  | none
  /-- In `Execute`, before `Release` of the semaphore. -/
  | queued (needThread : Bool)
  /-- In `Execute`, before the new thread. -/
  | growing
  /-- In `Wait`, before the event lets it pass. -/
  | waiting
  deriving DecidableEq

/-- A thread. -/
structure PoolThread where
  work : WorkerPc
  call : ClientPc
  deriving DecidableEq

/-- A thread may call the pool from outside, or from the job it runs. -/
def PoolThread.mayCall (th : PoolThread) : Bool :=
  match th.work, th.call with
  | .outside, .none | .running _, .none => true
  | _, _ => false

/-- What happens next: a thread comes up outside the pool, or a thread takes a
step. `started` says whether the new thread of `Execute` could be started. -/
inductive ThreadPoolAct where
  | spawn
  | execute (i : ℕ)
  | wait (i : ℕ)
  | go (i : ℕ) (started : Bool)
  deriving DecidableEq

/-- A pool and all threads. `submitted` counts the jobs queued so far, `executed`
lists those that workers took and `finished` those that workers reported back. -/
structure ThreadPoolState where
  pool : ThreadPool
  threads : List PoolThread
  submitted : ℕ
  executed : List ℕ
  finished : List ℕ
  deriving DecidableEq

/-- Thread `i` becomes `th`. -/
def ThreadPoolState.become (s : ThreadPoolState) (i : ℕ) (th : PoolThread) : ThreadPoolState :=
  { s with threads := s.threads.set i th }

/-- `Execute`: the first section. -/
def ThreadPoolState.execute (s : ThreadPoolState) (i : ℕ) (th : PoolThread) : ThreadPoolState :=
  let (pool, needThread) := threadPoolEnqueue s.pool s.submitted
  { s with pool := pool, submitted := s.submitted + 1 }.become i
    { th with call := .queued needThread }

/-- A step of a thread inside a call of the pool. -/
def ThreadPoolState.goCall (s : ThreadPoolState) (i : ℕ) (th : PoolThread) (started : Bool) :
    Option ThreadPoolState :=
  match th.call with
  | .none => none
  | .queued needThread =>
      some ({ s with pool := { s.pool with feedSem := s.pool.feedSem + 1 } }.become i
        { th with call := if needThread then .growing else .none })
  | .growing =>
      let s := { s with pool := threadPoolGrow s.pool }.become i { th with call := .none }
      some { s with
        threads := s.threads ++ if started then [{ work := .loop, call := .none }] else [] }
  | .waiting => if s.pool.idleCond then some (s.become i { th with call := .none }) else none

/-- A step of a worker in its loop. -/
def ThreadPoolState.goWork (s : ThreadPoolState) (i : ℕ) (th : PoolThread) :
    Option ThreadPoolState :=
  match th.work with
  | .outside => none
  | .loop =>
      if 0 < s.pool.feedSem then
        some ({ s with pool := { s.pool with feedSem := s.pool.feedSem - 1 } }.become i
          { th with work := .woken })
      else none
  | .woken =>
      match threadPoolDequeue s.pool with
      | (pool, some job) =>
          some ({ s with pool := pool, executed := s.executed ++ [job] }.become i
            { th with work := .running job })
      | (pool, none) => some ({ s with pool := pool }.become i { th with work := .loop })
  | .running job =>
      some ({ s with pool := threadPoolFinish s.pool, finished := s.finished ++ [job] }.become i
        { th with work := .loop })

/-- One step. -/
def threadPoolStep (s : ThreadPoolState) : ThreadPoolAct → Option ThreadPoolState
  | .spawn => some { s with threads := s.threads ++ [{ work := .outside, call := .none }] }
  | .execute i =>
      s.threads[i]?.bind fun th => if th.mayCall then some (s.execute i th) else none
  | .wait i =>
      s.threads[i]?.bind fun th =>
        if th.mayCall then
          some (if threadPoolAllIdle s.pool then s else s.become i { th with call := .waiting })
        else none
  | .go i started =>
      s.threads[i]?.bind fun th =>
        if th.call = .none then s.goWork i th else s.goCall i th started

/-- A new pool of the given size, of whose threads some may have failed to start. -/
def threadPoolStart (poolSize : ℤ) (started : ℕ) : ThreadPoolState where
  pool := threadPoolCreateInternal poolSize
  threads := List.replicate started { work := .loop, call := .none }
  submitted := 0
  executed := []
  finished := []

/-- The threads interleaved, on a pool created with `poolSize`. -/
def threadPoolSystem (poolSize : ℤ) : TransitionSystem ThreadPoolState ThreadPoolAct where
  init s := ∃ started : ℕ, (started : ℤ) ≤ (threadPoolCreateInternal poolSize).poolSize ∧
    s = threadPoolStart poolSize started
  step := threadPoolStep

/-! ### What the threads are counted as -/

/-- A submitter between the section that queues its job and `Release`. -/
def PoolThread.releasing (th : PoolThread) : Bool :=
  match th.call with
  | .queued _ => true
  | _ => false

/-- A worker between `Acquire` and the section that takes a job. -/
def PoolThread.taking (th : PoolThread) : Bool := decide (th.work = .woken)

/-- A worker that runs a job. -/
def PoolThread.busy (th : PoolThread) : Bool :=
  match th.work with
  | .running _ => true
  | _ => false

/-- A worker that runs the given job. -/
def PoolThread.runs (job : ℕ) (th : PoolThread) : Bool := decide (th.work = .running job)

/-- A job that is queued or runs. -/
def ThreadPoolState.pending (s : ThreadPoolState) : ℕ :=
  s.pool.jobq.length + s.threads.countP PoolThread.busy

/-! ### The invariant -/

/-- The invariant: idle threads, the event, the permits, the order of the jobs, and
what became of the jobs that were taken. -/
structure ThreadPoolInv (s : ThreadPoolState) : Prop where
  idle : s.pool.idleCount + s.pending = s.pool.poolSize
  event : s.pool.idleCond = true → s.pool.idleCount = s.pool.poolSize
  permits : s.pool.feedSem + s.threads.countP PoolThread.releasing
    + s.threads.countP PoolThread.taking = s.pool.jobq.length
  order : s.executed ++ s.pool.jobq = List.range s.submitted
  taken : ∀ job, s.finished.count job + s.threads.countP (PoolThread.runs job)
    = s.executed.count job

/-- A thread that counts for nothing. -/
structure PoolThread.Quiet (th : PoolThread) : Prop where
  releasing : th.releasing = false
  taking : th.taking = false
  busy : th.busy = false

lemma PoolThread.Quiet.runs {th : PoolThread} (h : th.Quiet) (job : ℕ) : th.runs job = false := by
  have hbusy := h.busy
  rw [PoolThread.busy] at hbusy
  rw [PoolThread.runs, decide_eq_false_iff_not]
  intro hwork
  rw [hwork] at hbusy
  cases hbusy

lemma PoolThread.quiet_loop : ({ work := .loop, call := .none } : PoolThread).Quiet :=
  ⟨rfl, rfl, rfl⟩

lemma PoolThread.quiet_outside : ({ work := .outside, call := .none } : PoolThread).Quiet :=
  ⟨rfl, rfl, rfl⟩

/-- New threads change no count. -/
lemma ThreadPoolInv.grow {s : ThreadPoolState} (hi : ThreadPoolInv s) {new : List PoolThread}
    (hnew : ∀ th ∈ new, th.Quiet) : ThreadPoolInv { s with threads := s.threads ++ new } := by
  have hzero : ∀ p : PoolThread → Bool, (∀ th ∈ new, p th = false) → new.countP p = 0 :=
    fun p hp => List.countP_eq_zero.mpr fun th hth => by simp [hp th hth]
  have hbusy := hzero PoolThread.busy fun th hth => (hnew th hth).busy
  have hreleasing := hzero PoolThread.releasing fun th hth => (hnew th hth).releasing
  have htaking := hzero PoolThread.taking fun th hth => (hnew th hth).taking
  have hruns := fun job => hzero (PoolThread.runs job) fun th hth => (hnew th hth).runs job
  refine ⟨?_, hi.event, ?_, hi.order, fun job => ?_⟩
  · simpa only [ThreadPoolState.pending, List.countP_append, hbusy, Nat.add_zero] using hi.idle
  · simpa only [List.countP_append, hreleasing, htaking, Nat.add_zero] using hi.permits
  · simpa only [List.countP_append, hruns job, Nat.add_zero] using hi.taken job

/-- What a thread has to show for its step: what it counts for before and after
balances what the step does to the pool. -/
lemma ThreadPoolInv.move {s s' : ThreadPoolState} (hi : ThreadPoolInv s) {i : ℕ}
    {th th' : PoolThread} (hth : s.threads[i]? = some th) (hthreads : s'.threads = s.threads.set i th')
    (hidle : s'.pool.idleCount + s'.pool.jobq.length + th'.busy.toNat + s.pool.poolSize
      = s.pool.idleCount + s.pool.jobq.length + th.busy.toNat + s'.pool.poolSize)
    (hevent : s'.pool.idleCond = true → s'.pool.idleCount = s'.pool.poolSize)
    (hpermits : s'.pool.feedSem + th'.releasing.toNat + th'.taking.toNat + s.pool.jobq.length
      = s.pool.feedSem + th.releasing.toNat + th.taking.toNat + s'.pool.jobq.length)
    (horder : s'.executed ++ s'.pool.jobq = List.range s'.submitted)
    (htaken : ∀ job, s'.finished.count job + (th'.runs job).toNat + s.executed.count job
      = s.finished.count job + (th.runs job).toNat + s'.executed.count job) :
    ThreadPoolInv s' where
  idle := by
    have hcount := countP_set_add PoolThread.busy th' hth
    have hold := hi.idle
    rw [ThreadPoolState.pending] at hold ⊢
    rw [hthreads]
    omega
  event := hevent
  permits := by
    have hrel := countP_set_add PoolThread.releasing th' hth
    have htake := countP_set_add PoolThread.taking th' hth
    have hold := hi.permits
    rw [hthreads]
    omega
  order := horder
  taken job := by
    have hcount := countP_set_add (PoolThread.runs job) th' hth
    have hold := hi.taken job
    have hmove := htaken job
    rw [hthreads]
    omega

/-! ### One lemma for each step -/

section Steps

variable {s s' : ThreadPoolState} {i : ℕ} {th : PoolThread}

/-- A thread that may call the pool is not in a call. -/
lemma PoolThread.call_of_mayCall (h : th.mayCall = true) : th.call = .none := by
  cases hc : th.call <;> cases hw : th.work <;> simp [PoolThread.mayCall, hc, hw] at h ⊢

/-- A step of a call leaves the worker as it is. -/
lemma ThreadPoolInv.moveCall (hi : ThreadPoolInv s) (hth : s.threads[i]? = some th)
    {call : ClientPc} {pool' : ThreadPool} {submitted' : ℕ}
    (hidle : pool'.idleCount + pool'.jobq.length + s.pool.poolSize
      = s.pool.idleCount + s.pool.jobq.length + pool'.poolSize)
    (hevent : pool'.idleCond = true → pool'.idleCount = pool'.poolSize)
    (hpermits : pool'.feedSem + (PoolThread.releasing { th with call := call }).toNat
        + s.pool.jobq.length
      = s.pool.feedSem + th.releasing.toNat + pool'.jobq.length)
    (horder : s.executed ++ pool'.jobq = List.range submitted') :
    ThreadPoolInv ({ s with pool := pool', submitted := submitted' }.become i
      { th with call := call }) := by
  have hbusy : PoolThread.busy { th with call := call } = th.busy := rfl
  have htaking : PoolThread.taking { th with call := call } = th.taking := rfl
  refine hi.move hth rfl ?_ hevent ?_ horder fun _ => rfl
  · rw [hbusy]
    simp only [ThreadPoolState.become]
    omega
  · rw [htaking]
    simp only [ThreadPoolState.become]
    omega

/-- A step of a worker leaves its call as it is. -/
lemma ThreadPoolInv.moveWork (hi : ThreadPoolInv s) (hth : s.threads[i]? = some th)
    {work : WorkerPc} {pool' : ThreadPool} {executed' finished' : List ℕ}
    (hidle : pool'.idleCount + pool'.jobq.length
        + (PoolThread.busy { th with work := work }).toNat + s.pool.poolSize
      = s.pool.idleCount + s.pool.jobq.length + th.busy.toNat + pool'.poolSize)
    (hevent : pool'.idleCond = true → pool'.idleCount = pool'.poolSize)
    (hpermits : pool'.feedSem + (PoolThread.taking { th with work := work }).toNat
        + s.pool.jobq.length
      = s.pool.feedSem + th.taking.toNat + pool'.jobq.length)
    (horder : executed' ++ pool'.jobq = s.executed ++ s.pool.jobq)
    (htaken : ∀ job, finished'.count job + (PoolThread.runs job { th with work := work }).toNat
        + s.executed.count job
      = s.finished.count job + (th.runs job).toNat + executed'.count job) :
    ThreadPoolInv ({ s with pool := pool', executed := executed', finished := finished' }.become i
      { th with work := work }) := by
  have hrel : PoolThread.releasing { th with work := work } = th.releasing := rfl
  refine hi.move hth rfl hidle hevent ?_ (horder.trans hi.order) htaken
  rw [hrel]
  simp only [ThreadPoolState.become]
  omega

/-- `Execute` queues a job and counts one idle thread less. -/
lemma ThreadPoolInv.execute (hi : ThreadPoolInv s) (hth : s.threads[i]? = some th)
    (hcall : th.call = .none) : ThreadPoolInv (s.execute i th) := by
  have hrel : th.releasing = false := by rw [PoolThread.releasing, hcall]
  refine hi.moveCall hth ?_ ?_ ?_ ?_
  · simp only [List.length_append, List.length_singleton]
    omega
  · intro h
    cases h
  · simp only [List.length_append, List.length_singleton, hrel]
    simp only [PoolThread.releasing, Bool.toNat_false, Bool.toNat_true]
    omega
  · rw [← List.append_assoc, hi.order, List.range_succ]

/-- A step inside `Execute` or `Wait`. -/
lemma ThreadPoolInv.goCall (hi : ThreadPoolInv s) (hth : s.threads[i]? = some th) {started : Bool}
    (h : s.goCall i th started = some s') : ThreadPoolInv s' := by
  rw [ThreadPoolState.goCall] at h
  split at h
  case h_1 => cases h
  case h_2 needThread hcall =>
      obtain rfl := Option.some.inj h
      have hrel : th.releasing = true := by rw [PoolThread.releasing, hcall]
      have hrel' : PoolThread.releasing
          { th with call := if needThread then .growing else .none } = false := by
        cases needThread <;> rfl
      refine hi.moveCall hth rfl hi.event ?_ hi.order
      rw [hrel, hrel']
      rfl
  case h_3 hcall =>
      obtain rfl := Option.some.inj h
      have hrel : th.releasing = false := by rw [PoolThread.releasing, hcall]
      have hnext : ThreadPoolInv
          ({ s with pool := threadPoolGrow s.pool }.become i { th with call := .none }) := by
        refine hi.moveCall hth ?_ (fun hold => ?_) (by rw [hrel]; rfl) hi.order
        · simp only [threadPoolGrow]
          omega
        · simp only [threadPoolGrow]
          rw [hi.event hold]
      refine hnext.grow fun th hmem => ?_
      cases started with
      | false => cases hmem
      | true =>
          obtain rfl := List.mem_singleton.mp hmem
          exact PoolThread.quiet_loop
  case h_4 hcall =>
      split at h
      case isFalse => cases h
      case isTrue =>
          obtain rfl := Option.some.inj h
          have hrel : th.releasing = false := by rw [PoolThread.releasing, hcall]
          exact hi.moveCall hth rfl hi.event (by rw [hrel]; rfl) hi.order

/-- A worker that is between `Acquire` and its section is counted by the queue, so
it finds a job there. -/
lemma ThreadPoolInv.jobq_ne_nil (hi : ThreadPoolInv s) (hth : s.threads[i]? = some th)
    (hwork : th.work = .woken) : s.pool.jobq ≠ [] := by
  intro hnil
  have hpermits := hi.permits
  have hpos : 0 < s.threads.countP PoolThread.taking :=
    List.countP_pos_iff.mpr ⟨th, List.mem_of_getElem? hth, by simp [PoolThread.taking, hwork]⟩
  rw [hnil, List.length_nil] at hpermits
  omega

/-- A step of a worker. -/
lemma ThreadPoolInv.goWork (hi : ThreadPoolInv s) (hth : s.threads[i]? = some th)
    (h : s.goWork i th = some s') : ThreadPoolInv s' := by
  rw [ThreadPoolState.goWork] at h
  split at h
  case h_1 => cases h
  case h_2 hwork =>
      split at h
      case isFalse => cases h
      case isTrue hpos =>
          obtain rfl := Option.some.inj h
          have hbusy : th.busy = false := by rw [PoolThread.busy, hwork]
          have htaking : th.taking = false := by simp [PoolThread.taking, hwork]
          have hruns : ∀ job, th.runs job = false := fun job => by simp [PoolThread.runs, hwork]
          refine hi.moveWork hth (by rw [hbusy]; rfl) hi.event ?_ rfl fun job => by rw [hruns]; rfl
          rw [htaking]
          simp only [PoolThread.taking, decide_true, Bool.toNat_true, Bool.toNat_false]
          omega
  case h_3 hwork =>
      have hbusy : th.busy = false := by rw [PoolThread.busy, hwork]
      have htaking : th.taking = true := by simp [PoolThread.taking, hwork]
      have hruns : ∀ job, th.runs job = false := fun job => by simp [PoolThread.runs, hwork]
      obtain ⟨job, jobq, hjobq⟩ := List.exists_cons_of_ne_nil (hi.jobq_ne_nil hth hwork)
      simp only [threadPoolDequeue, hjobq, List.head?_cons, List.tail_cons, Option.some.injEq] at h
      subst h
      refine hi.moveWork hth ?_ hi.event ?_ ?_ fun x => ?_
      · rw [hbusy, hjobq, List.length_cons]
        simp only [PoolThread.busy, Bool.toNat_true, Bool.toNat_false]
        omega
      · rw [htaking, hjobq, List.length_cons]
        simp only [PoolThread.taking, reduceCtorEq, decide_false, Bool.toNat_true, Bool.toNat_false]
        omega
      · rw [hjobq, List.append_assoc, List.singleton_append]
      · rw [hruns, List.count_append, List.count_singleton]
        simp only [PoolThread.runs, WorkerPc.running.injEq, Bool.toNat_false]
        by_cases hx : job = x
        · simp [hx]
          omega
        · simp [hx]
  case h_4 job hwork =>
      obtain rfl := Option.some.inj h
      have hbusy : th.busy = true := by rw [PoolThread.busy, hwork]
      have htaking : th.taking = false := by simp [PoolThread.taking, hwork]
      refine hi.moveWork hth ?_ ?_ (by rw [htaking]; rfl) rfl fun x => ?_
      · rw [hbusy]
        simp only [threadPoolFinish, PoolThread.busy, Bool.toNat_true, Bool.toNat_false]
        omega
      · simp only [threadPoolFinish]
        split
        · intro _
          assumption
        · intro hold
          have hevent := hi.event hold
          have hidle := hi.idle
          have hpos : 0 < s.threads.countP PoolThread.busy :=
            List.countP_pos_iff.mpr ⟨th, List.mem_of_getElem? hth, hbusy⟩
          rw [ThreadPoolState.pending] at hidle
          omega
      · rw [List.count_append, List.count_singleton]
        simp only [PoolThread.runs, hwork, WorkerPc.running.injEq, reduceCtorEq, decide_false,
          Bool.toNat_false]
        by_cases hx : job = x <;> simp [hx]

end Steps

/-! ### Runs -/

variable {s s' : ThreadPoolState} {poolSize : ℤ}

/-- Every step keeps the invariant. -/
lemma ThreadPoolInv.step (hi : ThreadPoolInv s) {a : ThreadPoolAct}
    (h : threadPoolStep s a = some s') : ThreadPoolInv s' := by
  cases a with
  | spawn =>
      obtain rfl := Option.some.inj h
      refine hi.grow fun th hmem => ?_
      obtain rfl := List.mem_singleton.mp hmem
      exact PoolThread.quiet_outside
  | execute i =>
      obtain ⟨th, hth, hstep⟩ := Option.bind_eq_some_iff.mp h
      split at hstep
      case isFalse => cases hstep
      case isTrue hmay =>
          obtain rfl := Option.some.inj hstep
          exact hi.execute hth (PoolThread.call_of_mayCall hmay)
  | wait i =>
      obtain ⟨th, hth, hstep⟩ := Option.bind_eq_some_iff.mp h
      split at hstep
      case isFalse => cases hstep
      case isTrue hmay =>
          obtain rfl := Option.some.inj hstep
          split
          · exact hi
          · have hrel : th.releasing = false := by
              rw [PoolThread.releasing, PoolThread.call_of_mayCall hmay]
            exact hi.moveCall hth rfl hi.event (by rw [hrel]; rfl) hi.order
  | go i started =>
      obtain ⟨th, hth, hstep⟩ := Option.bind_eq_some_iff.mp h
      split at hstep
      · exact hi.goWork hth hstep
      · exact hi.goCall hth hstep

lemma threadPoolInv_start (poolSize : ℤ) (started : ℕ) :
    ThreadPoolInv (threadPoolStart poolSize started) where
  idle := by simp [threadPoolStart, threadPoolCreateInternal, ThreadPoolState.pending,
    PoolThread.busy]
  event h := by cases h
  permits := by simp [threadPoolStart, threadPoolCreateInternal, PoolThread.releasing,
    PoolThread.taking]
  order := rfl
  taken job := by simp [threadPoolStart, PoolThread.runs]

lemma threadPoolInv_of_reachable (h : (threadPoolSystem poolSize).Reachable s) :
    ThreadPoolInv s := by
  refine h.invariant ?_ fun s a s' hi hstep => hi.step hstep
  rintro s ⟨started, -, rfl⟩
  exact threadPoolInv_start poolSize started

/-- The event is never signalled while a job is queued or runs. -/
lemma ThreadPoolInv.pending_of_event (hi : ThreadPoolInv s) (h : s.pool.idleCond = true) :
    s.pending = 0 := by
  have hidle := hi.idle
  rw [hi.event h] at hidle
  omega

/-- When no job is queued or runs, all jobs submitted so far have finished. -/
lemma ThreadPoolInv.finished_of_pending (hi : ThreadPoolInv s) (h : s.pending = 0) {job : ℕ}
    (hjob : job < s.submitted) : job ∈ s.finished := by
  rw [ThreadPoolState.pending] at h
  have hjobq : s.pool.jobq = [] := List.length_eq_zero_iff.mp (by omega)
  have horder := hi.order
  rw [hjobq, List.append_nil] at horder
  have hruns : s.threads.countP (PoolThread.runs job) = 0 := by
    refine List.countP_eq_zero.mpr fun th hth hrun => ?_
    have hbusy := List.countP_eq_zero.mp (show s.threads.countP PoolThread.busy = 0 by omega) th hth
    simp only [PoolThread.runs, decide_eq_true_eq] at hrun
    rw [PoolThread.busy, hrun] at hbusy
    exact hbusy rfl
  have hmem : 0 < s.executed.count job := by
    rw [horder]
    exact List.count_pos_iff.mpr (List.mem_range.mpr hjob)
  have htaken := hi.taken job
  rw [hruns] at htaken
  exact List.count_pos_iff.mp (by omega)

/-- A call of `Wait` returns with this step: it finds all threads idle, or the
event lets it pass. -/
def ThreadPoolState.waitReturns (s : ThreadPoolState) : ThreadPoolAct → Bool
  | .wait i => (s.threads[i]?.any PoolThread.mayCall) && threadPoolAllIdle s.pool
  | .go i _ => (s.threads[i]?.any fun th => decide (th.call = .waiting)) && s.pool.idleCond
  | _ => false

lemma ThreadPoolInv.pending_of_waitReturns (hi : ThreadPoolInv s) {a : ThreadPoolAct}
    (h : s.waitReturns a = true) : s.pending = 0 := by
  cases a with
  | wait i =>
      simp only [ThreadPoolState.waitReturns, threadPoolAllIdle, Bool.and_eq_true,
        decide_eq_true_eq] at h
      have hidle := hi.idle
      omega
  | go i started =>
      simp only [ThreadPoolState.waitReturns, Bool.and_eq_true] at h
      exact hi.pending_of_event h.2
  | spawn => cases h
  | execute i => cases h

end LibCmutils
