import LibCmutils.Concurrent.Timer

/-!
Who owns a task of a timer.

* `TaskView`: all that the state says about one task. A step other than the snapshot
  of `Purge` changes the view of one task.
* `TaskView.Gone`, `Waits`, `Dispatched`, `Left`, `WorkerFrees`: the phases of a task.
* `TimerInv`: every task is in one of the phases, in all runs.
* `TimerKept`: a task that has left the arrays has an owner, in the runs whose steps
  meet `TimerPurgeFirst`.

The main result is `timer_ownership`.
-/

namespace LibCmutils

/-! ### One task -/

/-- The place of a task in `Purge`. -/
inductive TimerPurgeRel where
  | none
  | pending
  | waiting
  | freeing
  deriving DecidableEq

namespace TimerPurge

/-- The tasks of the snapshot that `Purge` has not come to yet. -/
def rest : TimerPurge → List ℕ
  | .none | .returned => []
  | .next _ rest | .waiting _ _ rest | .freeing _ _ rest => rest

/-- The tasks of the snapshot that `Purge` is not done with. -/
def left : TimerPurge → List ℕ
  | .none | .returned => []
  | .next _ rest => rest
  | .waiting _ t rest | .freeing _ t rest => t :: rest

/-- `Purge` has been called. -/
def called : TimerPurge → Bool
  | .none => false
  | _ => true

/-- The thread that runs `Purge`. -/
def self : TimerPurge → Option TimerThread
  | .none | .returned => Option.none
  | .next self _ | .waiting self _ _ | .freeing self _ _ => some self

/-- The place of task `u`. -/
def rel : TimerPurge → ℕ → TimerPurgeRel
  | .none, _ | .returned, _ => .none
  | .next _ rest, u => if u ∈ rest then .pending else .none
  | .waiting _ t rest, u => if u = t then .waiting else if u ∈ rest then .pending else .none
  | .freeing _ t rest, u => if u = t then .freeing else if u ∈ rest then .pending else .none

end TimerPurge

/-- What the state says about one task. -/
structure TaskView where
  task : Option TimerTask
  scheduled : Bool
  finished : Bool
  alltasks : Bool
  job : TimerJob
  cancel : TimerCancel
  purge : TimerPurgeRel
  /-- `Purge` has been called. -/
  purging : Bool
  /-- The task has been scheduled. -/
  created : Bool
  freed : Bool
  /-- The task may cancel itself. -/
  selfCancels : Bool
  /-- The task was scheduled before `Purge`. -/
  marked : Bool

namespace TimerState

/-- The view of task `t`. -/
def view (selfCancels : ℕ → Bool) (s : TimerState) (t : ℕ) : TaskView where
  task := s.tasks t
  scheduled := decide (t ∈ s.scheduled)
  finished := decide (t ∈ s.finished)
  alltasks := decide (t ∈ s.alltasks)
  job := s.job t
  cancel := s.cancel t
  purge := s.purge.rel t
  purging := s.purge.called
  created := decide (t < s.next)
  freed := decide (t ∈ s.freed)
  selfCancels := selfCancels t
  marked := decide (t < s.mark)

end TimerState

namespace TaskView

variable (v : TaskView) (task : TimerTask)

/-- Someone has cancelled the task or may do so. -/
def Blamed : Prop := v.selfCancels = true ∨ v.cancel ≠ .none ∨ v.purging = true

/-- The task is not allocated: not yet, or no longer. -/
structure Gone : Prop where
  alloc : v.task = none
  scheduled : v.scheduled = false
  finished : v.finished = false
  alltasks : v.alltasks = false
  job : v.job = .none
  cancel : v.cancel = .none ∨ v.cancel = .returned ∧ v.created = true
  purge : v.purge = .none
  freed : v.freed = v.created
  blamed : v.created = true → v.Blamed

/-- The task waits for its time, or is finished. -/
structure Waits : Prop where
  alloc : v.task = some task
  canceled : task.canceled = false
  dispatched : task.dispatched = false
  runner : task.runner = none
  arrays : v.scheduled = !v.finished
  alltasks : v.alltasks = true
  job : v.job = .none
  cancel : v.cancel = .none
  purge : v.purge = .none ∨ v.purge = .pending ∧ task.waiter = true
  created : v.created = true
  freed : v.freed = false

/-- The job of a dispatched task, and the thread that the task names. -/
def JobOk : TimerJob → TimerTask → Prop
  | .none, _ | .freeing _, _ => False
  | .queued, task => task.runner = none
  | .started w, task | .running w, task | .ended w (some _), task =>
      task.runner = some (.worker w)
  | .ended w none, task => task.runner = some (.worker w) ∧ task.canceled = true

/-- The task is handed over to a worker. -/
structure Dispatched : Prop where
  alloc : v.task = some task
  dispatched : task.dispatched = true
  scheduled : v.scheduled = false
  finished : v.finished = false
  alltasks : v.alltasks = true
  job : JobOk v.job task
  cancel : v.cancel = .none ∨
    v.cancel = .waiting ∧ task.canceled = true ∧ task.waiter = true ∧ v.purging = false
  purge : v.purge = .none ∨ v.purge = .pending ∧ task.waiter = true ∨
    v.purge = .waiting ∧ task.canceled = true ∧ task.waiter = true
  created : v.created = true
  freed : v.freed = false
  blamed : task.canceled = true → v.Blamed

/-- The task has left the arrays and the workers, and is still allocated. -/
structure Left : Prop where
  alloc : v.task = some task
  dispatched : task.dispatched = false
  scheduled : v.scheduled = false
  finished : v.finished = false
  alltasks : v.alltasks = false
  job : v.job = .none
  cancel : v.cancel = .none ∨ v.cancel = .waiting ∧ v.purging = false ∨
    v.cancel = .freeing ∧ v.purging = false
  created : v.created = true
  freed : v.freed = false
  blamed : v.Blamed
  why : task.canceled = true ∨ v.cancel = .freeing ∨ v.purge = .freeing

/-- A worker is about to free the task. -/
structure WorkerFrees : Prop where
  alloc : v.task = some task
  canceled : task.canceled = true
  dispatched : task.dispatched = false
  scheduled : v.scheduled = false
  finished : v.finished = false
  alltasks : v.alltasks = false
  job : ∃ w, v.job = .freeing w
  cancel : v.cancel = .none
  purge : v.purge = .none
  created : v.created = true
  freed : v.freed = false
  blamed : v.Blamed

/-- The phase of a task. -/
inductive Phase : Prop where
  | gone (h : v.Gone)
  | waits (task : TimerTask) (h : v.Waits task)
  | dispatched (task : TimerTask) (h : v.Dispatched task)
  | left (task : TimerTask) (h : v.Left task)
  | workerFrees (task : TimerTask) (h : v.WorkerFrees task)

end TaskView

/-! ### The life of a task -/

namespace TaskView

/-- What a step does to one task. `C` says that the step meets the condition under which
`Purge` frees every task. -/
inductive TaskStep (C : Prop) (v : TaskView) : TaskView → Prop where
  | stay : TaskStep C v v
  | create (type : TimerTaskType) (h : v.Gone) (hnew : v.created = false)
      (hmarked : v.marked = false) :
      TaskStep C v
        { v with
          task := some
            { type := type, canceled := false, dispatched := false, waiter := false, runner := none }
          scheduled := true
          alltasks := true
          created := true }
  | take (task : TimerTask) (h : v.Waits task) (hs : v.scheduled = true) :
      TaskStep C v
        { v with task := some { task with dispatched := true }, scheduled := false, job := .queued }
  | start (task : TimerTask) (w : ℕ) (h : v.Dispatched task) (hjob : v.job = .queued) :
      TaskStep C v
        { v with task := some { task with runner := some (.worker w) }, job := .started w }
  | check (task : TimerTask) (w : ℕ) (h : v.Dispatched task) (hjob : v.job = .started w) :
      TaskStep C v { v with job := if task.canceled then .ended w none else .running w }
  | selfCancel (task : TimerTask) (w : ℕ) (h : v.Dispatched task) (hjob : v.job = .running w)
      (hself : v.selfCancels = true) :
      TaskStep C v { v with task := some { task with canceled := true } }
  | procEnd (task : TimerTask) (w : ℕ) (addedto : TimerAddedTo) (h : v.Dispatched task)
      (hjob : v.job = .running w) :
      TaskStep C v { v with job := .ended w (some addedto) }
  | reportAdd (task : TimerTask) (w : ℕ) (addedto : TimerAddedTo) (h : v.Dispatched task)
      (hjob : v.job = .ended w (some addedto)) (hcan : task.canceled = false) :
      TaskStep C v
        { v with
          task := some { task with runner := none, dispatched := false }
          scheduled := decide (addedto = .scheduled)
          finished := decide (addedto = .finished)
          job := .none }
  | reportLeave (task : TimerTask) (h : v.Dispatched task) (hcan : task.canceled = true)
      (hwait : task.waiter = true) (hC : C → v.purge ≠ .pending) :
      TaskStep C v
        { v with
          task := some { task with runner := none, dispatched := false }
          alltasks := false
          job := .none }
  | reportFree (task : TimerTask) (w : ℕ) (h : v.Dispatched task) (hcan : task.canceled = true)
      (hwait : task.waiter = false) :
      TaskStep C v
        { v with
          task := some { task with runner := none, dispatched := false }
          alltasks := false
          job := .freeing w }
  | workerFree (task : TimerTask) (h : v.WorkerFrees task) :
      TaskStep C v { v with task := none, job := .none, freed := true }
  | cancelTake (task : TimerTask) (h : v.Waits task) (hpurging : v.purging = false) :
      TaskStep C v
        { v with scheduled := false, finished := false, alltasks := false, cancel := .freeing }
  | cancelWait (task : TimerTask) (h : v.Dispatched task) (hpurging : v.purging = false) :
      TaskStep C v
        { v with task := some { task with canceled := true, waiter := true }, cancel := .waiting }
  | cancelPoll (task : TimerTask) (h : v.Left task) (hcancel : v.cancel = .waiting) :
      TaskStep C v { v with cancel := .freeing }
  | cancelFree (task : TimerTask) (h : v.Left task) (hcancel : v.cancel = .freeing)
      (hpurge : v.purge = .none) :
      TaskStep C v { v with task := none, cancel := .returned, freed := true }
  | snapshot (hpurge : v.purge = .none) (hpurging : v.purging = false)
      (hcancel : v.cancel = .none ∨ v.cancel = .returned) :
      TaskStep C v
        { v with
          task := if v.alltasks then v.task.map fun task => { task with waiter := true } else v.task
          purge := if v.alltasks then .pending else .none
          purging := true
          marked := v.created }
  | purgeTake (task : TimerTask) (h : v.Waits task) (hpurge : v.purge = .pending) :
      TaskStep C v
        { v with
          scheduled := false
          finished := false
          alltasks := false
          purge := .freeing
          purging := true }
  | purgeWait (task : TimerTask) (h : v.Dispatched task) (hpurging : v.purging = true) :
      TaskStep C v
        { v with
          task := some { task with canceled := true, waiter := true }
          purge := .waiting
          purging := true }
  | purgePass (task : TimerTask) (h : v.Dispatched task) (hpurging : v.purging = true)
      (hC : ¬C) :
      TaskStep C v
        { v with
          task := some { task with canceled := true }
          purge := .none
          purging := true }
  | purgeMiss (task : TimerTask) (h : v.Left task) (hpurge : v.purge = .pending)
      (hpurging : v.purging = true) (hcan : task.canceled = true) :
      TaskStep C v { v with purge := .none, purging := true }
  | purgePoll (task : TimerTask) (h : v.Left task) (hpurging : v.purging = true) :
      TaskStep C v { v with purge := .freeing, purging := true }
  | purgeFree (task : TimerTask) (h : v.Left task) (hpurging : v.purging = true) :
      TaskStep C v { v with task := none, purge := .none, purging := true, freed := true }

variable {C : Prop} {v v' : TaskView}

/-- Other fields of the task do not matter to its job. -/
lemma JobOk.congr {job : TimerJob} {task task' : TimerTask} (h : JobOk job task)
    (hrun : task'.runner = task.runner) (hcan : task.canceled = true → task'.canceled = true) :
    JobOk job task' := by
  cases job with
  | none | freeing => exact h
  | queued | started | running => exact hrun.trans h
  | ended w addedto =>
      cases addedto with
      | none => exact ⟨hrun.trans h.1, hcan h.2⟩
      | some => exact hrun.trans h

lemma Dispatched.cancel_of_purging {task : TimerTask} (h : v.Dispatched task)
    (hpurging : v.purging = true) : v.cancel = .none := by
  rcases h.cancel with hc | ⟨-, -, -, hp⟩
  · exact hc
  · exact absurd (hpurging.symm.trans hp) (by decide)

lemma Left.cancel_of_purging {task : TimerTask} (h : v.Left task)
    (hpurging : v.purging = true) : v.cancel = .none := by
  rcases h.cancel with hc | ⟨-, hp⟩ | ⟨-, hp⟩
  · exact hc
  · exact absurd (hpurging.symm.trans hp) (by decide)
  · exact absurd (hpurging.symm.trans hp) (by decide)

lemma Blamed.of_cancel (h : v.cancel ≠ .none) : v.Blamed := .inr (.inl h)

lemma Blamed.of_purging (h : v.purging = true) : v.Blamed := .inr (.inr h)

/-- The snapshot of `Purge` marks the tasks of `alltasks`. -/
lemma Phase.snapshot (hv : v.Phase) (hpurge : v.purge = .none)
    (hcancel : v.cancel = .none ∨ v.cancel = .returned) :
    Phase { v with
      task := if v.alltasks then v.task.map fun task => { task with waiter := true } else v.task
      purge := if v.alltasks then .pending else .none
      purging := true
      marked := v.created } := by
  cases hv with
  | gone h =>
      rw [h.alltasks]
      exact .gone ⟨h.alloc, h.scheduled, h.finished, rfl, h.job, h.cancel, rfl, h.freed,
        fun _ => .of_purging rfl⟩
  | waits task h =>
      rw [h.alltasks, h.alloc]
      exact .waits _ ⟨rfl, h.canceled, h.dispatched, h.runner, h.arrays, rfl, h.job, h.cancel,
        .inr ⟨rfl, rfl⟩, h.created, h.freed⟩
  | dispatched task h =>
      have hnone : v.cancel = .none := by
        rcases h.cancel with hc | ⟨hc, -⟩
        · exact hc
        · simp [hc] at hcancel
      rw [h.alltasks, h.alloc]
      refine .dispatched _ ⟨rfl, h.dispatched, h.scheduled, h.finished, rfl,
        h.job.congr rfl id, .inl hnone, .inr (.inl ⟨rfl, rfl⟩), h.created, h.freed,
        fun _ => .of_purging rfl⟩
  | left task h =>
      have hnone : v.cancel = .none := by
        rcases h.cancel with hc | ⟨hc, -⟩ | ⟨hc, -⟩
        · exact hc
        · simp [hc] at hcancel
        · simp [hc] at hcancel
      have hcan : task.canceled = true := by
        rcases h.why with hw | hw | hw
        · exact hw
        · simp [hw] at hnone
        · simp [hw] at hpurge
      rw [h.alltasks]
      exact .left task ⟨h.alloc, h.dispatched, h.scheduled, h.finished, rfl, h.job, .inl hnone,
        h.created, h.freed, .of_purging rfl, .inl hcan⟩
  | workerFrees task h =>
      rw [h.alltasks]
      exact .workerFrees task ⟨h.alloc, h.canceled, h.dispatched, h.scheduled, h.finished, rfl,
        h.job, h.cancel, rfl, h.created, h.freed, .of_purging rfl⟩

lemma Phase.gone_of_new (h : v.Phase) (hnew : v.created = false) : v.Gone := by
  cases h with
  | gone h => exact h
  | waits _ h | dispatched _ h | left _ h | workerFrees _ h =>
      exact absurd (hnew.symm.trans h.created) (by decide)

lemma Gone.cancel_of_new (h : v.Gone) (hnew : v.created = false) : v.cancel = .none := by
  rcases h.cancel with hc | ⟨-, hc⟩
  · exact hc
  · exact absurd (hnew.symm.trans hc) (by decide)

lemma Phase.waits_of_scheduled (h : v.Phase) (hs : v.scheduled = true) :
    ∃ task, v.Waits task := by
  cases h with
  | waits task h => exact ⟨task, h⟩
  | gone h => exact absurd (h.scheduled.symm.trans hs) (by decide)
  | dispatched _ h | left _ h | workerFrees _ h =>
      exact absurd (h.scheduled.symm.trans hs) (by decide)

lemma Phase.dispatched_of_job (h : v.Phase) (hjob : v.job ≠ .none)
    (hfree : ∀ w, v.job ≠ .freeing w) : ∃ task, v.Dispatched task := by
  cases h with
  | dispatched task h => exact ⟨task, h⟩
  | gone h => exact absurd h.job hjob
  | waits _ h | left _ h => exact absurd h.job hjob
  | workerFrees _ h =>
      obtain ⟨w, hw⟩ := h.job
      exact absurd hw (hfree w)

lemma Phase.workerFrees_of_job (h : v.Phase) {w : ℕ} (hjob : v.job = .freeing w) :
    ∃ task, v.WorkerFrees task := by
  cases h with
  | workerFrees task h => exact ⟨task, h⟩
  | gone h => exact TimerJob.noConfusion (h.job.symm.trans hjob)
  | waits _ h | left _ h => exact TimerJob.noConfusion (h.job.symm.trans hjob)
  | dispatched _ h =>
      have := h.job
      rw [hjob] at this
      exact this.elim

lemma Phase.of_cancel_waiting (h : v.Phase) (hc : v.cancel = .waiting) :
    (∃ task, v.Dispatched task) ∨ ∃ task, v.Left task := by
  cases h with
  | dispatched task h => exact .inl ⟨task, h⟩
  | left task h => exact .inr ⟨task, h⟩
  | gone h => simpa [hc] using h.cancel
  | waits _ h | workerFrees _ h => exact TimerCancel.noConfusion (h.cancel.symm.trans hc)

lemma Phase.left_of_cancel_freeing (h : v.Phase) (hc : v.cancel = .freeing) :
    ∃ task, v.Left task := by
  cases h with
  | left task h => exact ⟨task, h⟩
  | gone h => simpa [hc] using h.cancel
  | dispatched _ h => simpa [hc] using h.cancel
  | waits _ h | workerFrees _ h => exact TimerCancel.noConfusion (h.cancel.symm.trans hc)

lemma Phase.of_purge_waiting (h : v.Phase) (hp : v.purge = .waiting) :
    (∃ task, v.Dispatched task) ∨ ∃ task, v.Left task := by
  cases h with
  | dispatched task h => exact .inl ⟨task, h⟩
  | left task h => exact .inr ⟨task, h⟩
  | waits _ h => simpa [hp] using h.purge
  | gone h => exact TimerPurgeRel.noConfusion (h.purge.symm.trans hp)
  | workerFrees _ h => exact TimerPurgeRel.noConfusion (h.purge.symm.trans hp)

lemma Phase.left_of_purge_freeing (h : v.Phase) (hp : v.purge = .freeing) :
    ∃ task, v.Left task := by
  cases h with
  | left task h => exact ⟨task, h⟩
  | waits _ h => simpa [hp] using h.purge
  | dispatched _ h => simpa [hp] using h.purge
  | gone h => exact TimerPurgeRel.noConfusion (h.purge.symm.trans hp)
  | workerFrees _ h => exact TimerPurgeRel.noConfusion (h.purge.symm.trans hp)

/-- A task that nobody may have cancelled is in an array or handed over. -/
lemma Phase.of_not_blamed (h : v.Phase) (hcreated : v.created = true) (hb : ¬v.Blamed) :
    (∃ task, v.Waits task) ∨ ∃ task, v.Dispatched task := by
  cases h with
  | waits task h => exact .inl ⟨task, h⟩
  | dispatched task h => exact .inr ⟨task, h⟩
  | gone h => exact absurd (h.blamed hcreated) hb
  | left _ h | workerFrees _ h => exact absurd h.blamed hb

/-- A task keeps being in one of its phases. -/
theorem TaskStep.phase (h : TaskStep C v v') (hv : v.Phase) : v'.Phase := by
  cases h with
  | stay => exact hv
  | create type h hnew hm =>
      refine .waits _ ⟨rfl, rfl, rfl, rfl, ?_, rfl, h.job, h.cancel_of_new hnew, .inl h.purge, rfl,
        ?_⟩
      · exact (congrArg not h.finished).symm
      · exact h.freed.trans hnew
  | take task h hs =>
      refine .dispatched _ ⟨rfl, rfl, rfl, ?_, h.alltasks, h.runner, .inl h.cancel, ?_, h.created,
        h.freed, ?_⟩
      · have := h.arrays
        simpa [hs] using this
      · exact h.purge.imp_right .inl
      · exact fun hcan => absurd (h.canceled.symm.trans hcan) (by decide)
  | start task w h hjob =>
      exact .dispatched _ ⟨rfl, h.dispatched, h.scheduled, h.finished, h.alltasks, rfl, h.cancel,
        h.purge, h.created, h.freed, h.blamed⟩
  | check task w h hjob =>
      have hrun : task.runner = some (.worker w) := by
        have := h.job
        rwa [hjob] at this
      refine .dispatched task ⟨h.alloc, h.dispatched, h.scheduled, h.finished, h.alltasks, ?_,
        h.cancel, h.purge, h.created, h.freed, h.blamed⟩
      show JobOk (if task.canceled then .ended w none else .running w) task
      cases hcan : task.canceled with
      | false => exact hrun
      | true => exact ⟨hrun, hcan⟩
  | selfCancel task w h hjob hself =>
      refine .dispatched _ ⟨rfl, h.dispatched, h.scheduled, h.finished, h.alltasks,
        h.job.congr rfl fun _ => rfl, ?_, ?_, h.created, h.freed, fun _ => .inl hself⟩
      · exact h.cancel.imp_right fun hc => ⟨hc.1, rfl, hc.2.2⟩
      · exact h.purge.imp_right fun hp => hp.imp_right fun hp => ⟨hp.1, rfl, hp.2.2⟩
  | procEnd task w addedto h hjob =>
      have hrun : task.runner = some (.worker w) := by
        have := h.job
        rwa [hjob] at this
      exact .dispatched task ⟨h.alloc, h.dispatched, h.scheduled, h.finished, h.alltasks, hrun,
        h.cancel, h.purge, h.created, h.freed, h.blamed⟩
  | reportAdd task w addedto h hjob hcan =>
      refine .waits _ ⟨rfl, hcan, rfl, rfl, ?_, h.alltasks, rfl, ?_, ?_, h.created, h.freed⟩
      · cases addedto <;> rfl
      · rcases h.cancel with hc | ⟨-, hc, -⟩
        · exact hc
        · exact absurd (hcan.symm.trans hc) (by decide)
      · rcases h.purge with hp | hp | ⟨-, hp, -⟩
        · exact .inl hp
        · exact .inr hp
        · exact absurd (hcan.symm.trans hp) (by decide)
  | reportLeave task h hcan hwait hC =>
      refine .left _ ⟨rfl, rfl, h.scheduled, h.finished, rfl, rfl, ?_, h.created, h.freed,
        h.blamed hcan, .inl hcan⟩
      exact h.cancel.imp_right fun hc => .inl ⟨hc.1, hc.2.2.2⟩
  | reportFree task w h hcan hwait =>
      have hnot : task.waiter ≠ true := by
        rw [hwait]
        decide
      refine .workerFrees _ ⟨rfl, hcan, rfl, h.scheduled, h.finished, rfl, ⟨w, rfl⟩, ?_, ?_,
        h.created, h.freed, h.blamed hcan⟩
      · rcases h.cancel with hc | ⟨-, -, hc, -⟩
        · exact hc
        · exact absurd hc hnot
      · rcases h.purge with hp | ⟨-, hp⟩ | ⟨-, -, hp⟩
        · exact hp
        · exact absurd hp hnot
        · exact absurd hp hnot
  | workerFree task h =>
      exact .gone ⟨rfl, h.scheduled, h.finished, h.alltasks, rfl, .inl h.cancel, h.purge,
        h.created.symm, fun _ => h.blamed⟩
  | cancelTake task h hpurging =>
      exact .left task ⟨h.alloc, h.dispatched, rfl, rfl, rfl, h.job, .inr (.inr ⟨rfl, hpurging⟩),
        h.created, h.freed, .of_cancel TimerCancel.noConfusion, .inr (.inl rfl)⟩
  | cancelWait task h hpurging =>
      refine .dispatched _ ⟨rfl, h.dispatched, h.scheduled, h.finished, h.alltasks, ?_,
        .inr ⟨rfl, rfl, rfl, hpurging⟩, ?_, h.created, h.freed,
        fun _ => .of_cancel TimerCancel.noConfusion⟩
      · exact h.job.congr rfl fun _ => rfl
      · exact h.purge.imp_right fun hp => hp.imp (fun hp => ⟨hp.1, rfl⟩) fun hp => ⟨hp.1, rfl, rfl⟩
  | cancelPoll task h hcancel =>
      have hpurging : v.purging = false := by
        rcases h.cancel with hc | ⟨-, hp⟩ | ⟨-, hp⟩
        · exact TimerCancel.noConfusion (hcancel.symm.trans hc)
        · exact hp
        · exact hp
      exact .left task ⟨h.alloc, h.dispatched, h.scheduled, h.finished, h.alltasks, h.job,
        .inr (.inr ⟨rfl, hpurging⟩), h.created, h.freed, .of_cancel TimerCancel.noConfusion,
        .inr (.inl rfl)⟩
  | cancelFree task h hcancel hpurge =>
      exact .gone ⟨rfl, h.scheduled, h.finished, h.alltasks, h.job, .inr ⟨rfl, h.created⟩, hpurge,
        h.created.symm, fun _ => .of_cancel TimerCancel.noConfusion⟩
  | snapshot hpurge hpurging hcancel => exact hv.snapshot hpurge hcancel
  | purgeTake task h hpurge =>
      exact .left task ⟨h.alloc, h.dispatched, rfl, rfl, rfl, h.job, .inl h.cancel, h.created,
        h.freed, .of_purging rfl, .inr (.inr rfl)⟩
  | purgeWait task h hpurging =>
      exact .dispatched _ ⟨rfl, h.dispatched, h.scheduled, h.finished, h.alltasks,
        h.job.congr rfl fun _ => rfl, .inl (h.cancel_of_purging hpurging),
        .inr (.inr ⟨rfl, rfl, rfl⟩), h.created, h.freed, fun _ => .of_purging rfl⟩
  | purgePass task h hpurging hC =>
      exact .dispatched _ ⟨rfl, h.dispatched, h.scheduled, h.finished, h.alltasks,
        h.job.congr rfl fun _ => rfl, .inl (h.cancel_of_purging hpurging), .inl rfl, h.created,
        h.freed, fun _ => .of_purging rfl⟩
  | purgeMiss task h hpurge hpurging hcan =>
      exact .left task ⟨h.alloc, h.dispatched, h.scheduled, h.finished, h.alltasks, h.job,
        .inl (h.cancel_of_purging hpurging), h.created, h.freed, .of_purging rfl, .inl hcan⟩
  | purgePoll task h hpurging =>
      exact .left task ⟨h.alloc, h.dispatched, h.scheduled, h.finished, h.alltasks, h.job,
        .inl (h.cancel_of_purging hpurging), h.created, h.freed, .of_purging rfl,
        .inr (.inr rfl)⟩
  | purgeFree task h hpurging =>
      exact .gone ⟨rfl, h.scheduled, h.finished, h.alltasks, h.job,
        .inl (h.cancel_of_purging hpurging), rfl, h.created.symm, fun _ => .of_purging rfl⟩

/-! ### An owner for every task -/

/-- `Cancel` or `Purge` waits for the task, or is about to free it. -/
def Awaited (v : TaskView) : Prop :=
  v.cancel = .waiting ∨ v.cancel = .freeing ∨ v.purge = .waiting ∨ v.purge = .freeing

/-- A cancelled task that its worker has left is awaited by someone, and so is a task that
is marked as waited for, unless `Purge` is yet to come to it. `Purge` has in hand what was
scheduled before it. -/
structure Kept (v : TaskView) : Prop where
  canceled : ∀ task, v.task = some task → task.canceled = true → task.dispatched = false →
    (∀ w, v.job ≠ .freeing w) → v.Awaited
  waiter : ∀ task, v.task = some task → task.waiter = true → v.Awaited ∨ v.purge = .pending
  marked : v.marked = true → v.task = none ∨ v.purge ≠ .none ∨ ∃ w, v.job = .freeing w

lemma Kept.of_gone (h : v.task = none) : v.Kept where
  canceled task htask := by
    rw [h] at htask
    cases htask
  waiter task htask := by
    rw [h] at htask
    cases htask
  marked _ := .inl h

lemma Kept.of_awaited (h : v.Awaited) (hmarked : v.marked = true → v.purge ≠ .none) : v.Kept where
  canceled _ _ _ _ _ := h
  waiter _ _ _ := .inl h
  marked hm := .inr (.inl (hmarked hm))

/-- A task that nobody takes out of the arrays or the workers. -/
lemma Kept.of_held (hk : v.Kept) {task task' : TimerTask} (halloc : v.task = some task)
    (hjob : ∀ w, v.job ≠ .freeing w) (halloc' : v'.task = some task')
    (hheld : task'.canceled = true → task'.dispatched = true) (hwaiter : task'.waiter = task.waiter)
    (hcancel : v'.cancel = v.cancel) (hpurge : v'.purge = v.purge) (hmarked : v'.marked = v.marked) :
    v'.Kept where
  canceled x hx hcan hd := by
    obtain rfl : task' = x := Option.some.inj (halloc'.symm.trans hx)
    exact absurd ((hheld hcan).symm.trans hd) (by decide)
  waiter x hx hw := by
    obtain rfl : task' = x := Option.some.inj (halloc'.symm.trans hx)
    rw [Awaited, hcancel, hpurge]
    exact hk.waiter task halloc (hwaiter ▸ hw)
  marked hm := by
    rw [hpurge]
    rcases hk.marked (hmarked ▸ hm) with h | h | ⟨w, h⟩
    · rw [halloc] at h
      cases h
    · exact .inr (.inl h)
    · exact absurd h (hjob w)

lemma Dispatched.not_freeing {task : TimerTask} (h : v.Dispatched task) (w : ℕ) :
    v.job ≠ .freeing w := by
  intro hjob
  have := h.job
  rw [hjob] at this
  exact this

lemma Kept.pending_of_marked (hk : v.Kept) {task : TimerTask} (halloc : v.task = some task)
    (hjob : ∀ w, v.job ≠ .freeing w) (hm : v.marked = true) : v.purge ≠ .none := by
  rcases hk.marked hm with h | h | ⟨w, h⟩
  · rw [halloc] at h
    cases h
  · exact h
  · exact absurd h (hjob w)

/-- The snapshot of `Purge` takes over every task that is not about to be freed. -/
lemma Kept.snapshot (hk : v.Kept) (hv : v.Phase) (hpurge : v.purge = .none)
    (hcancel : v.cancel = .none ∨ v.cancel = .returned) :
    Kept { v with
      task := if v.alltasks then v.task.map fun task => { task with waiter := true } else v.task
      purge := if v.alltasks then .pending else .none
      purging := true
      marked := v.created } := by
  have hnot : ¬v.Awaited := by
    rintro (h | h | h | h)
    · simp [h] at hcancel
    · simp [h] at hcancel
    · simp [h] at hpurge
    · simp [h] at hpurge
  cases hv with
  | gone h =>
      rw [h.alltasks]
      exact .of_gone h.alloc
  | waits task h =>
      rw [h.alltasks, h.alloc]
      refine ⟨fun x hx hcan => ?_, fun _ _ _ => .inr rfl, fun _ => .inr (.inl (by simp))⟩
      obtain rfl := Option.some.inj hx
      exact absurd (h.canceled.symm.trans hcan) (by decide)
  | dispatched task h =>
      rw [h.alltasks, h.alloc]
      refine ⟨fun x hx _ hd => ?_, fun _ _ _ => .inr rfl, fun _ => .inr (.inl (by simp))⟩
      obtain rfl := Option.some.inj hx
      exact absurd (h.dispatched.symm.trans hd) (by decide)
  | left task h =>
      have hcan : task.canceled = true := by
        rcases h.why with hw | hw | hw
        · exact hw
        · exact absurd (.inr (.inl hw)) hnot
        · exact absurd (.inr (.inr (.inr hw))) hnot
      refine absurd (hk.canceled task h.alloc hcan h.dispatched fun w => ?_) hnot
      rw [h.job]
      exact TimerJob.noConfusion
  | workerFrees task h =>
      obtain ⟨w, hw⟩ := h.job
      rw [h.alltasks]
      refine ⟨fun _ _ _ _ hjob => absurd hw (hjob w), fun x hx hwait => ?_,
        fun _ => .inr (.inr ⟨w, hw⟩)⟩
      rcases hk.waiter x hx hwait with h' | h'
      · exact absurd h' hnot
      · simp [hpurge] at h'

/-- The owner of a task changes only to another owner. -/
theorem TaskStep.kept (h : TaskStep C v v') (hC : C) (hv : v.Phase) (hk : v.Kept)
    (hmarked : v.marked = true → v.purging = true) : v'.Kept := by
  cases h with
  | stay => exact hk
  | create type h hnew hm =>
      refine ⟨fun x hx hcan => ?_, fun x hx hw => ?_, fun hm' => ?_⟩
      · obtain rfl := Option.some.inj hx
        cases hcan
      · obtain rfl := Option.some.inj hx
        cases hw
      · exact absurd (hm.symm.trans hm') (by decide)
  | take task h hs =>
      exact hk.of_held h.alloc (fun w => by simp [h.job]) rfl (fun _ => rfl) rfl rfl rfl rfl
  | start task w h hjob =>
      exact hk.of_held h.alloc h.not_freeing rfl (fun _ => h.dispatched) rfl rfl rfl rfl
  | check task w h hjob =>
      exact hk.of_held h.alloc h.not_freeing h.alloc (fun _ => h.dispatched) rfl rfl rfl rfl
  | selfCancel task w h hjob hself =>
      exact hk.of_held h.alloc h.not_freeing rfl (fun _ => h.dispatched) rfl rfl rfl rfl
  | procEnd task w addedto h hjob =>
      exact hk.of_held h.alloc h.not_freeing h.alloc (fun _ => h.dispatched) rfl rfl rfl rfl
  | reportAdd task w addedto h hjob hcan =>
      exact hk.of_held h.alloc h.not_freeing rfl
        (fun hcan' => absurd (hcan.symm.trans hcan') (by decide)) rfl rfl rfl rfl
  | reportLeave task h hcan hwait hpending =>
      -- the worker leaves the task to whoever marked it as waited for
      have hawaited : v.Awaited :=
        (hk.waiter task h.alloc hwait).resolve_right (hpending hC)
      exact .of_awaited hawaited (hk.pending_of_marked h.alloc h.not_freeing)
  | reportFree task w h hcan hwait =>
      refine ⟨fun _ _ _ _ hjob => absurd rfl (hjob w), fun x hx hw => ?_,
        fun _ => .inr (.inr ⟨w, rfl⟩)⟩
      obtain rfl := Option.some.inj hx
      exact absurd (hwait.symm.trans hw) (by decide)
  | workerFree task h => exact .of_gone rfl
  | cancelTake task h hpurging =>
      refine .of_awaited (.inr (.inl rfl)) fun hm => ?_
      exact absurd (hpurging.symm.trans (hmarked hm)) (by decide)
  | cancelWait task h hpurging =>
      refine .of_awaited (.inl rfl) fun hm => ?_
      exact absurd (hpurging.symm.trans (hmarked hm)) (by decide)
  | cancelPoll task h hcancel =>
      refine .of_awaited (.inr (.inl rfl)) (hk.pending_of_marked h.alloc fun w => ?_)
      rw [h.job]
      exact TimerJob.noConfusion
  | cancelFree task h hcancel hpurge => exact .of_gone rfl
  | snapshot hpurge hpurging hcancel => exact hk.snapshot hv hpurge hcancel
  | purgeTake task h hpurge => exact .of_awaited (.inr (.inr (.inr rfl))) (by simp)
  | purgeWait task h hpurging => exact .of_awaited (.inr (.inr (.inl rfl))) (by simp)
  | purgePass task h hpurging hC' => exact absurd hC hC'
  | purgeMiss task h hpurge hpurging hcan =>
      -- a cancelled task that nobody has would be awaited
      have hjob : ∀ w, v.job ≠ .freeing w := by
        intro w
        rw [h.job]
        exact TimerJob.noConfusion
      have hcancel := h.cancel_of_purging hpurging
      have := hk.canceled task h.alloc hcan h.dispatched hjob
      simp [Awaited, hcancel, hpurge] at this
  | purgePoll task h hpurging => exact .of_awaited (.inr (.inr (.inr rfl))) (by simp)
  | purgeFree task h hpurging => exact .of_gone rfl

end TaskView

/-! ### Views after a step -/

section Views

variable (selfCancels : ℕ → Bool) (s : TimerState) (t u : ℕ)

namespace TimerState

lemma view_purging (h : (s.view selfCancels t).purge ≠ .none) :
    (s.view selfCancels t).purging = true := by
  cases hp : s.purge with
  | none =>
      refine absurd ?_ h
      simp only [view, hp, TimerPurge.rel]
  | _ => simp only [view, hp, TimerPurge.called]

@[simp] lemma view_store (task : TimerTask) :
    (s.store t task).view selfCancels u =
      if u = t then { s.view selfCancels t with task := some task }
      else s.view selfCancels u := by
  by_cases h : u = t
  · rw [if_pos h, h]
    simp only [view, store, Function.update_self]
    rfl
  · rw [if_neg h]
    simp only [view, store, Function.update_of_ne h]
    rfl

@[simp] lemma view_setJob (job : TimerJob) :
    (s.setJob t job).view selfCancels u =
      if u = t then { s.view selfCancels t with job := job } else s.view selfCancels u := by
  by_cases h : u = t
  · rw [if_pos h, h]
    simp only [view, setJob, Function.update_self]
    rfl
  · rw [if_neg h]
    simp only [view, setJob, Function.update_of_ne h]
    rfl

@[simp] lemma view_setCancel (cancel : TimerCancel) :
    (s.setCancel t cancel).view selfCancels u =
      if u = t then { s.view selfCancels t with cancel := cancel }
      else s.view selfCancels u := by
  by_cases h : u = t
  · rw [if_pos h, h]
    simp only [view, setCancel, Function.update_self]
    rfl
  · rw [if_neg h]
    simp only [view, setCancel, Function.update_of_ne h]
    rfl

@[simp] lemma view_setPurge (purge : TimerPurge) :
    (s.setPurge purge).view selfCancels u =
      { s.view selfCancels u with purge := purge.rel u, purging := purge.called } := rfl

@[simp] lemma view_free :
    (s.free t).view selfCancels u =
      if u = t then { s.view selfCancels t with task := none, freed := true }
      else s.view selfCancels u := by
  by_cases h : u = t
  · rw [if_pos h, h]
    simp only [view, free, Function.update_self, List.mem_cons, true_or, decide_true]
    rfl
  · rw [if_neg h]
    simp only [view, free, Function.update_of_ne h, List.mem_cons, h, false_or]
    rfl

@[simp] lemma view_add (addedto : TimerAddedTo) :
    (s.add t addedto).view selfCancels u =
      if u = t then
        { s.view selfCancels t with
          scheduled := (s.view selfCancels t).scheduled || decide (addedto = .scheduled)
          finished := (s.view selfCancels t).finished || decide (addedto = .finished) }
      else s.view selfCancels u := by
  by_cases h : u = t
  · cases addedto <;> simp [view, add, h]
  · rw [if_neg h]
    cases addedto <;> simp only [view, add, Finset.mem_insert, h, false_or] <;> rfl

@[simp] lemma view_dropFromAll :
    (s.dropFromAll t).view selfCancels u =
      if u = t then { s.view selfCancels t with alltasks := false }
      else s.view selfCancels u := by
  by_cases h : u = t
  · simp [view, dropFromAll, h]
  · rw [if_neg h]
    simp only [view, dropFromAll, Finset.mem_erase, ne_eq, h, not_false_eq_true, true_and]
    rfl

@[simp] lemma view_unlist :
    (s.unlist t).view selfCancels u =
      if u = t then
        { s.view selfCancels t with
          scheduled := false
          finished := decide (t ∈ s.scheduled) && decide (t ∈ s.finished)
          alltasks := false }
      else s.view selfCancels u := by
  by_cases h : u = t
  · rw [if_pos h, h]
    by_cases hs : t ∈ s.scheduled <;> simp [view, unlist, hs]
  · rw [if_neg h]
    by_cases hs : t ∈ s.scheduled <;> simp [view, unlist, hs, h]

end TimerState

end Views

/-! ### The invariant -/

/-- What holds in every run. -/
structure TimerInv (selfCancels : ℕ → Bool) (s : TimerState) : Prop where
  fault : s.fault = false
  freed : s.freed.Nodup
  snapshot : s.purge.left.Nodup
  mark : s.mark ≤ s.next
  unmarked : s.purge = .none → s.mark = 0
  phase : ∀ t, (s.view selfCancels t).Phase

/-- What a step does to all tasks. -/
structure TimerMoves (selfCancels : ℕ → Bool) (C : Prop) (s s' : TimerState) : Prop where
  fault : s'.fault = false
  freed : s'.freed.Nodup
  snapshot : s'.purge.left.Nodup
  mark : s'.mark ≤ s'.next
  unmarked : s'.purge = .none → s'.mark = 0
  purger : ∀ self, s'.purge.self = some self → s.purge.self = some self ∨ (C → self = .outside)
  task : ∀ t, TaskView.TaskStep C (s.view selfCancels t) (s'.view selfCancels t)

lemma TimerMoves.inv {selfCancels : ℕ → Bool} {C : Prop} {s s' : TimerState}
    (h : TimerMoves selfCancels C s s') (hs : TimerInv selfCancels s) :
    TimerInv selfCancels s' where
  fault := h.fault
  freed := h.freed
  snapshot := h.snapshot
  mark := h.mark
  unmarked := h.unmarked
  phase t := (h.task t).phase (hs.phase t)

lemma TimerState.access_of {s : TimerState} {t : ℕ} {task : TimerTask}
    (h : s.tasks t = some task) (f : TimerTask → TimerState) : s.access t f = f task := by
  rw [TimerState.access, h]

namespace TimerInv

variable {selfCancels : ℕ → Bool} {C : Prop} {s s' : TimerState} {t : ℕ}

/-- A step that changes the view of one task. -/
lemma moves (h : TimerInv selfCancels s) {v : TaskView} (hfault : s'.fault = false)
    (hfreed : s'.freed.Nodup) (hpurge : s'.purge = s.purge) (hmark : s'.mark = s.mark)
    (hnext : s.next ≤ s'.next)
    (hview : ∀ u, s'.view selfCancels u = if u = t then v else s.view selfCancels u)
    (hstep : TaskView.TaskStep C (s.view selfCancels t) v) : TimerMoves selfCancels C s s' where
  fault := hfault
  freed := hfreed
  snapshot := hpurge ▸ h.snapshot
  mark := hmark ▸ h.mark.trans hnext
  unmarked hnone := hmark ▸ h.unmarked (hpurge ▸ hnone)
  purger self hself := .inl (hpurge ▸ hself)
  task u := by
    rw [hview u]
    split
    · next hu => exact hu ▸ hstep
    · exact .stay

/-- A section of `Purge` for task `t`. -/
lemma purgeMoves (h : TimerInv selfCancels s) {x : TimerState} {p : TimerPurge} {v : TaskView}
    {r : TimerPurgeRel}
    (hfault : x.fault = false) (hfreed : x.freed.Nodup) (hmark : x.mark = s.mark)
    (hnext : x.next = s.next) (hview : ∀ u, x.view selfCancels u =
      if u = t then v else s.view selfCancels u)
    (hcalled : s.purge.called = true) (hcalled' : p.called = true)
    (hrel : ∀ u, u ≠ t → p.rel u = s.purge.rel u) (hleft : p.left.Nodup)
    (hself : ∀ self, p.self = some self → s.purge.self = some self) (hr : p.rel t = r)
    (hstep : TaskView.TaskStep C (s.view selfCancels t)
      { v with purge := r, purging := true }) :
    TimerMoves selfCancels C s (x.setPurge p) where
  fault := hfault
  freed := hfreed
  snapshot := hleft
  mark := (hmark.trans_le h.mark).trans hnext.ge
  unmarked hnone := by
    obtain rfl : p = .none := hnone
    cases hcalled'
  purger self hs := .inl (hself self hs)
  task u := by
    rw [TimerState.view_setPurge, hview u, hcalled']
    split
    · next hu =>
      rw [hu, hr]
      exact hstep
    · next hu =>
      rw [hrel u hu]
      have : { s.view selfCancels u with purge := s.purge.rel u, purging := true } =
          s.view selfCancels u := by
        rw [← hcalled]
        rfl
      rw [this]
      exact .stay

lemma freed_of_alloc (h : TimerInv selfCancels s)
    (hfreed : (s.view selfCancels t).freed = false) : (s.free t).freed.Nodup :=
  List.nodup_cons.mpr ⟨of_decide_eq_false hfreed, h.freed⟩

lemma fault_of_alloc (h : TimerInv selfCancels s) {task : TimerTask}
    (halloc : s.tasks t = some task) : (s.free t).fault = false := by
  simp [TimerState.free, h.fault, halloc]

/-! ### Scheduling and workers -/

/-- A task is scheduled. -/
lemma create (h : TimerInv selfCancels s) (type : TimerTaskType) :
    TimerMoves selfCancels C s (timerTaskCreate s type) := by
  have hnew : (s.view selfCancels s.next).created = false := decide_eq_false (lt_irrefl _)
  have hmarked : (s.view selfCancels s.next).marked = false :=
    decide_eq_false (Nat.not_lt.mpr h.mark)
  refine h.moves h.fault h.freed rfl rfl (Nat.le_succ _) (fun u => ?_)
    (.create type ((h.phase s.next).gone_of_new hnew) hnew hmarked)
  have hview : ∀ s₀ : TimerState, TimerState.view selfCancels
      { s₀ with
        scheduled := insert s.next s.scheduled
        alltasks := insert s.next s.alltasks
        next := s.next + 1 } u =
        { s₀.view selfCancels u with
          scheduled := decide (u ∈ insert s.next s.scheduled)
          alltasks := decide (u ∈ insert s.next s.alltasks)
          created := decide (u < s.next + 1) } :=
    fun _ => rfl
  rw [timerTaskCreate, hview, TimerState.view_store]
  by_cases hu : u = s.next
  · simp [hu]
  · have hlt : u < s.next + 1 ↔ u < s.next := by omega
    simp only [hu, if_false, Finset.mem_insert, false_or, hlt]
    rfl

/-- The main loop hands a task over. -/
lemma take (h : TimerInv selfCancels s) (ht : t ∈ s.scheduled) :
    TimerMoves selfCancels C s (timerMainLoopTake s t) := by
  obtain ⟨task, hw⟩ := (h.phase t).waits_of_scheduled (decide_eq_true ht)
  have hjob : s.job t = .none := hw.job
  rw [timerMainLoopTake, TimerState.access_of hw.alloc]
  refine h.moves ?_ h.freed rfl rfl le_rfl (fun u => ?_) (.take task hw (decide_eq_true ht))
  · simp [h.fault, hjob]
  · have hview : ∀ (s₀ : TimerState) (fault : Bool), TimerState.view selfCancels
        { s₀ with scheduled := s.scheduled.erase t, fault := fault } u =
          { s₀.view selfCancels u with scheduled := decide (u ∈ s.scheduled.erase t) } :=
      fun _ _ => rfl
    rw [hview, TimerState.view_setJob]
    by_cases hu : u = t
    · simp [hu]
    · simp only [hu, if_false, TimerState.view_store, Finset.mem_erase, ne_eq, not_false_eq_true,
        true_and]
      rfl

lemma dispatched (h : TimerInv selfCancels s) {job : TimerJob} (hjob : s.job t = job)
    (hnone : job ≠ .none) (hfree : ∀ w, job ≠ .freeing w) :
    ∃ task, (s.view selfCancels t).Dispatched task := by
  subst hjob
  exact (h.phase t).dispatched_of_job hnone hfree

/-- A worker enters. -/
lemma start (h : TimerInv selfCancels s) (hjob : s.job t = .queued) (w : ℕ) :
    TimerMoves selfCancels C s (timerWorkerStart s t w) := by
  obtain ⟨task, hd⟩ := h.dispatched hjob (by simp) (by simp)
  rw [timerWorkerStart, TimerState.access_of hd.alloc]
  refine h.moves h.fault h.freed rfl rfl le_rfl (fun u => ?_) (.start task w hd hjob)
  simp only [TimerState.view_setJob, TimerState.view_store, if_true]
  split <;> rfl

/-- A worker looks at `canceled` before the procedure. -/
lemma check (h : TimerInv selfCancels s) {w : ℕ} (hjob : s.job t = .started w) :
    TimerMoves selfCancels C s (timerWorkerCheck s t w) := by
  obtain ⟨task, hd⟩ := h.dispatched hjob (by simp) (by simp)
  rw [timerWorkerCheck, TimerState.access_of hd.alloc]
  refine h.moves h.fault h.freed rfl rfl le_rfl (fun u => ?_) (.check task w hd hjob)
  exact TimerState.view_setJob _ _ _ _ _

/-- A worker looks at `canceled` after the procedure. -/
lemma procEnd (h : TimerInv selfCancels s) {w : ℕ} (hjob : s.job t = .running w) :
    TimerMoves selfCancels C s (timerWorkerProcEnd s t w) := by
  obtain ⟨task, hd⟩ := h.dispatched hjob (by simp) (by simp)
  rw [timerWorkerProcEnd, TimerState.access_of hd.alloc]
  refine h.moves h.fault h.freed rfl rfl le_rfl (fun u => ?_) (.procEnd task w
    (if decide (task.type = .repeated) && !task.canceled then .scheduled else .finished) hd hjob)
  exact TimerState.view_setJob _ _ _ _ _

/-- A worker reports a task that was not cancelled. -/
lemma reportAdd (h : TimerInv selfCancels s) {w : ℕ} {addedto : Option TimerAddedTo}
    {task : TimerTask} (hd : (s.view selfCancels t).Dispatched task)
    (hjob : s.job t = .ended w addedto) (hcan : task.canceled = false) :
    TimerMoves selfCancels C s (timerWorkerReport s t w addedto) := by
  have hok : TaskView.JobOk (.ended w addedto) task := hjob ▸ hd.job
  have hnot : ¬task.canceled = true := by
    rw [hcan]
    decide
  rw [timerWorkerReport, TimerState.access_of hd.alloc]
  dsimp only
  rw [if_neg hnot]
  cases addedto with
  | none => exact absurd (hcan.symm.trans hok.2) (by decide)
  | some addedto =>
      refine h.moves ?_ ?_ ?_ ?_ ?_ (fun u => ?_) (.reportAdd task w addedto hd hjob hcan)
      · cases addedto <;> exact h.fault
      · cases addedto <;> exact h.freed
      · cases addedto <;> rfl
      · cases addedto <;> rfl
      · cases addedto <;> exact le_rfl
      · simp only [TimerState.view_setJob, TimerState.view_add, TimerState.view_store, if_true,
          hd.scheduled, hd.finished, Bool.false_or]
        split <;> rfl

/-- A worker reports a cancelled task. -/
lemma reportCanceled (h : TimerInv selfCancels s) {w : ℕ} {addedto : Option TimerAddedTo}
    {task : TimerTask} (hd : (s.view selfCancels t).Dispatched task)
    (hcan : task.canceled = true) (hC : C → (s.view selfCancels t).purge ≠ .pending) :
    TimerMoves selfCancels C s (timerWorkerReport s t w addedto) := by
  rw [timerWorkerReport, TimerState.access_of hd.alloc]
  dsimp only
  rw [if_pos hcan]
  rcases Bool.eq_false_or_eq_true task.waiter with hwait | hwait
  · rw [if_pos hwait]
    refine h.moves h.fault h.freed rfl rfl le_rfl (fun u => ?_) (.reportLeave task hd hcan hwait hC)
    simp only [TimerState.view_setJob, TimerState.view_dropFromAll, TimerState.view_store, if_true]
    split <;> rfl
  · have hnot : ¬task.waiter = true := by
      rw [hwait]
      decide
    rw [if_neg hnot]
    refine h.moves h.fault h.freed rfl rfl le_rfl (fun u => ?_) (.reportFree task w hd hcan hwait)
    simp only [TimerState.view_setJob, TimerState.view_dropFromAll, TimerState.view_store, if_true]
    split <;> rfl

/-- A worker frees a task. -/
lemma workerFree (h : TimerInv selfCancels s) {w : ℕ} (hjob : s.job t = .freeing w) :
    TimerMoves selfCancels C s ((s.free t).setJob t .none) := by
  obtain ⟨task, hf⟩ := (h.phase t).workerFrees_of_job hjob
  refine h.moves (h.fault_of_alloc hf.alloc) (h.freed_of_alloc hf.freed) rfl rfl le_rfl
    (fun u => ?_) (.workerFree task hf)
  simp only [TimerState.view_setJob, TimerState.view_free, if_true]
  split <;> rfl

/-! ### Cancelling -/

section Private

variable {task : TimerTask} {self : TimerThread}

lemma cancelPrivate_waits (hw : (s.view selfCancels t).Waits task) :
    timerTaskCancelPrivate s t self = (s.unlist t, .free) := by
  have halloc : s.tasks t = some task := hw.alloc
  have harr : (decide (t ∈ s.scheduled) || decide (t ∈ s.finished)) = true := by
    have harrays : decide (t ∈ s.scheduled) = !decide (t ∈ s.finished) := hw.arrays
    rw [harrays]
    cases decide (t ∈ s.finished) <;> rfl
  simp only [timerTaskCancelPrivate, halloc, hw.canceled, harr, Bool.not_false, Bool.and_self,
    if_true]

lemma cancelPrivate_wait (hd : (s.view selfCancels t).Dispatched task)
    (hrun : task.runner ≠ some self) :
    timerTaskCancelPrivate s t self =
      (s.store t { task with canceled := true, waiter := true }, .wait) := by
  have halloc : s.tasks t = some task := hd.alloc
  have hsched : decide (t ∈ s.scheduled) = false := hd.scheduled
  have hfin : decide (t ∈ s.finished) = false := hd.finished
  simp [timerTaskCancelPrivate, halloc, hsched, hfin, hd.dispatched, hrun]

lemma cancelPrivate_self (hd : (s.view selfCancels t).Dispatched task)
    (hrun : task.runner = some self) :
    timerTaskCancelPrivate s t self = (s.store t { task with canceled := true }, .done) := by
  have halloc : s.tasks t = some task := hd.alloc
  have hsched : decide (t ∈ s.scheduled) = false := hd.scheduled
  have hfin : decide (t ∈ s.finished) = false := hd.finished
  simp [timerTaskCancelPrivate, halloc, hsched, hfin, hrun]

lemma cancelPrivate_left (hl : (s.view selfCancels t).Left task) (hcan : task.canceled = true) :
    timerTaskCancelPrivate s t self = (s.store t task, .done) := by
  have halloc : s.tasks t = some task := hl.alloc
  obtain ⟨type, canceled, dispatched, waiter, runner⟩ := task
  obtain rfl : canceled = true := hcan
  obtain rfl : dispatched = false := hl.dispatched
  simp [timerTaskCancelPrivate, halloc]

lemma view_unlist (hw : (s.view selfCancels t).Waits task) (u : ℕ) :
    (s.unlist t).view selfCancels u =
      if u = t then
        { s.view selfCancels t with scheduled := false, finished := false, alltasks := false }
      else s.view selfCancels u := by
  rw [TimerState.view_unlist]
  split
  · have harrays : decide (t ∈ s.scheduled) = !decide (t ∈ s.finished) := hw.arrays
    rw [harrays, Bool.not_and_self]
  · rfl

/-- A job names its worker. -/
lemma runner_ne (hd : (s.view selfCancels t).Dispatched task)
    (hrun : (s.job t).worker.map .worker ≠ some self) : task.runner ≠ some self := by
  have hok : TaskView.JobOk (s.job t) task := hd.job
  cases hjob : s.job t with
  | none | freeing =>
      rw [hjob] at hok
      exact hok.elim
  | queued =>
      rw [hjob] at hok
      rw [show task.runner = none from hok]
      exact (Option.some_ne_none self).symm
  | started w | running w =>
      rw [hjob] at hok hrun
      rw [show task.runner = some (.worker w) from hok]
      exact hrun
  | ended w addedto =>
      rw [hjob] at hok hrun
      cases addedto with
      | none =>
          rw [show task.runner = some (.worker w) from hok.1]
          exact hrun
      | some =>
          rw [show task.runner = some (.worker w) from hok]
          exact hrun

end Private

/-- A task cancels itself. -/
lemma selfCancel (h : TimerInv selfCancels s) {w : ℕ} (hjob : s.job t = .running w)
    (hself : selfCancels t = true) :
    TimerMoves selfCancels C s (timerWorkerSelfCancel s t w) := by
  obtain ⟨task, hd⟩ := h.dispatched hjob (by simp) (by simp)
  have hrun : TaskView.JobOk (.running w) task := hjob ▸ hd.job
  rw [timerWorkerSelfCancel, cancelPrivate_self hd hrun]
  refine h.moves h.fault h.freed rfl rfl le_rfl (fun u => ?_) (.selfCancel task w hd hjob hself)
  exact TimerState.view_store _ _ _ _ _

/-- A thread that does not run the task cancels it. -/
lemma cancel (h : TimerInv selfCancels s) {self : TimerThread} (hlt : t < s.next)
    (hself : selfCancels t = false) (hcancel : s.cancel t = .none) (hpurge : s.purge = .none)
    (hrun : (s.job t).worker.map .worker ≠ some self) :
    TimerMoves selfCancels C s (timerTaskCancel s t self) := by
  have hpurging : (s.view selfCancels t).purging = false := congrArg TimerPurge.called hpurge
  have hb : ¬(s.view selfCancels t).Blamed := by
    rintro (hb | hb | hb)
    · exact absurd (hself.symm.trans hb) (by decide)
    · exact hb hcancel
    · exact absurd (hpurging.symm.trans hb) (by decide)
  rcases (h.phase t).of_not_blamed (decide_eq_true hlt) hb with ⟨task, hw⟩ | ⟨task, hd⟩
  · rw [timerTaskCancel, cancelPrivate_waits hw]
    refine h.moves h.fault h.freed rfl rfl le_rfl (fun u => ?_) (.cancelTake task hw hpurging)
    simp only [TimerState.view_setCancel, view_unlist hw, if_true]
    split <;> rfl
  · rw [timerTaskCancel, cancelPrivate_wait hd (runner_ne hd hrun)]
    refine h.moves h.fault h.freed rfl rfl le_rfl (fun u => ?_) (.cancelWait task hd hpurging)
    simp only [TimerState.view_setCancel, TimerState.view_store, if_true]
    split <;> rfl

lemma poll_of {task : TimerTask} (halloc : s.tasks t = some task) :
    timerTaskCancelPoll s t = (s, !task.dispatched) := by
  rw [timerTaskCancelPoll, halloc]

/-- Nothing happens to any task. -/
lemma stay (h : TimerInv selfCancels s) : TimerMoves selfCancels C s s where
  fault := h.fault
  freed := h.freed
  snapshot := h.snapshot
  mark := h.mark
  unmarked := h.unmarked
  purger _ hself := .inl hself
  task _ := .stay

/-- `Cancel` looks whether its wait is over. -/
lemma cancelPoll (h : TimerInv selfCancels s) (hcancel : s.cancel t = .waiting)
    (hs : timerStep selfCancels s (.cancelPoll t) = some s') :
    TimerMoves selfCancels C s s' := by
  rw [timerStep, hcancel] at hs
  dsimp only at hs
  rcases (h.phase t).of_cancel_waiting hcancel with ⟨task, hd⟩ | ⟨task, hl⟩
  · rw [poll_of hd.alloc, hd.dispatched] at hs
    obtain rfl : s = s' := Option.some.inj hs
    exact h.stay
  · rw [poll_of hl.alloc, hl.dispatched] at hs
    obtain rfl : s.setCancel t .freeing = s' := Option.some.inj hs
    refine h.moves h.fault h.freed rfl rfl le_rfl (fun u => ?_) (.cancelPoll task hl hcancel)
    exact TimerState.view_setCancel _ _ _ _ _

/-- `Cancel` frees its task. -/
lemma cancelFree (h : TimerInv selfCancels s) (hcancel : s.cancel t = .freeing) :
    TimerMoves selfCancels C s ((s.free t).setCancel t .returned) := by
  obtain ⟨task, hl⟩ := (h.phase t).left_of_cancel_freeing hcancel
  have hpurge : (s.view selfCancels t).purge = .none := by
    by_contra hne
    have hnone := hl.cancel_of_purging (TimerState.view_purging _ _ _ hne)
    exact TimerCancel.noConfusion (hcancel.symm.trans hnone)
  refine h.moves (h.fault_of_alloc hl.alloc) (h.freed_of_alloc hl.freed) rfl rfl le_rfl
    (fun u => ?_) (.cancelFree task hl hcancel hpurge)
  simp only [TimerState.view_setCancel, TimerState.view_free, if_true]
  split <;> rfl

/-! ### Purge -/

lemma alloc_of_alltasks (h : TimerInv selfCancels s) (ht : t ∈ s.alltasks) :
    (s.tasks t).isSome := by
  have hall : (s.view selfCancels t).alltasks = true := decide_eq_true ht
  have halloc : ∃ task, (s.view selfCancels t).task = some task := by
    cases h.phase t with
    | waits task hw => exact ⟨task, hw.alloc⟩
    | dispatched task hd => exact ⟨task, hd.alloc⟩
    | gone hp => exact absurd (hp.alltasks.symm.trans hall) (by decide)
    | left _ hp | workerFrees _ hp => exact absurd (hp.alltasks.symm.trans hall) (by decide)
  obtain ⟨task, halloc⟩ := halloc
  exact Option.isSome_iff_exists.mpr ⟨task, halloc⟩

/-- `Purge` takes its snapshot. -/
lemma purge (h : TimerInv selfCancels s) {self : TimerThread} {order : List ℕ}
    (hpurge : s.purge = .none) (hcancel : ∀ t < s.next, s.cancel t = .none ∨ s.cancel t = .returned)
    (hnodup : order.Nodup) (horder : order.toFinset = s.alltasks) (hC : C → self = .outside) :
    TimerMoves selfCancels C s (timerPurgeSnapshot s self order) := by
  have hmem : ∀ t, t ∈ order ↔ t ∈ s.alltasks := by
    intro t
    rw [← horder, List.mem_toFinset]
  have hfault : (order.any fun t => (s.tasks t).isNone) = false := by
    rw [List.any_eq_false]
    intro t ht
    have := h.alloc_of_alltasks ((hmem t).mp ht)
    rw [← Option.not_isSome, this]
    decide
  refine ⟨?_, h.freed, hnodup, le_rfl, fun hnone => TimerPurge.noConfusion hnone,
    fun x hx => .inr fun hc => ?_, fun t => ?_⟩
  · show (s.fault || order.any fun t => (s.tasks t).isNone) = false
    rw [h.fault, hfault]
    rfl
  · obtain rfl : self = x := Option.some.inj hx
    exact hC hc
  · have hrel : (s.view selfCancels t).purge = .none := by
      simp only [TimerState.view, hpurge, TimerPurge.rel]
    have hcancel' : (s.view selfCancels t).cancel = .none ∨
        (s.view selfCancels t).cancel = .returned := by
      by_cases hlt : t < s.next
      · exact hcancel t hlt
      · have hnew : (s.view selfCancels t).created = false := decide_eq_false hlt
        exact .inl (((h.phase t).gone_of_new hnew).cancel_of_new hnew)
    have hview : (timerPurgeSnapshot s self order).view selfCancels t =
        { s.view selfCancels t with
          task := if (s.view selfCancels t).alltasks then
              (s.view selfCancels t).task.map fun task => { task with waiter := true }
            else (s.view selfCancels t).task
          purge := if (s.view selfCancels t).alltasks then .pending else .none
          purging := true
          marked := (s.view selfCancels t).created } := by
      simp [TimerState.view, timerPurgeSnapshot, TimerPurge.rel, TimerPurge.called, hmem]
    rw [hview]
    exact .snapshot hrel (congrArg TimerPurge.called hpurge) hcancel'

/-- `Purge` cancels the next task of its snapshot. -/
lemma purgeNext (h : TimerInv selfCancels s) {self : TimerThread} {rest : List ℕ}
    (hpurge : s.purge = .next self (t :: rest)) (hC : C → self = .outside) :
    TimerMoves selfCancels C s (timerPurgeNext s self t rest) := by
  have hnodup : (t :: rest).Nodup := by
    have := h.snapshot
    rwa [hpurge] at this
  have hcalled : s.purge.called = true := congrArg TimerPurge.called hpurge
  have hpurging : (s.view selfCancels t).purging = true := hcalled
  have hpending : (s.view selfCancels t).purge = .pending := by
    show s.purge.rel t = .pending
    rw [hpurge]
    simp [TimerPurge.rel]
  have hself : ∀ p : TimerPurge, p.self = some self →
      ∀ x, p.self = some x → s.purge.self = some x := by
    intro p hp x hx
    rw [hpurge]
    exact hp.symm.trans hx
  have hdone : ∀ u, u ≠ t → (TimerPurge.next self rest).rel u = s.purge.rel u := by
    intro u hu
    simp [hpurge, TimerPurge.rel, hu]
  have hlast : (TimerPurge.next self rest).rel t = .none := by
    simp [TimerPurge.rel, (List.nodup_cons.mp hnodup).1]
  cases h.phase t with
  | gone hg => exact TimerPurgeRel.noConfusion (hg.purge.symm.trans hpending)
  | workerFrees _ hf => exact TimerPurgeRel.noConfusion (hf.purge.symm.trans hpending)
  | waits task hw =>
      rw [timerPurgeNext, cancelPrivate_waits hw]
      refine h.purgeMoves h.fault h.freed rfl rfl (view_unlist hw) hcalled rfl (fun u hu => ?_)
        hnodup (hself _ rfl) (if_pos rfl) (.purgeTake task hw hpending)
      simp [hpurge, TimerPurge.rel, hu]
  | dispatched task hd =>
      by_cases hrun : task.runner = some self
      · -- `Purge` is called in the procedure of this task
        have hnot : ¬C := by
          intro hc
          rw [hC hc] at hrun
          refine runner_ne hd ?_ hrun
          cases (s.job t).worker <;> simp
        rw [timerPurgeNext, cancelPrivate_self hd hrun]
        exact h.purgeMoves h.fault h.freed rfl rfl (TimerState.view_store _ _ _ · _) hcalled rfl hdone
          (List.nodup_cons.mp hnodup).2 (hself _ rfl) hlast (.purgePass task hd hpurging hnot)
      · rw [timerPurgeNext, cancelPrivate_wait hd hrun]
        refine h.purgeMoves h.fault h.freed rfl rfl (TimerState.view_store _ _ _ · _) hcalled rfl (fun u hu => ?_)
          hnodup (hself _ rfl) (if_pos rfl) (.purgeWait task hd hpurging)
        simp [hpurge, TimerPurge.rel, hu]
  | left task hl =>
      have hcan : task.canceled = true := by
        rcases hl.why with hw | hw | hw
        · exact hw
        · have hnone := hl.cancel_of_purging hpurging
          exact TimerCancel.noConfusion (hnone.symm.trans hw)
        · exact TimerPurgeRel.noConfusion (hpending.symm.trans hw)
      rw [timerPurgeNext, cancelPrivate_left hl hcan]
      refine h.purgeMoves (v := s.view selfCancels t) h.fault h.freed rfl rfl (fun u => ?_) hcalled
        rfl hdone (List.nodup_cons.mp hnodup).2 (hself _ rfl) hlast
        (.purgeMiss task hl hpending hpurging hcan)
      rw [TimerState.view_store, ← hl.alloc]

/-- `Purge` is at the end of its snapshot. -/
lemma purgeEnd (h : TimerInv selfCancels s) {self : TimerThread}
    (hpurge : s.purge = .next self []) : TimerMoves selfCancels C s (s.setPurge .returned) := by
  have hrel : ∀ u, s.purge.rel u = .none := by
    intro u
    simp [hpurge, TimerPurge.rel]
  have hcalled : s.purge.called = true := congrArg TimerPurge.called hpurge
  have hstay : { s.view selfCancels 0 with purge := .none, purging := true } =
      s.view selfCancels 0 := by
    rw [← hrel 0, ← hcalled]
    rfl
  refine h.purgeMoves (t := 0) (v := s.view selfCancels 0) h.fault h.freed rfl rfl (fun u => ?_)
    hcalled rfl (fun u _ => (hrel u).symm) List.nodup_nil (fun _ hx => ?_) rfl ?_
  · split
    · next hu => rw [hu]
    · rfl
  · cases hx
  · exact (congrArg (TaskView.TaskStep C (s.view selfCancels 0)) hstay).mpr .stay

/-- `Purge` looks whether its wait is over. -/
lemma purgePoll (h : TimerInv selfCancels s) {self : TimerThread} {rest : List ℕ}
    (hpurge : s.purge = .waiting self t rest) (hs : timerPurgeGo s = some s') :
    TimerMoves selfCancels C s s' := by
  have hcalled : s.purge.called = true := congrArg TimerPurge.called hpurge
  have hwaiting : (s.view selfCancels t).purge = .waiting := by
    show s.purge.rel t = .waiting
    rw [hpurge]
    exact if_pos rfl
  have hnodup : (t :: rest).Nodup := by
    have := h.snapshot
    rwa [hpurge] at this
  rw [timerPurgeGo, hpurge] at hs
  dsimp only at hs
  rcases (h.phase t).of_purge_waiting hwaiting with ⟨task, hd⟩ | ⟨task, hl⟩
  · rw [poll_of hd.alloc, hd.dispatched] at hs
    obtain rfl : s = s' := Option.some.inj hs
    exact h.stay
  · rw [poll_of hl.alloc, hl.dispatched] at hs
    obtain rfl : s.setPurge (.freeing self t rest) = s' := Option.some.inj hs
    refine h.purgeMoves (v := s.view selfCancels t) h.fault h.freed rfl rfl (fun u => ?_) hcalled
      rfl (fun u hu => ?_) hnodup (fun x hx => ?_) (if_pos rfl) (.purgePoll task hl hcalled)
    · split
      · next hu => rw [hu]
      · rfl
    · simp [hpurge, TimerPurge.rel, hu]
    · rw [hpurge]
      exact hx

/-- `Purge` frees a task. -/
lemma purgeFree (h : TimerInv selfCancels s) {self : TimerThread} {rest : List ℕ}
    (hpurge : s.purge = .freeing self t rest) :
    TimerMoves selfCancels C s ((s.free t).setPurge (.next self rest)) := by
  have hcalled : s.purge.called = true := congrArg TimerPurge.called hpurge
  have hfreeing : (s.view selfCancels t).purge = .freeing := by
    show s.purge.rel t = .freeing
    rw [hpurge]
    exact if_pos rfl
  have hnodup : (t :: rest).Nodup := by
    have := h.snapshot
    rwa [hpurge] at this
  obtain ⟨hnot, hrest⟩ := List.nodup_cons.mp hnodup
  obtain ⟨task, hl⟩ := (h.phase t).left_of_purge_freeing hfreeing
  refine h.purgeMoves (h.fault_of_alloc hl.alloc) (h.freed_of_alloc hl.freed) rfl rfl
    (TimerState.view_free _ _ _) hcalled rfl (fun u hu => ?_) hrest (fun x hx => ?_) (if_neg hnot)
    (.purgeFree task hl hcalled)
  · simp [hpurge, TimerPurge.rel, hu]
  · rw [hpurge]
    exact hx

/-- `Purge` goes on. -/
lemma purgeGo (h : TimerInv selfCancels s)
    (hC : C → ∀ self, s.purge.self = some self → self = .outside)
    (hs : timerPurgeGo s = some s') : TimerMoves selfCancels C s s' := by
  cases hpurge : s.purge with
  | none | returned =>
      rw [timerPurgeGo, hpurge] at hs
      cases hs
  | next self order =>
      rw [timerPurgeGo, hpurge] at hs
      cases order with
      | nil =>
          obtain rfl : s.setPurge .returned = s' := Option.some.inj hs
          exact h.purgeEnd hpurge
      | cons t rest =>
          obtain rfl : timerPurgeNext s self t rest = s' := Option.some.inj hs
          exact h.purgeNext hpurge fun hc => hC hc self (congrArg TimerPurge.self hpurge)
  | waiting self t rest => exact h.purgePoll hpurge hs
  | freeing self t rest =>
      rw [timerPurgeGo, hpurge] at hs
      obtain rfl : (s.free t).setPurge (.next self rest) = s' := Option.some.inj hs
      exact h.purgeFree hpurge

end TimerInv

/-! ### Runs -/

/-- `Purge` is called outside the procedures of the tasks, and no worker reports a
cancelled task that `Purge` has in its snapshot and has not come to yet. -/
def TimerPurgeFirst (s : TimerState) : TimerAct → Prop
  | .purge self _ => self = .outside
  | .report t => ∀ task, s.tasks t = some task → task.canceled = true → t ∉ s.purge.rest
  | _ => True

variable {selfCancels : ℕ → Bool} {s s' : TimerState}

lemma TimerInv.start_inv : TimerInv selfCancels .start where
  fault := rfl
  freed := List.nodup_nil
  snapshot := List.nodup_nil
  mark := le_rfl
  unmarked _ := rfl
  phase _ := .gone ⟨rfl, rfl, rfl, rfl, rfl, .inl rfl, rfl, rfl, fun h => by cases h⟩

lemma TimerPurge.rel_ne_pending {p : TimerPurge} {t : ℕ} (h : t ∉ p.rest) :
    p.rel t ≠ .pending := by
  cases p with
  | none | returned => exact TimerPurgeRel.noConfusion
  | next self rest =>
      have hnot : t ∉ rest := h
      simp [TimerPurge.rel, hnot]
  | waiting self u rest | freeing self u rest =>
      have hnot : t ∉ rest := h
      by_cases hu : t = u
      · simp [TimerPurge.rel, hu]
      · simp [TimerPurge.rel, hu, hnot]

/-- What one step does to all tasks. -/
theorem timerStep_moves (h : TimerInv selfCancels s) {a : TimerAct}
    (hs : timerStep selfCancels s a = some s') :
    TimerMoves selfCancels
      (TimerPurgeFirst s a ∧ ∀ self, s.purge.self = some self → self = .outside) s s' := by
  cases a with
  | schedule type =>
      obtain rfl : timerTaskCreate s type = s' := Option.some.inj hs
      exact h.create type
  | take t =>
      simp only [timerStep] at hs
      split at hs
      · next ht =>
        obtain rfl : timerMainLoopTake s t = s' := Option.some.inj hs
        exact h.take ht
      · cases hs
  | start t w =>
      simp only [timerStep] at hs
      split at hs
      · next hg =>
        obtain rfl : timerWorkerStart s t w = s' := Option.some.inj hs
        exact h.start hg.1 w
      · cases hs
  | check t =>
      simp only [timerStep] at hs
      split at hs
      · next w hjob =>
        obtain rfl : timerWorkerCheck s t w = s' := Option.some.inj hs
        exact h.check hjob
      · cases hs
  | selfCancel t =>
      simp only [timerStep] at hs
      split at hs
      · next w hjob =>
        split at hs
        · next hself =>
          obtain rfl : timerWorkerSelfCancel s t w = s' := Option.some.inj hs
          exact h.selfCancel hjob hself
        · cases hs
      · cases hs
  | procEnd t =>
      simp only [timerStep] at hs
      split at hs
      · next w hjob =>
        obtain rfl : timerWorkerProcEnd s t w = s' := Option.some.inj hs
        exact h.procEnd hjob
      · cases hs
  | report t =>
      simp only [timerStep] at hs
      split at hs
      · next w addedto hjob =>
        obtain rfl : timerWorkerReport s t w addedto = s' := Option.some.inj hs
        obtain ⟨task, hd⟩ := h.dispatched hjob (by simp) (by simp)
        rcases Bool.eq_false_or_eq_true task.canceled with hcan | hcan
        · exact h.reportCanceled hd hcan fun hc =>
            TimerPurge.rel_ne_pending (hc.1 task hd.alloc hcan)
        · exact h.reportAdd hd hjob hcan
      · cases hs
  | workerFree t =>
      simp only [timerStep] at hs
      split at hs
      · next w hjob =>
        obtain rfl : (s.free t).setJob t .none = s' := Option.some.inj hs
        exact h.workerFree hjob
      · cases hs
  | cancel t self =>
      simp only [timerStep] at hs
      split at hs
      · next hg =>
        obtain rfl : timerTaskCancel s t self = s' := Option.some.inj hs
        obtain ⟨hlt, hself, hcancel, hpurge, hrun⟩ := hg
        exact h.cancel hlt hself hcancel hpurge hrun
      · cases hs
  | cancelPoll t =>
      cases hcancel : s.cancel t with
      | waiting => exact h.cancelPoll hcancel hs
      | none | freeing | returned =>
          rw [timerStep, hcancel] at hs
          cases hs
  | cancelFree t =>
      simp only [timerStep] at hs
      split at hs
      · next hcancel =>
        obtain rfl : (s.free t).setCancel t .returned = s' := Option.some.inj hs
        exact h.cancelFree hcancel
      · cases hs
  | purge self order =>
      simp only [timerStep] at hs
      split at hs
      · next hg =>
        obtain rfl : timerPurgeSnapshot s self order = s' := Option.some.inj hs
        obtain ⟨hpurge, hcancel, hnodup, horder⟩ := hg
        exact h.purge hpurge hcancel hnodup horder fun hc => hc.1
      · cases hs
  | purgeGo => exact h.purgeGo (fun hc => hc.2) hs

/-- The invariant of the runs that let `Purge` be first. -/
structure TimerKept (selfCancels : ℕ → Bool) (s : TimerState) : Prop where
  inv : TimerInv selfCancels s
  purger : ∀ self, s.purge.self = some self → self = .outside
  kept : ∀ t, (s.view selfCancels t).Kept

lemma TimerKept.step (h : TimerKept selfCancels s) {a : TimerAct} (hC : TimerPurgeFirst s a)
    (hs : timerStep selfCancels s a = some s') : TimerKept selfCancels s' := by
  have hmoves := timerStep_moves h.inv hs
  refine ⟨hmoves.inv h.inv, fun self hself => ?_, fun t => ?_⟩
  · rcases hmoves.purger self hself with hx | hx
    · exact h.purger self hx
    · exact hx ⟨hC, h.purger⟩
  · refine (hmoves.task t).kept ⟨hC, h.purger⟩ (h.inv.phase t) (h.kept t) fun hm => ?_
    by_contra hnot
    have hnone : s.purge = .none := by
      cases hp : s.purge with
      | none => rfl
      | _ => simp [TimerState.view, hp, TimerPurge.called] at hnot
    have hlt : t < s.mark := of_decide_eq_true hm
    rw [h.inv.unmarked hnone] at hlt
    exact absurd hlt (Nat.not_lt_zero t)

lemma TimerInv.of_reachable (h : (timerSystem selfCancels).Reachable s) :
    TimerInv selfCancels s := by
  refine TransitionSystem.Reachable.invariant (P := TimerInv selfCancels) h ?_ ?_
  · rintro s rfl
    exact .start_inv
  · intro s a s' hs hstep
    exact (timerStep_moves hs hstep).inv hs

lemma TimerKept.of_reachableBy (h : (timerSystem selfCancels).ReachableBy TimerPurgeFirst s) :
    TimerKept selfCancels s := by
  refine TransitionSystem.ReachableBy.invariant (P := TimerKept selfCancels) h ?_ ?_
  · rintro s rfl
    refine ⟨.start_inv, fun self hself => ?_, fun t => .of_gone rfl⟩
    cases hself
  · intro s a s' hs hC hstep
    exact hs.step hC hstep

/-- A task has been handed to a worker that has not reported it. -/
def TimerState.dispatched (s : TimerState) (t : ℕ) : Bool :=
  (s.tasks t).any TimerTask.dispatched

lemma TimerInv.one_place (h : TimerInv selfCancels s) (t : ℕ) :
    ¬(t ∈ s.scheduled ∧ t ∈ s.finished) ∧ ¬(t ∈ s.scheduled ∧ s.dispatched t = true) ∧
      ¬(t ∈ s.finished ∧ s.dispatched t = true) := by
  have hsched : (s.view selfCancels t).scheduled = decide (t ∈ s.scheduled) := rfl
  have hfin : (s.view selfCancels t).finished = decide (t ∈ s.finished) := rfl
  have htask : (s.view selfCancels t).task = s.tasks t := rfl
  cases h.phase t with
  | waits task hw =>
      have harrays := hw.arrays
      rw [hsched, hfin] at harrays
      have hd : s.dispatched t = false := by
        rw [TimerState.dispatched, ← htask, hw.alloc]
        exact hw.dispatched
      refine ⟨fun ⟨hs, hf⟩ => ?_, fun ⟨_, hd'⟩ => ?_, fun ⟨_, hd'⟩ => ?_⟩
      · simp [hs, hf] at harrays
      · exact absurd (hd.symm.trans hd') (by decide)
      · exact absurd (hd.symm.trans hd') (by decide)
  | gone hp =>
      have hs := of_decide_eq_false (hsched.symm.trans hp.scheduled)
      have hf := of_decide_eq_false (hfin.symm.trans hp.finished)
      exact ⟨fun h => hs h.1, fun h => hs h.1, fun h => hf h.1⟩
  | dispatched _ hp | left _ hp | workerFrees _ hp =>
      have hs := of_decide_eq_false (hsched.symm.trans hp.scheduled)
      have hf := of_decide_eq_false (hfin.symm.trans hp.finished)
      exact ⟨fun h => hs h.1, fun h => hs h.1, fun h => hf h.1⟩

lemma TimerKept.freed_of_mark (h : TimerKept selfCancels s) (hpurge : s.purge = .returned)
    (hquiet : ∀ t < s.next, (s.job t).worker = none) {t : ℕ} (ht : t < s.mark) : t ∈ s.freed := by
  have hlt : t < s.next := ht.trans_le h.inv.mark
  rcases (h.kept t).marked (decide_eq_true ht) with hgone | hrel | ⟨w, hjob⟩
  · cases h.inv.phase t with
    | gone hg => exact of_decide_eq_true (hg.freed.trans (decide_eq_true hlt))
    | waits _ hp | dispatched _ hp | left _ hp | workerFrees _ hp =>
        rw [hp.alloc] at hgone
        cases hgone
  · refine absurd ?_ hrel
    show s.purge.rel t = .none
    rw [hpurge]
    rfl
  · have hworker := hquiet t hlt
    rw [show s.job t = .freeing w from hjob] at hworker
    cases hworker

end LibCmutils
