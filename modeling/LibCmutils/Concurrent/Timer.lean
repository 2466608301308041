import Mathlib.Data.Finset.Insert
import Mathlib.Data.Finset.Erase
import LibCmutils.Lib.Transition

/-!
Timers (`src/concurrent.c`): the tasks of a `CMUTIL_Timer`, its main loop, its
workers, `Cancel` and `Purge`.

* `TimerTask`: the fields of a task that decide who owns it. A task is its number,
  in the order of the calls that schedule tasks; a number is not used again.
* `TimerState`: the allocated tasks, the three arrays as sets (`TimerTaskComp` and
  `TimerAddrComp` tell two tasks apart, by their address at last), and where each
  worker, each `Cancel` and `Purge` is. `fault` is set by a step that uses a task
  which is not allocated.
* `timerTaskCancelPrivate`, `timerMainLoopTake`, `timerWorkerReport` and the like:
  the sections that the timer mutex protects, and what the code reads of a task
  outside them, each one step.
* `timerSystem`: these steps interleaved. A task whose turn it is, a worker that is
  free and the order of `Purge` are any; the bounded wait does not expire.
-/

namespace LibCmutils

/-- A thread: worker `w` of the timer, or one that is no worker of it. -/
inductive TimerThread where
  | worker (w : ℕ)
  | outside
  deriving DecidableEq

/-- `CMUTIL_TimerTaskType`. -/
inductive TimerTaskType where
  | oneTime
  | repeated
  deriving DecidableEq

/-- `CMUTIL_TimerTask_Internal`; `runner` is `none` for the value 0. -/
structure TimerTask where
  type : TimerTaskType
  canceled : Bool
  dispatched : Bool
  waiter : Bool
  runner : Option TimerThread
  deriving DecidableEq

/-- The array a worker puts a task into. -/
inductive TimerAddedTo where
  | scheduled
  | finished
  deriving DecidableEq

/-- Where the call of `CMUTIL_TimerWorker` for a task is. -/
inductive TimerJob where
  /-- There is none. -/
  | none
  /-- Handed to the thread pool. -/
  | queued
  /-- Before the first look at `canceled`. -/
  | started (w : ℕ)
  /-- In the procedure of the task. -/
  | running (w : ℕ)
  /-- Before the last section. -/
  | ended (w : ℕ) (addedto : Option TimerAddedTo)
  /-- After the last section, with the task to free. -/
  | freeing (w : ℕ)
  deriving DecidableEq

/-- The worker a job is at. -/
def TimerJob.worker : TimerJob → Option ℕ
  | .none | .queued => Option.none
  | .started w | .running w | .ended w _ | .freeing w => some w

/-- Where the `Cancel` of a task is. -/
inductive TimerCancel where
  | none
  /-- In the loop that waits for `dispatched` to fall. -/
  | waiting
  /-- After the section, with the task to free. -/
  | freeing
  | returned
  deriving DecidableEq

/-- Where `Purge` is, the thread that runs it and what is left of its snapshot. -/
inductive TimerPurge where
  | none
  /-- Before the next task of the snapshot. -/
  | next (self : TimerThread) (rest : List ℕ)
  /-- In the loop that waits for task `t`. -/
  | waiting (self : TimerThread) (t : ℕ) (rest : List ℕ)
  /-- With task `t` to free. -/
  | freeing (self : TimerThread) (t : ℕ) (rest : List ℕ)
  | returned
  deriving DecidableEq

/-- A timer and all that goes on around it. `next` counts the tasks scheduled so far
and `mark` those scheduled before `Purge`; `freed` lists the tasks freed. -/
structure TimerState where
  tasks : ℕ → Option TimerTask
  scheduled : Finset ℕ
  finished : Finset ℕ
  alltasks : Finset ℕ
  job : ℕ → TimerJob
  cancel : ℕ → TimerCancel
  purge : TimerPurge
  next : ℕ
  mark : ℕ
  freed : List ℕ
  fault : Bool

namespace TimerState

/-- A new timer. -/
def start : TimerState where
  tasks := fun _ => none
  scheduled := ∅
  finished := ∅
  alltasks := ∅
  job := fun _ => .none
  cancel := fun _ => .none
  purge := .none
  next := 0
  mark := 0
  freed := []
  fault := false

variable (s : TimerState) (t : ℕ)

/-- A use of task `t`, a fault if the task is not allocated. -/
def access (f : TimerTask → TimerState) : TimerState :=
  match s.tasks t with
  | none => { s with fault := true }
  | some task => f task

/-- The fields of task `t` are written. -/
def store (task : TimerTask) : TimerState :=
  { s with tasks := Function.update s.tasks t (some task) }

/-- `Free` of task `t`. -/
def free : TimerState :=
  { s with
    tasks := Function.update s.tasks t none
    freed := t :: s.freed
    fault := s.fault || (s.tasks t).isNone }

def setJob (job : TimerJob) : TimerState := { s with job := Function.update s.job t job }

def setCancel (cancel : TimerCancel) : TimerState :=
  { s with cancel := Function.update s.cancel t cancel }

def setPurge (purge : TimerPurge) : TimerState := { s with purge := purge }

/-- `Add` of task `t` to an array. -/
def add : TimerAddedTo → TimerState
  | .scheduled => { s with scheduled := insert t s.scheduled }
  | .finished => { s with finished := insert t s.finished }

/-- `Remove` of task `t` from `alltasks`. -/
def dropFromAll : TimerState := { s with alltasks := s.alltasks.erase t }

/-- `Remove` of task `t` from `scheduled`, else from `finished`, and from `alltasks`. -/
def unlist : TimerState :=
  { s with
    scheduled := s.scheduled.erase t
    finished := if t ∈ s.scheduled then s.finished else s.finished.erase t
    alltasks := s.alltasks.erase t }

end TimerState

/-! ### Cancelling a task -/

/-- How the section of `CMUTIL_TimerTaskCancelPrivate` goes on. -/
inductive TimerCancelNext where
  | done
  | wait
  | free
  deriving DecidableEq

/-- The section of `CMUTIL_TimerTaskCancelPrivate`, called by thread `self`, up to its
first wait. -/
def timerTaskCancelPrivate (s : TimerState) (t : ℕ) (self : TimerThread) :
    TimerState × TimerCancelNext :=
  match s.tasks t with
  | none => ({ s with fault := true }, .done)
  | some task =>
      if !task.canceled && (decide (t ∈ s.scheduled) || decide (t ∈ s.finished)) then
        (s.unlist t, .free)
      else
        let task := { task with canceled := true }
        -- a task that cancels itself does not wait
        if task.dispatched && task.runner != some self then
          (s.store t { task with waiter := true }, .wait)
        else
          (s.store t task, .done)

/-- The section of the wait loop: whether the wait is over. -/
def timerTaskCancelPoll (s : TimerState) (t : ℕ) : TimerState × Bool :=
  match s.tasks t with
  | none => ({ s with fault := true }, false)
  | some task => (s, !task.dispatched)

/-- `CMUTIL_TimerTaskCancel` of task `t`, called by thread `self`. -/
def timerTaskCancel (s : TimerState) (t : ℕ) (self : TimerThread) : TimerState :=
  match timerTaskCancelPrivate s t self with
  | (s, .done) => s.setCancel t .returned
  | (s, .wait) => s.setCancel t .waiting
  | (s, .free) => s.setCancel t .freeing

/-! ### Scheduling -/

/-- The section of `CMUTIL_TimerTaskCreate`. -/
def timerTaskCreate (s : TimerState) (type : TimerTaskType) : TimerState :=
  let task : TimerTask :=
    { type := type, canceled := false, dispatched := false, waiter := false, runner := none }
  { s.store s.next task with
    scheduled := insert s.next s.scheduled
    alltasks := insert s.next s.alltasks
    next := s.next + 1 }

/-- What `CMUTIL_TimerMainLoop` does with a task whose time has come. To hand a task over
while a worker still has it counts as a fault. -/
def timerMainLoopTake (s : TimerState) (t : ℕ) : TimerState :=
  s.access t fun task =>
    { (s.store t { task with dispatched := true }).setJob t .queued with
      scheduled := s.scheduled.erase t
      fault := s.fault || s.job t != .none }

/-! ### Workers -/

/-- The section of `CMUTIL_TimerWorker` that enters the worker. -/
def timerWorkerStart (s : TimerState) (t w : ℕ) : TimerState :=
  s.access t fun task =>
    (s.store t { task with runner := some (.worker w) }).setJob t (.started w)

/-- The first look at `canceled`. -/
def timerWorkerCheck (s : TimerState) (t w : ℕ) : TimerState :=
  s.access t fun task => s.setJob t (if task.canceled then .ended w none else .running w)

/-- The task cancels itself in its procedure. It would wait for itself for ever: that
counts as a fault. -/
def timerWorkerSelfCancel (s : TimerState) (t w : ℕ) : TimerState :=
  match timerTaskCancelPrivate s t (.worker w) with
  | (s, .done) => s
  | (s, .wait) => { s with fault := true }
  | (s, .free) => s.free t

/-- The second look at `canceled`, after the procedure. -/
def timerWorkerProcEnd (s : TimerState) (t w : ℕ) : TimerState :=
  s.access t fun task =>
    let addedto : TimerAddedTo :=
      if decide (task.type = .repeated) && !task.canceled then .scheduled else .finished
    s.setJob t (.ended w (some addedto))

/-- The last section of `CMUTIL_TimerWorker`. -/
def timerWorkerReport (s : TimerState) (t w : ℕ) (addedto : Option TimerAddedTo) : TimerState :=
  s.access t fun task =>
    let s := s.store t { task with runner := none, dispatched := false }
    if task.canceled then
      (s.dropFromAll t).setJob t (if task.waiter then .none else .freeing w)
    else
      match addedto with
      | some addedto => (s.add t addedto).setJob t .none
      | none => s.setJob t .none

/-! ### Purge -/

/-- The section of `CMUTIL_TimerPurge`: `order` is `alltasks` in the order of the array. -/
def timerPurgeSnapshot (s : TimerState) (self : TimerThread) (order : List ℕ) : TimerState :=
  { s with
    tasks := fun t =>
      if t ∈ order then (s.tasks t).map fun task => { task with waiter := true } else s.tasks t
    purge := .next self order
    mark := s.next
    fault := s.fault || order.any fun t => (s.tasks t).isNone }

/-- The call of `CMUTIL_TimerTaskCancelPrivate` for the next task of the snapshot. -/
def timerPurgeNext (s : TimerState) (self : TimerThread) (t : ℕ) (rest : List ℕ) : TimerState :=
  match timerTaskCancelPrivate s t self with
  | (s, .done) => s.setPurge (.next self rest)
  | (s, .wait) => s.setPurge (.waiting self t rest)
  | (s, .free) => s.setPurge (.freeing self t rest)

/-! ### The system -/

/-- What happens next. The steps of a worker are named by the task it has. -/
inductive TimerAct where
  | schedule (type : TimerTaskType)
  | take (t : ℕ)
  | start (t w : ℕ)
  | check (t : ℕ)
  | selfCancel (t : ℕ)
  | procEnd (t : ℕ)
  | report (t : ℕ)
  | workerFree (t : ℕ)
  | cancel (t : ℕ) (self : TimerThread)
  | cancelPoll (t : ℕ)
  | cancelFree (t : ℕ)
  | purge (self : TimerThread) (order : List ℕ)
  /-- The next section of `Purge`. -/
  | purgeGo
  deriving DecidableEq

/-- `Purge` goes on. -/
def timerPurgeGo (s : TimerState) : Option TimerState :=
  match s.purge with
  | .none | .returned => none
  | .next _ [] => some (s.setPurge .returned)
  | .next self (t :: rest) => some (timerPurgeNext s self t rest)
  | .waiting self t rest =>
      match timerTaskCancelPoll s t with
      | (s, true) => some (s.setPurge (.freeing self t rest))
      | (s, false) => some s
  | .freeing self t rest => some ((s.free t).setPurge (.next self rest))

/-- One step. `selfCancels` says which tasks may cancel themselves; each of the others
is cancelled at most once, by a thread that does not run it, and before `Purge`. -/
def timerStep (selfCancels : ℕ → Bool) (s : TimerState) : TimerAct → Option TimerState
  | .schedule type => some (timerTaskCreate s type)
  | .take t => if t ∈ s.scheduled then some (timerMainLoopTake s t) else none
  | .start t w =>
      if s.job t = .queued ∧ ∀ u < s.next, (s.job u).worker ≠ some w then
        some (timerWorkerStart s t w)
      else none
  | .check t =>
      match s.job t with
      | .started w => some (timerWorkerCheck s t w)
      | _ => none
  | .selfCancel t =>
      match s.job t with
      | .running w => if selfCancels t then some (timerWorkerSelfCancel s t w) else none
      | _ => none
  | .procEnd t =>
      match s.job t with
      | .running w => some (timerWorkerProcEnd s t w)
      | _ => none
  | .report t =>
      match s.job t with
      | .ended w addedto => some (timerWorkerReport s t w addedto)
      | _ => none
  | .workerFree t =>
      match s.job t with
      | .freeing _ => some ((s.free t).setJob t .none)
      | _ => none
  | .cancel t self =>
      if t < s.next ∧ selfCancels t = false ∧ s.cancel t = .none ∧ s.purge = .none ∧
          (s.job t).worker.map .worker ≠ some self then
        some (timerTaskCancel s t self)
      else none
  | .cancelPoll t =>
      match s.cancel t with
      | .waiting =>
          match timerTaskCancelPoll s t with
          | (s, true) => some (s.setCancel t .freeing)
          | (s, false) => some s
      | _ => none
  | .cancelFree t =>
      match s.cancel t with
      | .freeing => some ((s.free t).setCancel t .returned)
      | _ => none
  | .purge self order =>
      if s.purge = .none ∧ (∀ t < s.next, s.cancel t = .none ∨ s.cancel t = .returned) ∧
          order.Nodup ∧ order.toFinset = s.alltasks then
        some (timerPurgeSnapshot s self order)
      else none
  | .purgeGo => timerPurgeGo s

/-- A timer and its threads. -/
def timerSystem (selfCancels : ℕ → Bool) : TransitionSystem TimerState TimerAct where
  init s := s = .start
  step := timerStep selfCancels

end LibCmutils
