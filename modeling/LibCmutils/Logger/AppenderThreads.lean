import LibCmutils.Lib.Threads
import LibCmutils.Lib.Transition
import LibCmutils.Logger.Appender

/-!
An appender and the threads that use it (`src/logger.c`).

* `AppenderThread`: a thread, inside `Flush` or not, and where it goes on: in `Append`, in the
  loop of the writer thread, or in `Destroy`.
* `AppenderState`: the appender, its mutex, and the threads. `AppenderState.flushStep` and
  `AppenderState.pcStep` are the steps of a thread in `Flush` and outside of it.
* `appenderSystem`: the threads interleaved. Some threads log, each by calls of its own; one
  is the writer thread; one destroys the appender after the last call.
* `AppenderThread.depth`, `AppenderThread.lines`, `AppenderThread.stage`: how often a thread
  holds the mutex, the lines it has yet to append, and what it is about.
-/

namespace LibCmutils

universe u

/-! ### Threads -/

/-- A call of a thread that logs. -/
inductive LogCall where
  | append (item : LogItem)
  | flush
  deriving DecidableEq

/-- The lines that are appended by calls. -/
def appendedLines : List LogCall → List LogItem
  | [] => []
  | .append item :: calls => item :: appendedLines calls
  | .flush :: calls => appendedLines calls

/-- A place in `Flush`. -/
inductive FlushPc where
  /-- Before the test of `isasync`, which only the console has. -/
  | enter
  | lock
  /-- Before the `fopen` of a file appender. -/
  | opening
  /-- Before `MoveAll`. -/
  | moving
  /-- Before what is done for the first line. -/
  | front
  | loop
  | unlock
  deriving DecidableEq

/-- A place outside of `Flush`. -/
inductive AppenderPc where
  /-- Between two calls. -/
  | call (calls : List LogCall)
  /-- In `Append`, when `isasync` was read. -/
  | lockAppend (item : LogItem) (calls : List LogCall)
  | addTail (item : LogItem) (calls : List LogCall)
  | checkSize (calls : List LogCall)
  | lockWrite (item : LogItem) (calls : List LogCall)
  | write (item : LogItem) (calls : List LogCall)
  | unlock (calls : List LogCall)
  /-- In `CMUTIL_LogAppenderAsyncWriter`. -/
  | writerLoop
  /-- Before `Destroy`, which comes after the last call. -/
  | joinCallers
  /-- In `CMUTIL_LogAppenderBaseClean`. -/
  | checkBuffer
  | clearAsync
  | joinWriter
  | done
  deriving DecidableEq

/-- A thread: a place in `Flush`, or none, and the place to go on from. -/
structure AppenderThread where
  flush : Option FlushPc
  pc : AppenderPc
  deriving DecidableEq

/-- The names of the threads. -/
inductive AppenderTid (ι : Type u) where
  | caller (i : ι)
  | writer
  | destroyer
  deriving DecidableEq

/-- An appender and the threads. `order` lists the lines in the order in which their threads
took the mutex to append them. `fault`: a buffer was used that is not there. -/
structure AppenderState (ι : Type u) where
  base : LogAppenderBase
  mutex : Mutex (AppenderTid ι)
  order : List (AppenderTid ι × LogItem)
  fault : Bool
  threads : AppenderTid ι → AppenderThread

section Steps

variable (strftime : Strftime) {ι : Type u} [DecidableEq ι]

namespace AppenderState

/-- Thread `t` becomes `th`. -/
def become (s : AppenderState ι) (t : AppenderTid ι) (th : AppenderThread) : AppenderState ι :=
  { s with threads := Function.update s.threads t th }

@[simp] lemma become_self (s : AppenderState ι) (t : AppenderTid ι) (th : AppenderThread) :
    (s.become t th).threads t = th :=
  Function.update_self ..

lemma become_of_ne (s : AppenderState ι) {t u : AppenderTid ι} (th : AppenderThread) (h : u ≠ t) :
    (s.become t th).threads u = s.threads u :=
  Function.update_of_ne h ..

/-- The appender becomes `b`. -/
def withBase (s : AppenderState ι) (b : LogAppenderBase) : AppenderState ι := { s with base := b }

/-- The output becomes `o`. -/
def withOutput (s : AppenderState ι) (o : LogOutput) : AppenderState ι :=
  s.withBase { s.base with output := o }

/-- A step in `Flush`. -/
def flushStep (s : AppenderState ι) (t : AppenderTid ι) (pc : AppenderPc) :
    FlushPc → Option (AppenderState ι)
  | .enter =>
      if s.base.kind = .console ∧ s.base.isasync = false then some (s.become t ⟨none, pc⟩)
      else some (s.become t ⟨some .lock, pc⟩)
  | .lock => (s.mutex.lock t).map fun m => { s with mutex := m }.become t ⟨some .opening, pc⟩
  | .opening =>
      some ((s.withOutput (flushOpen s.base.kind s.base.output)).become t ⟨some .moving, pc⟩)
  | .moving =>
      match s.base.moveAll with
      | none => some { s with fault := true }
      | some b => some ((s.withBase b).become t ⟨some .front, pc⟩)
  | .front =>
      match s.base.flushed with
      | [] => some (s.become t ⟨some .loop, pc⟩)
      | item :: _ =>
          some ((s.withOutput (flushFront strftime s.base.kind item s.base.output)).become t
            ⟨some .loop, pc⟩)
  | .loop =>
      match s.base.flushed with
      | [] => some (s.become t ⟨some .unlock, pc⟩)
      | item :: list =>
          some ((s.withBase { s.base with
            flushBuffer := some list
            output := flushItem strftime s.base.kind item s.base.output }).become t
              ⟨some .loop, pc⟩)
  | .unlock => (s.mutex.unlock t).map fun m => { s with mutex := m }.become t ⟨none, pc⟩

/-- Taking the mutex to append a line. -/
def lockFor (s : AppenderState ι) (t : AppenderTid ι) (item : LogItem) (pc : AppenderPc) :
    Option (AppenderState ι) :=
  (s.mutex.lock t).map fun m =>
    { s with mutex := m, order := s.order ++ [(t, item)] }.become t ⟨none, pc⟩

/-- Every thread that logs has made its calls. -/
def Joined (s : AppenderState ι) : Prop := ∀ i, s.threads (.caller i) = ⟨none, .call []⟩

instance decidableJoined [Fintype ι] (s : AppenderState ι) : Decidable s.Joined :=
  inferInstanceAs (Decidable (∀ _, _))

/-- A step outside of `Flush`. The `Write` of the console flushes as well, which does nothing
more in an appender that is not asynchronous. The writer thread flushes once more when it
leaves its loop. -/
def pcStep [Fintype ι] (s : AppenderState ι) (t : AppenderTid ι) :
    AppenderPc → Option (AppenderState ι)
  | .call [] => none
  | .call (.append item :: calls) =>
      some (s.become t ⟨none,
        if s.base.isasync then .lockAppend item calls else .lockWrite item calls⟩)
  | .call (.flush :: calls) => some (s.become t ⟨some .enter, .call calls⟩)
  | .lockAppend item calls => s.lockFor t item (.addTail item calls)
  | .addTail item calls =>
      match s.base.addTail item with
      | none => some { s with fault := true }
      | some b => some ((s.withBase b).become t ⟨none, .checkSize calls⟩)
  | .checkSize calls =>
      some (s.become t ⟨if s.base.buffersz ≤ s.base.buffered.length then some .enter else none,
        .unlock calls⟩)
  | .lockWrite item calls => s.lockFor t item (.write item calls)
  | .write item calls =>
      some ((s.withOutput (appenderWrite strftime s.base.kind s.base.output item)).become t
        ⟨none, .unlock calls⟩)
  | .unlock calls =>
      (s.mutex.unlock t).map fun m => { s with mutex := m }.become t ⟨none, .call calls⟩
  | .writerLoop =>
      some (s.become t ⟨some .enter, if s.base.isasync then .writerLoop else .done⟩)
  | .joinCallers => if s.Joined then some (s.become t ⟨none, .checkBuffer⟩) else none
  | .checkBuffer =>
      some (s.become t ⟨if s.base.buffered = [] then none else some .enter, .clearAsync⟩)
  | .clearAsync =>
      some ((s.withBase { s.base with isasync := false }).become t ⟨none, .joinWriter⟩)
  | .joinWriter =>
      if s.threads .writer = ⟨none, .done⟩ then some (s.become t ⟨none, .done⟩) else none
  | .done => none

/-- A step of a thread. -/
def step [Fintype ι] (s : AppenderState ι) (t : AppenderTid ι) : Option (AppenderState ι) :=
  if s.fault then none
  else
    match (s.threads t).flush with
    | some place => s.flushStep strftime t (s.threads t).pc place
    | none => s.pcStep strftime t (s.threads t).pc

/-- A step of a thread outside of `Flush`. -/
lemma step_outside [Fintype ι] {s : AppenderState ι} {t : AppenderTid ι} {pc : AppenderPc}
    (hfault : s.fault = false) (hth : s.threads t = ⟨none, pc⟩) :
    s.step strftime t = s.pcStep strftime t pc := by
  rw [step, hfault, hth]
  rfl

/-- A step of a thread in `Flush`. -/
lemma step_inside [Fintype ι] {s : AppenderState ι} {t : AppenderTid ι} {place : FlushPc}
    {pc : AppenderPc} (hfault : s.fault = false) (hth : s.threads t = ⟨some place, pc⟩) :
    s.step strftime t = s.flushStep strftime t pc place := by
  rw [step, hfault, hth]
  rfl

/-- The appender is destroyed. -/
def Finished (s : AppenderState ι) : Prop := s.threads .destroyer = ⟨none, .done⟩

instance decidableFinished (s : AppenderState ι) : Decidable s.Finished :=
  inferInstanceAs (Decidable (_ = _))

end AppenderState

/-- The threads before they start. There is a writer thread in an asynchronous appender. -/
def appenderThreads (b : LogAppenderBase) (calls : ι → List LogCall) :
    AppenderTid ι → AppenderThread
  | .caller i => ⟨none, .call (calls i)⟩
  | .writer => ⟨none, if b.isasync then .writerLoop else .done⟩
  | .destroyer => ⟨none, .joinCallers⟩

/-- An appender before it is used. -/
def appenderStart (b : LogAppenderBase) (calls : ι → List LogCall) : AppenderState ι where
  base := b
  mutex := .free
  order := []
  fault := false
  threads := appenderThreads b calls

/-- An appender that threads use, each by its list of calls. -/
def appenderSystem [Fintype ι] (b : LogAppenderBase) (calls : ι → List LogCall) :
    TransitionSystem (AppenderState ι) (AppenderTid ι) where
  init s := s = appenderStart b calls
  step := AppenderState.step strftime

/-- The state after steps of threads in the given order. -/
def appenderAfter [Fintype ι] (b : LogAppenderBase) (calls : ι → List LogCall)
    (schedule : List (AppenderTid ι)) : AppenderState ι :=
  ((appenderSystem strftime b calls).run (appenderStart b calls) schedule).getD
    (appenderStart b calls)

lemma appenderAfter_reachable [Fintype ι] (b : LogAppenderBase) (calls : ι → List LogCall)
    (schedule : List (AppenderTid ι)) :
    (appenderSystem strftime b calls).Reachable (appenderAfter strftime b calls schedule) :=
  TransitionSystem.Reachable.run_getD schedule (.start rfl)

end Steps

/-! ### Threads and the mutex -/

/-- How often a place in `Flush` holds the mutex. -/
def FlushPc.depth : FlushPc → ℕ
  | enter | lock => 0
  | opening | moving | front | loop | unlock => 1

/-- How often a place outside of `Flush` holds the mutex. -/
def AppenderPc.depth : AppenderPc → ℕ
  | addTail _ _ | checkSize _ | write _ _ | unlock _ => 1
  | _ => 0

/-- How often a thread holds the mutex. -/
def AppenderThread.depth (th : AppenderThread) : ℕ :=
  th.flush.elim 0 FlushPc.depth + th.pc.depth

/-- The lines that a thread has yet to append. -/
def AppenderThread.lines (th : AppenderThread) : List LogItem :=
  match th.pc with
  | .call calls => appendedLines calls
  | .lockAppend item calls | .lockWrite item calls => item :: appendedLines calls
  | .addTail _ calls | .checkSize calls | .write _ calls | .unlock calls => appendedLines calls
  | _ => []

/-- What the thread that holds the mutex is about. -/
inductive AppenderStage where
  | quiet
  /-- It has taken the mutex to append a line. -/
  | pending (item : LogItem)
  /-- It has opened its file. -/
  | opened
  /-- It has moved the buffer. -/
  | front
  | loop

/-- The stage of a thread. -/
def AppenderThread.stage (th : AppenderThread) : AppenderStage :=
  match th.flush, th.pc with
  | some .moving, _ => .opened
  | some .front, _ => .front
  | some .loop, _ => .loop
  | none, .addTail item _ | none, .write item _ => .pending item
  | _, _ => .quiet

/-- A thread is quiet unless it holds the mutex. -/
lemma AppenderThread.stage_of_depth {th : AppenderThread} (h : th.depth = 0) :
    th.stage = .quiet := by
  obtain ⟨flush, pc⟩ := th
  rcases flush with _ | place
  · cases pc <;> simp_all [AppenderThread.depth, AppenderThread.stage, AppenderPc.depth]
  · cases place <;> simp_all [AppenderThread.depth, AppenderThread.stage, FlushPc.depth]

end LibCmutils
