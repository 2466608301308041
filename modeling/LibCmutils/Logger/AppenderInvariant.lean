import LibCmutils.Logger.AppenderThreads

/-!
The invariant of an appender that threads use.

* `AppenderInv`: the invariant. `AppenderInv.holds` is its center: printing what is still in
  the buffers, and then the line that the owner of the mutex has in hand, comes to printing
  all lines in the order in which their threads took the mutex.
* `AppenderMove`: what a step of a thread has to show; `AppenderInv.move` makes the invariant
  of it. `AppenderInv.flushStep`, `AppenderInv.callerStep`, `AppenderInv.writerStep`,
  `AppenderInv.destroyerStep`: the steps.
* `AppenderInv.finished`: what is printed when the appender is destroyed.
  `AppenderInv.progress`: until then some thread can take a step.
-/

namespace LibCmutils

universe u

/-! ### The invariant -/

section Invariant

variable (strftime : Strftime) {ι : Type u}

/-- What is left to print: the flush buffer, the buffer, and the line in hand. -/
def LogAppenderBase.left (b : LogAppenderBase) (hand : List LogItem) : List LogItem :=
  b.flushed ++ b.buffered ++ hand

/-- Printing what is left comes to printing all lines in order, apart from a file that was
opened and has nothing in it yet. -/
def Settles (o₀ : LogOutput) (order : List LogItem) (b : LogAppenderBase)
    (hand : List LogItem) : Prop :=
  let all := order.foldl (appenderWrite strftime b.kind) o₀
  (b.left hand).foldl (appenderWrite strftime b.kind) b.output = all ∨
    (b.left hand).foldl (appenderWrite strftime b.kind) b.output = flushOpen b.kind all

/-- What the thread that holds the mutex relies on. -/
def StageHolds (o₀ : LogOutput) (order : List LogItem) (b : LogAppenderBase) : AppenderStage → Prop
  | .quiet => b.flushed = [] ∧ Settles strftime o₀ order b []
  | .pending item => b.flushed = [] ∧ Settles strftime o₀ order b [item]
  | .opened => Opened b.kind b.output ∧ b.flushed = [] ∧ Settles strftime o₀ order b []
  | .front => Opened b.kind b.output ∧ Settles strftime o₀ order b []
  | .loop => (b.flushed ≠ [] → Ready b.kind b.output) ∧ Settles strftime o₀ order b []

/-- Where a thread may be. A line is printed at once only in an appender that is not
asynchronous. -/
def AppenderThread.Fits (mode : Bool) (th : AppenderThread) : AppenderTid ι → Prop
  | .caller _ =>
      match th.pc with
      | .call _ | .unlock _ => True
      | .lockWrite _ _ | .write _ _ => th.flush = none ∧ mode = false
      | .writerLoop | .joinCallers | .checkBuffer | .clearAsync | .joinWriter | .done => False
      | _ => th.flush = none
  | .writer => th.pc = .writerLoop ∨ th.pc = .done
  | .destroyer =>
      match th.pc with
      | .clearAsync => True
      | .joinCallers | .checkBuffer | .joinWriter | .done => th.flush = none
      | _ => False

/-- In `Flush`, the place to go on from is a quiet one. -/
lemma AppenderThread.Fits.leave {mode : Bool} {t : AppenderTid ι} {place : FlushPc} {pc : AppenderPc}
    (h : (⟨some place, pc⟩ : AppenderThread).Fits mode t) :
    AppenderThread.Fits mode ⟨none, pc⟩ t ∧ AppenderThread.stage ⟨none, pc⟩ = .quiet := by
  cases t <;> cases pc <;> simp_all [AppenderThread.Fits, AppenderThread.stage]

/-- In `Flush`, a thread may go on in `Flush`. -/
lemma AppenderThread.Fits.stay {mode : Bool} {t : AppenderTid ι} {place place' : FlushPc} {pc : AppenderPc}
    (h : (⟨some place, pc⟩ : AppenderThread).Fits mode t) :
    AppenderThread.Fits mode ⟨some place', pc⟩ t := by
  cases t <;> cases pc <;> simp_all [AppenderThread.Fits]

/-- `Flush` has yet to move the buffer. -/
def FlushPc.early : FlushPc → Bool
  | enter | lock | opening | moving => true
  | front | loop | unlock => false

/-- How far the destruction is, by the thread that destroys. `mode`: the appender is an
asynchronous one. -/
def PhaseAt (mode isasync : Bool) (joined : Prop) (buffered : List LogItem) (written : Prop)
    (th : AppenderThread) : Prop :=
  match th.pc with
  | .joinCallers => isasync = mode
  | .checkBuffer => isasync = mode ∧ joined
  | .clearAsync =>
      isasync = mode ∧ joined ∧ (th.flush.elim false FlushPc.early = false → buffered = [])
  | .joinWriter => joined ∧ buffered = []
  | .done => joined ∧ buffered = [] ∧ written
  | _ => False

/-- How far the destruction is. -/
def AppenderState.Phase (s : AppenderState ι) (mode : Bool) : Prop :=
  PhaseAt mode s.base.isasync s.Joined s.base.buffered (s.threads .writer = ⟨none, .done⟩)
    (s.threads .destroyer)

variable [DecidableEq ι]

/-- The lines of a thread in an order of lines. -/
def linesOf (t : AppenderTid ι) (order : List (AppenderTid ι × LogItem)) : List LogItem :=
  (order.filter fun entry => entry.1 = t).map Prod.snd

/-- **The invariant** of an appender that was `b₀` before the threads started. -/
structure AppenderInv (b₀ : LogAppenderBase) (calls : ι → List LogCall) (s : AppenderState ι) :
    Prop where
  kind : s.base.kind = b₀.kind
  buffer : s.base.buffer.isSome = b₀.isasync
  flushBuffer : s.base.flushBuffer.isSome = b₀.isasync
  fault : s.fault = true → b₀.isasync = false
  fits : ∀ t, (s.threads t).Fits b₀.isasync t
  phase : s.Phase b₀.isasync
  depth : ∀ t, s.mutex.depth t = (s.threads t).depth
  taken : ∀ t, linesOf t s.order ++ (s.threads t).lines = (appenderThreads b₀ calls t).lines
  holds : ∀ t, (∀ u, u ≠ t → s.mutex.depth u = 0) →
    StageHolds strftime b₀.output (s.order.map Prod.snd) s.base (s.threads t).stage

/-- What a step of thread `t` has to show: what it does to the appender, to the mutex and to
the order agrees with what becomes of the thread. -/
structure AppenderMove (mode : Bool) (s : AppenderState ι) (t : AppenderTid ι) (b : LogAppenderBase)
    (m : Mutex (AppenderTid ι)) (new : List LogItem) (th : AppenderThread) : Prop where
  kind : b.kind = s.base.kind
  buffer : b.buffer.isSome = s.base.buffer.isSome
  flushBuffer : b.flushBuffer.isSome = s.base.flushBuffer.isSome
  fits : (s.threads t).Fits mode t → th.Fits mode t
  own : s.mutex.depth t = (s.threads t).depth → m.depth t = th.depth
  others : ∀ u, u ≠ t → m.depth u = s.mutex.depth u
  lines : (s.threads t).lines = new ++ th.lines
  holds : ∀ o₀ order, StageHolds strftime o₀ order s.base (s.threads t).stage →
    StageHolds strftime o₀ (order ++ new) b th.stage
  frame : (s.threads t).depth = 0 → th.depth = 0 →
    b.buffer = s.base.buffer ∧ b.flushBuffer = s.base.flushBuffer ∧ b.output = s.base.output ∧
      new = []

variable {strftime} {mode : Bool} {b₀ : LogAppenderBase} {calls : ι → List LogCall} {s : AppenderState ι}
  {t : AppenderTid ι} {b : LogAppenderBase} {m : Mutex (AppenderTid ι)} {new : List LogItem}
  {th : AppenderThread}

/-- What the owner of the mutex relies on is about the kind, the buffers and the output. -/
lemma StageHolds.congr {o₀ : LogOutput} {order : List LogItem} {b b' : LogAppenderBase}
    {stage : AppenderStage} (h : StageHolds strftime o₀ order b stage) (hkind : b'.kind = b.kind)
    (hbuffer : b'.buffer = b.buffer) (hflush : b'.flushBuffer = b.flushBuffer)
    (houtput : b'.output = b.output) : StageHolds strftime o₀ order b' stage := by
  obtain ⟨kind, isasync, buffersz, buffer, flushBuffer, output⟩ := b
  obtain ⟨kind', isasync', buffersz', buffer', flushBuffer', output'⟩ := b'
  obtain rfl : kind' = kind := hkind
  obtain rfl : buffer' = buffer := hbuffer
  obtain rfl : flushBuffer' = flushBuffer := hflush
  obtain rfl : output' = output := houtput
  cases stage <;> exact h

/-- A step that shows this keeps the invariant, when the destruction is where it should be. -/
lemma AppenderInv.move (hi : AppenderInv strftime b₀ calls s)
    (hm : AppenderMove strftime b₀.isasync s t b m new th)
    {s' : AppenderState ι}
    (hs' : s' = {
      base := b
      mutex := m
      order := s.order ++ new.map (Prod.mk t)
      fault := s.fault
      threads := Function.update s.threads t th })
    (hphase : s'.Phase b₀.isasync) : AppenderInv strftime b₀ calls s' := by
  have hthread : s'.threads t = th := by rw [hs']; exact Function.update_self ..
  have hother : ∀ u, u ≠ t → s'.threads u = s.threads u := fun u hu => by
    rw [hs']; exact Function.update_of_ne hu ..
  have hdepth : ∀ u, s'.mutex.depth u = (s'.threads u).depth := by
    intro u
    by_cases hu : u = t
    · subst hu
      rw [hthread, hs']
      exact hm.own (hi.depth u)
    · rw [hother u hu, ← hi.depth u, hs']
      exact hm.others u hu
  have horder : s'.order.map Prod.snd = s.order.map Prod.snd ++ new := by
    simp [hs', Function.comp_def]
  have hholds : (∀ u, u ≠ t → s'.mutex.depth u = 0) →
      StageHolds strftime b₀.output (s'.order.map Prod.snd) s'.base th.stage := by
    intro hfree
    rw [horder, hs']
    refine hm.holds _ _ (hi.holds t fun u hu => ?_)
    rw [← hm.others u hu]
    simpa [hs'] using hfree u hu
  subst hs'
  refine ⟨hm.kind.trans hi.kind, hm.buffer.trans hi.buffer, hm.flushBuffer.trans hi.flushBuffer,
    hi.fault, fun u => ?_, hphase, hdepth, fun u => ?_, fun u hfree => ?_⟩
  · by_cases hu : u = t
    · subst hu
      rw [hthread]
      exact hm.fits (hi.fits u)
    · rw [hother u hu]
      exact hi.fits u
  · rw [← hi.taken u]
    by_cases hu : u = t
    · subst hu
      rw [hthread, hm.lines, ← List.append_assoc]
      simp [linesOf, List.filter_map, Function.comp_def]
    · rw [hother u hu]
      simp [linesOf, List.filter_map, Function.comp_def, Ne.symm hu]
  · by_cases hu : u = t
    · subst hu
      rw [hthread]
      exact hholds hfree
    · rw [hother u hu]
      have hquiet : th.depth = 0 := by
        rw [← hthread, ← hdepth]
        exact hfree t (Ne.symm hu)
      by_cases hdu : s.mutex.depth u = 0
      · -- The mutex is free now: the two threads are both quiet.
        rw [AppenderThread.stage_of_depth ((hi.depth u).symm.trans hdu),
          ← AppenderThread.stage_of_depth hquiet]
        refine hholds fun v hv => ?_
        by_cases hvu : v = u
        · subst hvu
          exact (hm.others v hu).trans hdu
        · exact hfree v hvu
      · -- Another thread holds the mutex: this one has changed nothing it relies on.
        have hdt : ∀ v, v ≠ u → s.mutex.depth v = 0 := by
          intro v hv
          by_contra hne
          exact hv (Mutex.exclusive (Nat.pos_of_ne_zero hne) (Nat.pos_of_ne_zero hdu))
        obtain ⟨hbuffer, hflush, houtput, rfl⟩ := hm.frame
          ((hi.depth t).symm.trans (hdt t (Ne.symm hu))) hquiet
        rw [horder, List.append_nil]
        exact (hi.holds u hdt).congr hm.kind hbuffer hflush houtput

/-! ### Kinds of steps -/

/-- A step that changes the thread only. -/
lemma AppenderMove.quiet (hfits : (s.threads t).Fits mode t → th.Fits mode t)
    (hdepth : th.depth = (s.threads t).depth) (hlines : (s.threads t).lines = th.lines)
    (hholds : ∀ o₀ order, StageHolds strftime o₀ order s.base (s.threads t).stage →
      StageHolds strftime o₀ order s.base th.stage) :
    AppenderMove strftime mode s t s.base s.mutex [] th where
  kind := rfl
  buffer := rfl
  flushBuffer := rfl
  fits := hfits
  own h := h.trans hdepth.symm
  others _ _ := rfl
  lines := hlines
  holds o₀ order h := by
    rw [List.append_nil]
    exact hholds o₀ order h
  frame _ _ := ⟨rfl, rfl, rfl, rfl⟩

/-- A step that takes the mutex, to append the line `new` or for `Flush`. -/
lemma AppenderMove.lock (hlock : s.mutex.lock t = some m)
    (hfits : (s.threads t).Fits mode t → th.Fits mode t) (hdepth : th.depth = (s.threads t).depth + 1)
    (hlines : (s.threads t).lines = new ++ th.lines)
    (hholds : ∀ o₀ order, StageHolds strftime o₀ order s.base (s.threads t).stage →
      StageHolds strftime o₀ (order ++ new) s.base th.stage) :
    AppenderMove strftime mode s t s.base m new th where
  kind := rfl
  buffer := rfl
  flushBuffer := rfl
  fits := hfits
  own h := by
    rw [Mutex.depth_lock hlock, Function.update_self, h, hdepth]
  others u hu := by
    rw [Mutex.depth_lock hlock, Function.update_of_ne hu]
  lines := hlines
  holds := hholds
  frame _ h := absurd h (by omega)

/-- A step that gives the mutex back. -/
lemma AppenderMove.unlock (hunlock : s.mutex.unlock t = some m)
    (hfits : (s.threads t).Fits mode t → th.Fits mode t) (hdepth : (s.threads t).depth = th.depth + 1)
    (hlines : (s.threads t).lines = th.lines) (hstage : (s.threads t).stage = th.stage) :
    AppenderMove strftime mode s t s.base m [] th where
  kind := rfl
  buffer := rfl
  flushBuffer := rfl
  fits := hfits
  own h := by
    have hone := (Mutex.depth_unlock hunlock).1
    omega
  others := (Mutex.depth_unlock hunlock).2
  lines := hlines
  holds o₀ order h := by
    rw [List.append_nil, ← hstage]
    exact h
  frame h _ := absurd h (by omega)

/-- A step of the thread that holds the mutex. -/
lemma AppenderMove.inside (hkind : b.kind = s.base.kind)
    (hbuffer : b.buffer.isSome = s.base.buffer.isSome)
    (hflush : b.flushBuffer.isSome = s.base.flushBuffer.isSome)
    (hfits : (s.threads t).Fits mode t → th.Fits mode t) (hdepth : th.depth = (s.threads t).depth)
    (hpos : 0 < th.depth) (hlines : (s.threads t).lines = th.lines)
    (hholds : ∀ o₀ order, StageHolds strftime o₀ order s.base (s.threads t).stage →
      StageHolds strftime o₀ order b th.stage) :
    AppenderMove strftime mode s t b s.mutex [] th where
  kind := hkind
  buffer := hbuffer
  flushBuffer := hflush
  fits := hfits
  own h := h.trans hdepth.symm
  others _ _ := rfl
  lines := hlines
  holds o₀ order h := by
    rw [List.append_nil]
    exact hholds o₀ order h
  frame _ h := absurd h hpos.ne'

/-! ### What is left to print -/

section Settles

variable {o₀ : LogOutput} {order hand : List LogItem} {item : LogItem} {list : List LogItem}

/-- The owner of the mutex takes a line in hand that comes last in the order. -/
lemma Settles.take (h : Settles strftime o₀ order b []) :
    Settles strftime o₀ (order ++ [item]) b [item] := by
  left
  rw [LogAppenderBase.left, List.foldl_concat, List.foldl_concat]
  have hall : (b.flushed ++ b.buffered).foldl (appenderWrite strftime b.kind) b.output =
      order.foldl (appenderWrite strftime b.kind) o₀ ∨
      (b.flushed ++ b.buffered).foldl (appenderWrite strftime b.kind) b.output =
        flushOpen b.kind (order.foldl (appenderWrite strftime b.kind) o₀) := by
    simpa only [Settles, LogAppenderBase.left, List.append_nil] using h
  rcases hall with hall | hall
  · rw [hall]
  · rw [hall]
    exact write_flushOpen

/-- What is left may be split among the buffers and the hand in another way. -/
lemma Settles.congr {b' : LogAppenderBase} {hand' : List LogItem}
    (h : Settles strftime o₀ order b hand) (hkind : b'.kind = b.kind)
    (hleft : (b'.left hand').foldl (appenderWrite strftime b.kind) b'.output =
      (b.left hand).foldl (appenderWrite strftime b.kind) b.output) :
    Settles strftime o₀ order b' hand' := by
  rw [Settles, hkind, hleft]
  exact h

/-- Opening the file before the lines are printed. -/
lemma Settles.open (h : Settles strftime o₀ order b []) :
    Settles strftime o₀ order { b with output := flushOpen b.kind b.output } [] := by
  have hleft : LogAppenderBase.left { b with output := flushOpen b.kind b.output } [] = b.left [] :=
    rfl
  rw [Settles, hleft]
  rw [Settles] at h
  generalize b.left [] = rest at h ⊢
  cases rest with
  | nil =>
      right
      rcases h with h | h
      · exact congrArg (flushOpen b.kind) h
      · exact (congrArg (flushOpen b.kind) h).trans flushOpen_flushOpen
  | cons item rest =>
      simp only [List.foldl_cons] at h ⊢
      rw [write_flushOpen]
      exact h

end Settles

/-! ### The destruction -/

/-- A step that is not one of `Destroy` itself leaves the destruction where it is. -/
lemma AppenderState.Phase.move (h : s.Phase mode) {s' : AppenderState ι}
    (hthreads : s'.threads = Function.update s.threads t th)
    (hasync : s'.base.isasync = s.base.isasync)
    (hbuffered : s'.base.buffered = s.base.buffered ∨ s'.base.buffered = [] ∨ ∃ i, t = .caller i)
    (hcall : s.threads t ≠ ⟨none, .call []⟩) (hdone : s.threads t ≠ ⟨none, .done⟩)
    (hdestroy : t = .destroyer → th.pc = (s.threads t).pc ∧ ((s.threads t).pc = .clearAsync ∧
      (th.flush.elim false FlushPc.early = false → s'.base.buffered = []))) : s'.Phase mode := by
  have hjoined : ∀ u, t = u → (∀ i, u ≠ .caller i) → s.Joined → s'.Joined := by
    intro u hu hne hj i
    rw [hthreads, Function.update_of_ne (hu ▸ (hne i).symm)]
    exact hj i
  have hempty : s.base.buffered = [] → (∀ i, t ≠ .caller i) → s'.base.buffered = [] := by
    rintro hnil hne
    rcases hbuffered with heq | hnil | ⟨i, hi⟩
    · rw [heq, hnil]
    · exact hnil
    · exact absurd hi (hne i)
  rw [Phase, hasync]
  rw [Phase] at h
  cases t with
  | caller i =>
      have hthread : s'.threads .destroyer = s.threads .destroyer := by
        rw [hthreads]; exact Function.update_of_ne (by simp) ..
      have hnot : ¬ s.Joined := fun hj => hcall (hj i)
      rw [hthread]
      generalize s.threads .destroyer = thd at h ⊢
      obtain ⟨flush, pc⟩ := thd
      cases pc <;> simp_all [PhaseAt]
  | writer =>
      have hthread : s'.threads .destroyer = s.threads .destroyer := by
        rw [hthreads]; exact Function.update_of_ne (by simp) ..
      have hj := hjoined .writer rfl (by simp)
      have he := fun hnil => hempty hnil (by simp)
      rw [hthread]
      generalize s.threads .destroyer = thd at h ⊢
      obtain ⟨flush, pc⟩ := thd
      cases pc with
      | joinCallers => exact h
      | checkBuffer => exact ⟨h.1, hj h.2⟩
      | clearAsync => exact ⟨h.1, hj h.2.1, fun hearly => he (h.2.2 hearly)⟩
      | joinWriter => exact ⟨hj h.1, he h.2⟩
      | done => exact absurd h.2.2 hdone
      | _ => exact h
  | destroyer =>
      have hthread : s'.threads .destroyer = th := by
        rw [hthreads]; exact Function.update_self ..
      have hj := hjoined .destroyer rfl (by simp)
      obtain ⟨hpc, hclear, hearly⟩ := hdestroy rfl
      rw [hthread]
      simp only [PhaseAt, hclear] at h
      simp only [PhaseAt, hpc, hclear]
      exact ⟨h.1, hj h.2.1, hearly⟩

/-! ### Steps in `Flush` -/

section Flush

variable {place : FlushPc} {pc : AppenderPc}

/-- A step in `Flush` goes on in `Flush` or leaves it; the thread goes on where it was. -/
lemma AppenderInv.flushMove (hi : AppenderInv strftime b₀ calls s) {next : Option FlushPc}
    (hth : s.threads t = ⟨some place, pc⟩) (hm : AppenderMove strftime b₀.isasync s t b m [] ⟨next, pc⟩)
    (hasync : b.isasync = s.base.isasync)
    (hbuffered : b.buffered = s.base.buffered ∨ b.buffered = [])
    (hearly : t = .destroyer → next.elim false FlushPc.early = false →
      place.early = false ∨ b.buffered = []) :
    AppenderInv strftime b₀ calls ({ s with base := b, mutex := m }.become t ⟨next, pc⟩) := by
  refine hi.move hm (by simp [AppenderState.become]) (hi.phase.move rfl hasync ?_ ?_ ?_ ?_)
  · exact hbuffered.imp id .inl
  · simp [hth]
  · simp [hth]
  · rintro rfl
    have hfits := hi.fits .destroyer
    rw [hth] at hfits ⊢
    refine ⟨rfl, ?_⟩
    have hpc : pc = .clearAsync := by
      cases pc <;> simp_all [AppenderThread.Fits]
    refine ⟨hpc, fun hnext => ?_⟩
    have hphase := hi.phase
    rw [AppenderState.Phase, hth, hpc] at hphase
    rcases hearly rfl hnext with hplace | hnil
    · have hnil := hphase.2.2 hplace
      rcases hbuffered with hsame | hnil'
      · exact hsame.trans hnil
      · exact hnil'
    · exact hnil

/-- A step from one place in `Flush` to the next, by the thread that holds the mutex. -/
lemma AppenderInv.flushInside (hi : AppenderInv strftime b₀ calls s) {place' : FlushPc}
    (hth : s.threads t = ⟨some place, pc⟩) (hdepth : place'.depth = place.depth)
    (hpos : 0 < place.depth) (hkind : b.kind = s.base.kind) (hasync : b.isasync = s.base.isasync)
    (hbuffer : b.buffer.isSome = s.base.buffer.isSome)
    (hflush : b.flushBuffer.isSome = s.base.flushBuffer.isSome)
    (hbuffered : b.buffered = s.base.buffered ∨ b.buffered = [])
    (hearly : place'.early = false → place.early = false ∨ b.buffered = [])
    (hholds : ∀ o₀ order, StageHolds strftime o₀ order s.base (AppenderThread.stage ⟨some place, pc⟩) →
      StageHolds strftime o₀ order b (AppenderThread.stage ⟨some place', pc⟩)) :
    AppenderInv strftime b₀ calls ({ s with base := b }.become t ⟨some place', pc⟩) := by
  have hfits := hi.fits t
  rw [hth] at hfits
  refine hi.flushMove hth (.inside hkind hbuffer hflush (fun _ => hfits.stay) ?_ ?_ ?_ ?_) hasync
    hbuffered fun _ => hearly
  · rw [hth]
    exact congrArg (· + pc.depth) hdepth
  · exact Nat.add_pos_left (hpos.trans_eq hdepth.symm) _
  · rw [hth]
    rfl
  · rw [hth]
    exact hholds

/-- What `MoveAll` leaves. -/
lemma moveAll_eq_some {b b' : LogAppenderBase} (h : b.moveAll = some b') :
    b'.kind = b.kind ∧ b'.isasync = b.isasync ∧ b'.output = b.output ∧
      b'.flushed = b.flushed ++ b.buffered ∧ b'.buffered = [] ∧
      b'.buffer.isSome = b.buffer.isSome ∧ b'.flushBuffer.isSome = b.flushBuffer.isSome := by
  obtain ⟨flushed, hflushed, h⟩ := Option.bind_eq_some_iff.mp h
  obtain ⟨buffer, hbuffer, rfl⟩ := Option.map_eq_some_iff.mp h
  simp [LogAppenderBase.flushed, LogAppenderBase.buffered, hflushed, hbuffer]

/-- What is left to print begins with what is to be flushed. -/
lemma left_of_flushed {item : LogItem} {list : List LogItem} (h : b.flushed = item :: list) :
    b.left [] = item :: (list ++ b.buffered ++ []) := by
  rw [LogAppenderBase.left, h]
  rfl

/-- The appender that was not asynchronous has nothing in its buffer. -/
lemma AppenderInv.buffered_of_sync (hi : AppenderInv strftime b₀ calls s)
    (h : b₀.isasync = false) : s.base.buffered = [] := by
  have hnone : s.base.buffer = none := by
    rw [← Option.not_isSome_iff_eq_none, hi.buffer, h]
    exact Bool.false_ne_true
  rw [LogAppenderBase.buffered, hnone]
  rfl

/-- A crash keeps the invariant when the appender is not asynchronous. -/
lemma AppenderInv.crash (hi : AppenderInv strftime b₀ calls s) (h : b₀.isasync = false) :
    AppenderInv strftime b₀ calls { s with fault := true } :=
  ⟨hi.kind, hi.buffer, hi.flushBuffer, fun _ => h, hi.fits, hi.phase, hi.depth, hi.taken,
    hi.holds⟩

/-- A step in `Flush` keeps the invariant. -/
lemma AppenderInv.flushStep (hi : AppenderInv strftime b₀ calls s)
    (hth : s.threads t = ⟨some place, pc⟩) {s' : AppenderState ι}
    (hs : s.flushStep strftime t pc place = some s') : AppenderInv strftime b₀ calls s' := by
  have hfits := hi.fits t
  rw [hth] at hfits
  have hstay : ∀ place' : FlushPc, (s.threads t).Fits b₀.isasync t →
      AppenderThread.Fits b₀.isasync ⟨some place', pc⟩ t := fun place' _ => hfits.stay
  have hlines : ∀ next : Option FlushPc,
      (s.threads t).lines = AppenderThread.lines ⟨next, pc⟩ := fun next => by rw [hth]; rfl
  have hstage : ∀ o₀ order, StageHolds strftime o₀ order s.base (s.threads t).stage →
      StageHolds strftime o₀ order s.base (AppenderThread.stage ⟨some place, pc⟩) := by
    intro o₀ order h
    rwa [hth] at h
  have hdepth : (s.threads t).depth = place.depth + pc.depth := by rw [hth]; rfl
  cases place with
  | enter =>
      rw [AppenderState.flushStep] at hs
      split_ifs at hs with hskip
      · obtain rfl := Option.some.inj hs
        refine hi.flushMove hth (.quiet (fun _ => hfits.leave.1) hdepth.symm (hlines _)
          fun o₀ order h => ?_) rfl (.inl rfl) ?_
        · rw [hfits.leave.2]
          exact hstage o₀ order h
        · rintro rfl -
          right
          have hphase := hi.phase
          rw [AppenderState.Phase, hth] at hphase
          refine hi.buffered_of_sync ?_
          cases pc <;> simp_all [PhaseAt, AppenderThread.Fits]
      · obtain rfl := Option.some.inj hs
        exact hi.flushMove hth (.quiet (hstay _) hdepth.symm (hlines _) hstage) rfl (.inl rfl)
          (by simp [FlushPc.early])
  | lock =>
      obtain ⟨m, hlock, rfl⟩ := Option.map_eq_some_iff.mp hs
      refine hi.flushMove hth (.lock hlock (hstay _) ?_ (hlines _) fun o₀ order h => ?_) rfl
        (.inl rfl) (by simp [FlushPc.early])
      · rw [hdepth]
        exact Nat.add_right_comm 0 1 _
      · rw [List.append_nil]
        exact hstage o₀ order h
  | opening =>
      obtain rfl := Option.some.inj hs
      refine hi.flushInside hth rfl Nat.zero_lt_one rfl rfl rfl rfl (.inl rfl)
        (by simp [FlushPc.early]) fun o₀ order h => ?_
      obtain ⟨hnil, hsettles⟩ := h
      exact ⟨opened_flushOpen, hnil, hsettles.open⟩
  | moving =>
      rw [AppenderState.flushStep] at hs
      cases hmove : s.base.moveAll with
      | none =>
          rw [hmove] at hs
          obtain rfl := Option.some.inj hs
          refine hi.crash ?_
          by_contra hmode
          obtain ⟨flushed, hflushed⟩ := Option.isSome_iff_exists.mp
            (hi.flushBuffer.trans (Bool.eq_true_of_not_eq_false hmode))
          obtain ⟨buffer, hbuffer⟩ := Option.isSome_iff_exists.mp
            (hi.buffer.trans (Bool.eq_true_of_not_eq_false hmode))
          simp [LogAppenderBase.moveAll, hflushed, hbuffer] at hmove
      | some b =>
          rw [hmove] at hs
          obtain rfl := Option.some.inj hs
          obtain ⟨hkind, hasync, houtput, hflushed, hbuffered, hb, hf⟩ := moveAll_eq_some hmove
          refine hi.flushInside hth rfl Nat.zero_lt_one hkind hasync hb hf (.inr hbuffered)
            (fun _ => .inr hbuffered) fun o₀ order h => ?_
          obtain ⟨hopened, hnil, hsettles⟩ := h
          refine ⟨by rw [hkind, houtput]; exact hopened, hsettles.congr hkind ?_⟩
          simp [LogAppenderBase.left, houtput, hflushed, hbuffered]
  | front =>
      rw [AppenderState.flushStep] at hs
      cases hflushed : s.base.flushed with
      | nil =>
          rw [hflushed] at hs
          obtain rfl := Option.some.inj hs
          exact hi.flushInside hth rfl Nat.zero_lt_one rfl rfl rfl rfl (.inl rfl)
            (fun _ => .inl rfl) fun o₀ order h => ⟨absurd hflushed, h.2⟩
      | cons item list =>
          rw [hflushed] at hs
          obtain rfl := Option.some.inj hs
          refine hi.flushInside hth rfl Nat.zero_lt_one rfl rfl rfl rfl (.inl rfl)
            (fun _ => .inl rfl) fun o₀ order h => ?_
          obtain ⟨hopened, hsettles⟩ := h
          refine ⟨fun _ => ready_flushFront hopened, hsettles.congr rfl ?_⟩
          show (s.base.left []).foldl _ _ = _
          rw [left_of_flushed hflushed, List.foldl_cons, List.foldl_cons, write_flushFront]
  | loop =>
      rw [AppenderState.flushStep] at hs
      cases hflushed : s.base.flushed with
      | nil =>
          rw [hflushed] at hs
          obtain rfl := Option.some.inj hs
          exact hi.flushInside hth rfl Nat.zero_lt_one rfl rfl rfl rfl (.inl rfl)
            (fun _ => .inl rfl) fun o₀ order h => ⟨hflushed, h.2⟩
      | cons item list =>
          rw [hflushed] at hs
          obtain rfl := Option.some.inj hs
          have hsome : s.base.flushBuffer.isSome = true := by
            cases hf : s.base.flushBuffer with
            | none => simp [LogAppenderBase.flushed, hf] at hflushed
            | some _ => rfl
          refine hi.flushInside hth rfl Nat.zero_lt_one rfl rfl rfl hsome.symm (.inl rfl)
            (fun _ => .inl rfl) fun o₀ order h => ?_
          obtain ⟨hready, hsettles⟩ := h
          have hready := hready (by simp [hflushed])
          have hitem := flushItem_eq strftime item hready
          refine ⟨fun _ => hitem ▸ ready_write, hsettles.congr rfl ?_⟩
          rw [left_of_flushed hflushed, List.foldl_cons, ← hitem]
          rfl
  | unlock =>
      obtain ⟨m, hunlock, rfl⟩ := Option.map_eq_some_iff.mp hs
      refine hi.flushMove hth (.unlock hunlock (fun _ => hfits.leave.1) ?_ (hlines _) ?_) rfl
        (.inl rfl) fun _ _ => .inl rfl
      · rw [hdepth]
        exact Nat.add_right_comm 0 1 _
      · rw [hfits.leave.2, hth]
        rfl

end Flush

/-! ### Steps outside of `Flush` -/

section Outside

variable {pc : AppenderPc}

/-- A step of a thread that logs. -/
lemma AppenderInv.callerMove (hi : AppenderInv strftime b₀ calls s) {i : ι}
    (hth : s.threads (.caller i) = ⟨none, pc⟩) (hpc : pc ≠ .call [])
    (hm : AppenderMove strftime b₀.isasync s (.caller i) b m new th) (hasync : b.isasync = s.base.isasync) :
    AppenderInv strftime b₀ calls
      ({ s with
        base := b
        mutex := m
        order := s.order ++ new.map (Prod.mk (AppenderTid.caller i)) }.become (.caller i) th) := by
  have hfits := hi.fits (.caller i)
  rw [hth] at hfits
  refine hi.move hm rfl (hi.phase.move rfl hasync (.inr (.inr ⟨i, rfl⟩)) ?_ ?_ nofun)
  · rw [hth]
    exact fun h => hpc (AppenderThread.mk.inj h).2
  · rw [hth]
    intro h
    rw [(AppenderThread.mk.inj h).2] at hfits
    exact hfits

/-- A step of a thread that logs, and changes nothing else. -/
lemma AppenderInv.callerQuiet (hi : AppenderInv strftime b₀ calls s) {i : ι}
    (hth : s.threads (.caller i) = ⟨none, pc⟩) (hpc : pc ≠ .call [])
    (hm : AppenderMove strftime b₀.isasync s (.caller i) b m [] th) (hasync : b.isasync = s.base.isasync) :
    AppenderInv strftime b₀ calls ({ s with base := b, mutex := m }.become (.caller i) th) := by
  have hmove := hi.callerMove hth hpc hm hasync
  rw [List.map_nil, List.append_nil] at hmove
  exact hmove

/-- As long as calls are to be made, the appender is as asynchronous as at the start. -/
lemma AppenderInv.isasync_eq (hi : AppenderInv strftime b₀ calls s) {i : ι}
    (h : s.threads (.caller i) ≠ ⟨none, .call []⟩) : s.base.isasync = b₀.isasync := by
  have hjoined : ¬ s.Joined := fun hj => h (hj i)
  have hphase := hi.phase
  rw [AppenderState.Phase, PhaseAt] at hphase
  cases hpc : (s.threads .destroyer).pc <;> simp_all

/-- Taking the mutex to append a line. -/
lemma AppenderInv.lockFor (hi : AppenderInv strftime b₀ calls s) {i : ι} {item : LogItem}
    {pc' : AppenderPc} (hth : s.threads (.caller i) = ⟨none, pc⟩) (hpc : pc ≠ .call [])
    (hdepth : pc.depth = 0) (hdepth' : pc'.depth = 1)
    (hlines : AppenderThread.lines ⟨none, pc⟩ = item :: AppenderThread.lines ⟨none, pc'⟩)
    (hstage : AppenderThread.stage ⟨none, pc⟩ = .quiet)
    (hstage' : AppenderThread.stage ⟨none, pc'⟩ = .pending item)
    (hfits : AppenderThread.Fits b₀.isasync ⟨none, pc⟩ (AppenderTid.caller i) →
      AppenderThread.Fits b₀.isasync ⟨none, pc'⟩ (AppenderTid.caller i)) {s' : AppenderState ι}
    (hs : s.lockFor (.caller i) item pc' = some s') : AppenderInv strftime b₀ calls s' := by
  obtain ⟨m, hlock, rfl⟩ := Option.map_eq_some_iff.mp hs
  have hm : AppenderMove strftime b₀.isasync s (.caller i) s.base m [item] ⟨none, pc'⟩ := by
    refine .lock hlock (fun h => hfits (hth ▸ h)) ?_ ?_ fun o₀ order h => ?_
    · rw [hth]
      simp [AppenderThread.depth, hdepth, hdepth']
    · rw [hth]
      exact hlines
    · rw [hth, hstage] at h
      rw [hstage']
      exact ⟨h.1, h.2.take⟩
  exact hi.callerMove hth hpc hm rfl

/-- A step of a thread that logs keeps the invariant. -/
lemma AppenderInv.callerStep [Fintype ι] (hi : AppenderInv strftime b₀ calls s) {i : ι}
    (hth : s.threads (.caller i) = ⟨none, pc⟩) {s' : AppenderState ι}
    (hs : s.pcStep strftime (.caller i) pc = some s') : AppenderInv strftime b₀ calls s' := by
  have hfits := hi.fits (.caller i)
  rw [hth] at hfits
  cases pc with
  | call list =>
      rcases list with _ | ⟨item | _, list⟩
      · cases hs
      · obtain rfl := Option.some.inj hs
        refine hi.callerQuiet hth (by simp) (.quiet (fun _ => ?_) ?_ ?_ fun o₀ order h => ?_) rfl
        · have hmode := hi.isasync_eq (i := i) (by simp [hth])
          cases hasync : s.base.isasync
          · exact ⟨rfl, hmode.symm.trans hasync⟩
          · exact rfl
        · rw [hth]
          cases s.base.isasync <;> rfl
        · rw [hth]
          cases s.base.isasync <;> rfl
        · rw [hth] at h
          cases s.base.isasync <;> exact h
      · obtain rfl := Option.some.inj hs
        refine hi.callerQuiet hth (by simp) (.quiet (fun _ => trivial) ?_ ?_ fun o₀ order h => ?_)
          rfl
        · rw [hth]
          rfl
        · rw [hth]
          rfl
        · rw [hth] at h
          exact h
  | lockAppend item list =>
      refine hi.lockFor hth (by simp) rfl ?_ ?_ rfl ?_ ?_ hs
      · rfl
      · rfl
      · rfl
      · exact id
  | lockWrite item list =>
      refine hi.lockFor hth (by simp) rfl ?_ ?_ rfl ?_ ?_ hs
      · rfl
      · rfl
      · rfl
      · exact id
  | addTail item list =>
      rw [AppenderState.pcStep] at hs
      cases hadd : s.base.addTail item with
      | none =>
          rw [hadd] at hs
          obtain rfl := Option.some.inj hs
          refine hi.crash ?_
          rw [← hi.buffer, Option.isSome_eq_false_iff, Option.isNone_iff_eq_none]
          exact Option.map_eq_none_iff.mp hadd
      | some b =>
          rw [hadd] at hs
          obtain rfl := Option.some.inj hs
          obtain ⟨buffer, hbuffer, rfl⟩ := Option.map_eq_some_iff.mp hadd
          refine hi.callerQuiet hth (by simp) (.inside rfl (by simp [hbuffer]) rfl
            (fun _ => rfl) ?_ (Nat.succ_pos _) ?_ fun o₀ order h => ?_) rfl
          · rw [hth]
            rfl
          · rw [hth]
            rfl
          · rw [hth] at h
            refine ⟨h.1, h.2.congr rfl ?_⟩
            simp [LogAppenderBase.left, LogAppenderBase.flushed, LogAppenderBase.buffered, hbuffer]
  | checkSize list =>
      obtain rfl := Option.some.inj hs
      refine hi.callerQuiet hth (by simp) (.quiet (fun _ => trivial) ?_ ?_ fun o₀ order h => ?_)
        rfl
      · rw [hth]
        split_ifs <;> rfl
      · rw [hth]
        rfl
      · rw [hth] at h
        split_ifs <;> exact h
  | write item list =>
      obtain rfl := Option.some.inj hs
      refine hi.callerQuiet hth (by simp) (.inside rfl rfl rfl (fun _ => trivial) ?_
        (Nat.succ_pos _) ?_ fun o₀ order h => ?_) rfl
      · rw [hth]
        rfl
      · rw [hth]
        rfl
      · rw [hth] at h
        refine ⟨h.1, h.2.congr rfl ?_⟩
        show (s.base.flushed ++ s.base.buffered ++ []).foldl _ _ =
          (s.base.flushed ++ s.base.buffered ++ [item]).foldl _ _
        rw [h.1, hi.buffered_of_sync hfits.2]
        rfl
  | unlock list =>
      obtain ⟨m, hunlock, rfl⟩ := Option.map_eq_some_iff.mp hs
      refine hi.callerQuiet hth (by simp) (.unlock hunlock (fun _ => trivial) ?_ ?_ ?_) rfl
      · rw [hth]
        rfl
      · rw [hth]
        rfl
      · rw [hth]
        rfl
  | _ => exact hfits.elim

/-- A step of a thread that holds nothing and has no line, before and after. -/
lemma AppenderInv.idleMove (hi : AppenderInv strftime b₀ calls s) {next : Option FlushPc}
    {pc' : AppenderPc} (hth : s.threads t = ⟨none, pc⟩)
    (hfits : AppenderThread.Fits b₀.isasync ⟨next, pc'⟩ t)
    (hdepth : pc.depth = 0 ∧ next.elim 0 FlushPc.depth = 0 ∧ pc'.depth = 0)
    (hlines : AppenderThread.lines ⟨none, pc⟩ = AppenderThread.lines ⟨next, pc'⟩)
    (hphase : (s.become t ⟨next, pc'⟩).Phase b₀.isasync) :
    AppenderInv strftime b₀ calls (s.become t ⟨next, pc'⟩) := by
  obtain ⟨hpc, hnext, hpc'⟩ := hdepth
  have hbefore : (s.threads t).depth = 0 := by
    rw [hth, AppenderThread.depth, hpc]
    rfl
  have hafter : AppenderThread.depth ⟨next, pc'⟩ = 0 := by
    rw [AppenderThread.depth, hnext, hpc']
  have hm : AppenderMove strftime b₀.isasync s t s.base s.mutex [] ⟨next, pc'⟩ := by
    refine .quiet (fun _ => hfits) (hafter.trans hbefore.symm) (hth ▸ hlines) fun o₀ order h => ?_
    rw [AppenderThread.stage_of_depth hafter, ← AppenderThread.stage_of_depth hbefore]
    exact h
  exact hi.move hm (by simp [AppenderState.become]) hphase

/-- A step of the writer thread keeps the invariant. -/
lemma AppenderInv.writerStep [Fintype ι] (hi : AppenderInv strftime b₀ calls s)
    (hth : s.threads .writer = ⟨none, pc⟩) {s' : AppenderState ι}
    (hs : s.pcStep strftime .writer pc = some s') : AppenderInv strftime b₀ calls s' := by
  have hfits := hi.fits .writer
  rw [hth] at hfits
  rcases hfits with rfl | rfl
  · obtain rfl := Option.some.inj hs
    refine hi.idleMove hth ?_ ?_ ?_ (hi.phase.move rfl rfl (.inl rfl) ?_ ?_ nofun)
    · cases s.base.isasync
      · exact .inr rfl
      · exact .inl rfl
    · cases s.base.isasync <;> exact ⟨rfl, rfl, rfl⟩
    · cases s.base.isasync <;> rfl
    · simp [hth]
    · simp [hth]
  · cases hs

/-- A step of `Destroy` keeps the invariant. -/
lemma AppenderInv.destroyerStep [Fintype ι] (hi : AppenderInv strftime b₀ calls s)
    (hth : s.threads .destroyer = ⟨none, pc⟩) {s' : AppenderState ι}
    (hs : s.pcStep strftime .destroyer pc = some s') : AppenderInv strftime b₀ calls s' := by
  have hfits := hi.fits .destroyer
  rw [hth] at hfits
  have hphase := hi.phase
  rw [AppenderState.Phase, hth] at hphase
  have hjoined : ∀ th, s.Joined → (s.become .destroyer th).Joined := by
    intro th hj i
    rw [AppenderState.become_of_ne _ _ (by simp)]
    exact hj i
  cases pc with
  | joinCallers =>
      rw [AppenderState.pcStep] at hs
      split_ifs at hs with hj
      obtain rfl := Option.some.inj hs
      refine hi.idleMove hth rfl ⟨rfl, rfl, rfl⟩ rfl ?_
      rw [AppenderState.Phase, AppenderState.become_self]
      exact ⟨hphase, hjoined _ hj⟩
  | checkBuffer =>
      obtain rfl := Option.some.inj hs
      refine hi.idleMove hth trivial ⟨rfl, by split_ifs <;> rfl, rfl⟩ rfl ?_
      rw [AppenderState.Phase, AppenderState.become_self]
      refine ⟨hphase.1, hjoined _ hphase.2, fun hearly => ?_⟩
      by_contra hne
      have hne : s.base.buffered ≠ [] := hne
      simp [hne, FlushPc.early] at hearly
  | clearAsync =>
      obtain rfl := Option.some.inj hs
      have hm : AppenderMove strftime b₀.isasync s .destroyer { s.base with isasync := false }
          s.mutex [] ⟨none, .joinWriter⟩ := by
        refine ⟨rfl, rfl, rfl, fun _ => rfl, ?_, fun _ _ => rfl, ?_, fun o₀ order h => ?_,
          fun _ _ => ⟨rfl, rfl, rfl, rfl⟩⟩
        · rw [hth]
          exact id
        · rw [hth]
          rfl
        · rw [hth] at h
          rw [List.append_nil]
          exact h.congr rfl rfl rfl rfl
      refine hi.move hm (by simp [AppenderState.become, AppenderState.withBase]) ?_
      rw [AppenderState.Phase, AppenderState.become_self]
      exact ⟨hjoined ⟨none, .joinWriter⟩ hphase.2.1, hphase.2.2 rfl⟩
  | joinWriter =>
      rw [AppenderState.pcStep] at hs
      split_ifs at hs with hw
      obtain rfl := Option.some.inj hs
      refine hi.idleMove hth rfl ⟨rfl, rfl, rfl⟩ rfl ?_
      rw [AppenderState.Phase, AppenderState.become_self]
      exact ⟨hjoined _ hphase.1, hphase.2,
        (AppenderState.become_of_ne _ _ (by simp)).trans hw⟩
  | done => cases hs
  | _ => exact hfits.elim

end Outside

/-! ### The beginning and the end -/

/-- The buffers of a new appender: there are none, or they are empty. -/
structure LogAppenderBase.Fresh (b : LogAppenderBase) : Prop where
  buffer : b.buffer = if b.isasync then some [] else none
  flushBuffer : b.flushBuffer = if b.isasync then some [] else none

lemma AppenderInv.start (hb : b₀.Fresh) :
    AppenderInv strftime b₀ calls (appenderStart b₀ calls) where
  kind := rfl
  buffer := by
    show b₀.buffer.isSome = b₀.isasync
    rw [hb.buffer]
    cases b₀.isasync <;> rfl
  flushBuffer := by
    show b₀.flushBuffer.isSome = b₀.isasync
    rw [hb.flushBuffer]
    cases b₀.isasync <;> rfl
  fault := nofun
  fits t := by
    cases t with
    | caller i => exact trivial
    | writer =>
        show (if b₀.isasync then _ else _) = _ ∨ (if b₀.isasync then _ else _) = _
        cases b₀.isasync
        · exact .inr rfl
        · exact .inl rfl
    | destroyer => exact rfl
  phase := rfl
  depth t := by
    cases t with
    | writer =>
        show 0 = 0 + AppenderPc.depth (if b₀.isasync then _ else _)
        cases b₀.isasync <;> rfl
    | _ => rfl
  taken _ := rfl
  holds t _ := by
    have hstage : ((appenderStart b₀ calls).threads t).stage = .quiet := by
      refine AppenderThread.stage_of_depth ?_
      cases t with
      | writer =>
          show 0 + AppenderPc.depth (if b₀.isasync then _ else _) = 0
          cases b₀.isasync <;> rfl
      | _ => rfl
    have hflushed : b₀.flushed = [] := by
      rw [LogAppenderBase.flushed, hb.flushBuffer]
      cases b₀.isasync <;> rfl
    have hbuffered : b₀.buffered = [] := by
      rw [LogAppenderBase.buffered, hb.buffer]
      cases b₀.isasync <;> rfl
    rw [hstage]
    refine ⟨hflushed, .inl ?_⟩
    show (b₀.flushed ++ b₀.buffered ++ []).foldl _ b₀.output = _
    rw [hflushed, hbuffered]
    rfl

/-- The order is an interleaving of the lines that the threads append by their calls. -/
def Interleaves (calls : ι → List LogCall) (order : List (AppenderTid ι × LogItem)) : Prop :=
  (∀ entry ∈ order, ∃ i, entry.1 = .caller i) ∧
    ∀ i, linesOf (.caller i) order = appendedLines (calls i)

/-- Only the threads that log append lines. -/
lemma AppenderInv.order_caller (hi : AppenderInv strftime b₀ calls s) :
    ∀ entry ∈ s.order, ∃ i, entry.1 = .caller i := by
  intro entry hentry
  have hne : linesOf entry.1 s.order ≠ [] :=
    List.ne_nil_of_mem (List.mem_map_of_mem (List.mem_filter.mpr ⟨hentry, by simp⟩))
  have hlines : (appenderThreads b₀ calls entry.1).lines ≠ [] := by
    rw [← hi.taken]
    exact List.append_ne_nil_of_left_ne_nil hne _
  cases ht : entry.1 with
  | caller i => exact ⟨i, rfl⟩
  | writer =>
      rw [ht] at hlines
      cases hmode : b₀.isasync <;>
        simp [appenderThreads, AppenderThread.lines, hmode] at hlines
  | destroyer =>
      rw [ht] at hlines
      exact absurd rfl hlines

/-- **A finished run.** The lines of each thread were appended in their order, and the output
is what printing all lines in the order of the mutex makes of it, apart from a file that was
opened and has nothing in it. -/
theorem AppenderInv.finished (hi : AppenderInv strftime b₀ calls s) (h : s.Finished) :
    Interleaves calls s.order ∧
      (s.base.output =
          (s.order.map Prod.snd).foldl (appenderWrite strftime b₀.kind) b₀.output ∨
        s.base.output = flushOpen b₀.kind
          ((s.order.map Prod.snd).foldl (appenderWrite strftime b₀.kind) b₀.output)) := by
  have hphase := hi.phase
  rw [AppenderState.Phase, h] at hphase
  obtain ⟨hjoined, hbuffered, hwriter⟩ := hphase
  have hfree : ∀ t, s.mutex.depth t = 0 := by
    intro t
    rw [hi.depth t]
    cases t with
    | caller i => rw [hjoined i]; rfl
    | writer => rw [hwriter]; rfl
    | destroyer => rw [h]; rfl
  refine ⟨⟨hi.order_caller, fun i => ?_⟩, ?_⟩
  · have htaken := hi.taken (.caller i)
    rw [hjoined i] at htaken
    simpa [AppenderThread.lines, appendedLines, appenderThreads] using htaken
  · have hholds := hi.holds .destroyer fun u _ => hfree u
    rw [h] at hholds
    obtain ⟨hflushed, hsettles⟩ := hholds
    rw [Settles, LogAppenderBase.left, hflushed, hbuffered, hi.kind] at hsettles
    exact hsettles

/-! ### The output -/

/-- What a step does to the output of an appender. -/
inductive OutputStep (strftime : Strftime) (kind : AppenderKind) (o : LogOutput) :
    LogOutput → Prop where
  | same : OutputStep strftime kind o o
  | opened : OutputStep strftime kind o (flushOpen kind o)
  | front (item : LogItem) : OutputStep strftime kind o (flushFront strftime kind item o)
  | item (item : LogItem) : OutputStep strftime kind o (flushItem strftime kind item o)
  | write (item : LogItem) : OutputStep strftime kind o (appenderWrite strftime kind o item)

lemma AppenderState.flushStep_output {place : FlushPc} {pc : AppenderPc} {s' : AppenderState ι}
    (hs : s.flushStep strftime t pc place = some s') : s'.base.kind = s.base.kind ∧
      OutputStep strftime s.base.kind s.base.output s'.base.output := by
  cases place with
  | enter =>
      rw [flushStep] at hs
      split_ifs at hs <;>
      · obtain rfl := Option.some.inj hs
        exact ⟨rfl, .same⟩
  | opening =>
      obtain rfl := Option.some.inj hs
      exact ⟨rfl, .opened⟩
  | moving =>
      rw [flushStep] at hs
      cases hmove : s.base.moveAll with
      | none =>
          rw [hmove] at hs
          obtain rfl := Option.some.inj hs
          exact ⟨rfl, .same⟩
      | some b =>
          rw [hmove] at hs
          obtain rfl := Option.some.inj hs
          obtain ⟨hkind, -, houtput, -⟩ := moveAll_eq_some hmove
          refine ⟨hkind, ?_⟩
          show OutputStep strftime s.base.kind s.base.output b.output
          rw [houtput]
          exact .same
  | front =>
      rw [flushStep] at hs
      split at hs
      · obtain rfl := Option.some.inj hs
        exact ⟨rfl, .same⟩
      · obtain rfl := Option.some.inj hs
        exact ⟨rfl, .front _⟩
  | loop =>
      rw [flushStep] at hs
      split at hs
      · obtain rfl := Option.some.inj hs
        exact ⟨rfl, .same⟩
      · obtain rfl := Option.some.inj hs
        exact ⟨rfl, .item _⟩
  | lock | unlock =>
      obtain ⟨m, -, rfl⟩ := Option.map_eq_some_iff.mp hs
      exact ⟨rfl, .same⟩

/-! ### Runs -/

section Runs

variable [Fintype ι]

/-- A step keeps the invariant. -/
theorem AppenderInv.step (hi : AppenderInv strftime b₀ calls s) {s' : AppenderState ι}
    (hs : s.step strftime t = some s') : AppenderInv strftime b₀ calls s' := by
  rw [AppenderState.step] at hs
  split_ifs at hs with hfault
  cases hth : s.threads t with
  | mk flush pc =>
      rw [hth] at hs
      cases flush with
      | some place => exact hi.flushStep hth hs
      | none =>
          cases t with
          | caller i => exact hi.callerStep hth hs
          | writer => exact hi.writerStep hth hs
          | destroyer => exact hi.destroyerStep hth hs

/-- **Every run.** The invariant holds in every state that is reached. -/
theorem appenderInv_reachable (hb : b₀.Fresh)
    (h : (appenderSystem strftime b₀ calls).Reachable s) : AppenderInv strftime b₀ calls s :=
  h.invariant (fun _ hs => hs ▸ .start hb) fun _ _ _ hi hs => hi.step hs

/-- The thread does not wait for another one to end. -/
def AppenderState.Runs (s : AppenderState ι) (t : AppenderTid ι) : Prop :=
  s.threads t ≠ ⟨none, .call []⟩ ∧ s.threads t ≠ ⟨none, .done⟩ ∧
    (s.threads t = ⟨none, .joinCallers⟩ → s.Joined) ∧
    (s.threads t = ⟨none, .joinWriter⟩ → s.threads .writer = ⟨none, .done⟩)

/-- A thread that does not wait for another one can take a step when the mutex is free, or
when it holds the mutex. -/
lemma AppenderInv.enabled (hi : AppenderInv strftime b₀ calls s) (hfault : s.fault = false)
    (hmutex : s.mutex = .free ∨ 0 < s.mutex.depth t) (hruns : s.Runs t) :
    (s.step strftime t).isSome := by
  obtain ⟨hcall, hdone, hjoin, hwriter⟩ := hruns
  have hlock := Mutex.isSome_lock hmutex
  have hunlock : 0 < (s.threads t).depth → (s.mutex.unlock t).isSome := by
    intro hpos
    rw [← hi.depth t] at hpos
    exact Mutex.isSome_unlock hpos
  rw [AppenderState.step, hfault]
  cases hth : s.threads t with
  | mk flush pc =>
      rw [hth] at hcall hdone hjoin hwriter hunlock
      cases flush with
      | some place =>
          cases place with
          | enter => 
              simp only [Bool.false_eq_true, if_false, AppenderState.flushStep]
              split_ifs <;> rfl
          | lock => simpa [AppenderState.flushStep] using hlock
          | moving =>
              simp only [Bool.false_eq_true, if_false, AppenderState.flushStep]
              split <;> rfl
          | front | loop =>
              simp only [Bool.false_eq_true, if_false, AppenderState.flushStep]
              split <;> rfl
          | unlock =>
              simpa [AppenderState.flushStep] using
                hunlock (Nat.lt_add_right pc.depth Nat.zero_lt_one)
          | opening => rfl
      | none =>
          cases pc with
          | call list =>
              rcases list with _ | ⟨_ | _, list⟩
              · exact absurd rfl hcall
              · rfl
              · rfl
          | lockAppend item list | lockWrite item list =>
              simpa [AppenderState.pcStep, AppenderState.lockFor] using hlock
          | addTail item list =>
              simp only [Bool.false_eq_true, if_false, AppenderState.pcStep]
              split <;> rfl
          | unlock list => simpa [AppenderState.pcStep] using hunlock Nat.zero_lt_one
          | joinCallers => simp [AppenderState.pcStep, hjoin rfl]
          | joinWriter => simp [AppenderState.pcStep, hwriter rfl]
          | done => exact absurd rfl hdone
          | _ => rfl

/-- **No deadlock.** Until the appender is destroyed some thread can take a step. -/
theorem AppenderInv.progress (hi : AppenderInv strftime b₀ calls s) (hfault : s.fault = false)
    (h : ¬ s.Finished) : ∃ t, (s.step strftime t).isSome := by
  cases hmutex : s.mutex with
  | held owner again =>
      have hpos : 0 < s.mutex.depth owner := by simp [hmutex, Mutex.depth]
      refine ⟨owner, hi.enabled hfault (.inr hpos) ?_⟩
      rw [hi.depth owner] at hpos
      refine ⟨fun hth => ?_, fun hth => ?_, fun hth => ?_, fun hth => ?_⟩ <;>
      · rw [hth] at hpos
        exact absurd hpos (Nat.lt_irrefl 0)
  | free =>
      by_cases hjoined : s.Joined
      · by_cases hwriter : s.threads .writer = ⟨none, .done⟩
        · refine ⟨.destroyer, hi.enabled hfault (.inl hmutex) ⟨fun hth => ?_, h, fun _ => hjoined,
            fun _ => hwriter⟩⟩
          have hfits := hi.fits .destroyer
          rw [hth] at hfits
          exact hfits
        · have hfits := hi.fits .writer
          refine ⟨.writer, hi.enabled hfault (.inl hmutex) ⟨fun hth => ?_, hwriter, fun hth => ?_,
            fun hth => ?_⟩⟩ <;>
          · rw [hth] at hfits
            rcases hfits with hpc | hpc <;> cases hpc
      · obtain ⟨i, hcaller⟩ := not_forall.mp hjoined
        have hfits := hi.fits (.caller i)
        refine ⟨.caller i, hi.enabled hfault (.inl hmutex) ⟨hcaller, fun hth => ?_, fun hth => ?_,
          fun hth => ?_⟩⟩ <;>
        · rw [hth] at hfits
          exact hfits.elim

lemma AppenderState.pcStep_output {pc : AppenderPc} {s' : AppenderState ι}
    (hs : s.pcStep strftime t pc = some s') : s'.base.kind = s.base.kind ∧
      OutputStep strftime s.base.kind s.base.output s'.base.output := by
  cases pc with
  | call list =>
      rcases list with _ | ⟨_ | _, list⟩
      · cases hs
      all_goals
        obtain rfl := Option.some.inj hs
        exact ⟨rfl, .same⟩
  | addTail item list =>
      rw [pcStep] at hs
      cases hadd : s.base.addTail item with
      | none =>
          rw [hadd] at hs
          obtain rfl := Option.some.inj hs
          exact ⟨rfl, .same⟩
      | some b =>
          rw [hadd] at hs
          obtain rfl := Option.some.inj hs
          obtain ⟨buffer, -, rfl⟩ := Option.map_eq_some_iff.mp hadd
          exact ⟨rfl, .same⟩
  | lockAppend item list | lockWrite item list | unlock list =>
      obtain ⟨m, -, rfl⟩ := Option.map_eq_some_iff.mp hs
      exact ⟨rfl, .same⟩
  | write item list =>
      obtain rfl := Option.some.inj hs
      exact ⟨rfl, .write item⟩
  | joinCallers | joinWriter =>
      rw [pcStep] at hs
      split_ifs at hs
      obtain rfl := Option.some.inj hs
      exact ⟨rfl, .same⟩
  | checkSize list | writerLoop | checkBuffer | clearAsync =>
      obtain rfl := Option.some.inj hs
      exact ⟨rfl, .same⟩
  | done => cases hs

/-- **The output in every run.** What holds at the start, and is kept by `Write` and by the parts
of `Flush`, holds in every state that is reached. -/
theorem appenderSystem_output {P : LogOutput → Prop} (hstart : P b₀.output)
    (hstep : ∀ o o', P o → OutputStep strftime b₀.kind o o' → P o')
    (h : (appenderSystem strftime b₀ calls).Reachable s) : P s.base.output := by
  have hinv : s.base.kind = b₀.kind ∧ P s.base.output := by
    refine h.invariant (P := fun s => s.base.kind = b₀.kind ∧ P s.base.output) ?_ ?_
    · rintro s rfl
      exact ⟨rfl, hstart⟩
    · rintro s t s' ⟨hkind, hp⟩ hs
      have hs : s.step strftime t = some s' := hs
      rw [AppenderState.step] at hs
      split_ifs at hs
      have hout : s'.base.kind = s.base.kind ∧
          OutputStep strftime s.base.kind s.base.output s'.base.output := by
        split at hs
        · exact AppenderState.flushStep_output hs
        · exact AppenderState.pcStep_output hs
      rw [hkind] at hout
      exact ⟨hout.1, hstep _ _ hp hout.2⟩
  exact hinv.2

end Runs

end Invariant

end LibCmutils
