import LibCmutils.Logger.Rolling

/-!
Asynchronous appenders: the order of their lines, and what they print compared with
synchronous ones.

* `asyncAppender_order`: when the appender is destroyed its lines are those that were
  appended, in the order in which their threads took the mutex.
* `ModesAgree`: one thread that makes some calls runs well with both kinds of appenders, and
  they print the same bytes. `SyncQuiet`: the runs of a synchronous appender that do not use a
  buffer. `reaches_fault`: an explicit `Flush` uses the buffers that a synchronous file appender
  does not have.
* `modesAgree_iff`: when the two agree. An asynchronous file appender also creates its file when
  nothing is appended.
-/

namespace LibCmutils

universe u

/-! ### The order of the lines -/

section Order

variable {ι : Type u} [Fintype ι] [DecidableEq ι]

/-- An asynchronous appender uses no missing buffer and comes to no deadlock. -/
lemma asyncAppender_runs {strftime : Strftime} {conf : AppenderConf}
    {fs : FileSystem CString LogItem} {ctime ptime : Tm} {buffersz : ℕ} {calls : ι → List LogCall}
    {s : AppenderState ι}
    (h : (appenderSystem strftime (appenderSetAsync (appenderCreate strftime conf fs ctime ptime)
      buffersz) calls).Reachable s) :
    s.fault = false ∧ (¬ s.Finished → ∃ t, (s.step strftime t).isSome) := by
  have hi := appenderInv_reachable
    (fresh_appenderUsed strftime conf fs ctime ptime (some buffersz)) h
  have hfault : s.fault = false := by
    by_contra hne
    cases hi.fault (Bool.eq_true_of_not_eq_false hne)
  exact ⟨hfault, hi.progress hfault⟩

end Order

/-- The bytes of a file. -/
def fileBytes (fs : FileSystem CString LogItem) (name : CString) : Option (List UInt8) :=
  (fs.content name).map fun items => items.flatMap fun item => item.log.1

/-- The same bytes on the stream and in the files. -/
structure SameBytes (o o' : LogOutput) : Prop where
  stream : (o.out.flatMap fun item => item.log.1) = o'.out.flatMap fun item => item.log.1
  files : ∀ name, fileBytes o.fs name = fileBytes o'.fs name

/-- In every run with the calls of one thread, no missing buffer is used, and until the end some
thread can take a step. -/
def RunsWell (strftime : Strftime) (b : LogAppenderBase) (calls : List LogCall) : Prop :=
  ∀ s : AppenderState Unit, (appenderSystem strftime b fun _ => calls).Reachable s →
    s.fault = false ∧ (¬ s.Finished → ∃ t, (s.step strftime t).isSome)

/-- The two kinds of an appender agree on the calls of one thread. -/
structure ModesAgree (strftime : Strftime) (b : LogAppenderBase) (buffersz : ℕ)
    (calls : List LogCall) : Prop where
  sync : RunsWell strftime b calls
  async : RunsWell strftime (appenderSetAsync b buffersz) calls
  same : ∀ s s' : AppenderState Unit, (appenderSystem strftime b fun _ => calls).Reachable s →
    (appenderSystem strftime (appenderSetAsync b buffersz) fun _ => calls).Reachable s' →
    s.Finished → s'.Finished → SameBytes s.base.output s'.base.output

/-! ### Runs of a synchronous appender -/

section Sync

variable {strftime : Strftime} {ι : Type u} [DecidableEq ι] {b₀ : LogAppenderBase}
  {calls : ι → List LogCall} {s : AppenderState ι} {t : AppenderTid ι}

/-- A thread that will not use the buffers of a synchronous appender of this kind. -/
def AppenderThread.Quiet (kind : AppenderKind) (th : AppenderThread) : Prop :=
  (th.flush = none ∨ kind = .console ∧ th.flush = some .enter) ∧
    match th.pc with
    | .call calls | .unlock calls | .lockWrite _ calls | .write _ calls =>
        kind = .console ∨ .flush ∉ calls
    | .joinCallers | .checkBuffer | .clearAsync | .joinWriter | .done => True
    | _ => False

/-- A synchronous appender whose threads will not use its buffers. -/
structure SyncQuiet (s : AppenderState ι) : Prop where
  fault : s.fault = false
  isasync : s.base.isasync = false
  quiet : ∀ t, (s.threads t).Quiet s.base.kind

/-- A step of a thread that stays quiet. -/
lemma SyncQuiet.act (h : SyncQuiet s) {s₁ : AppenderState ι} {th : AppenderThread}
    (hfault : s₁.fault = s.fault) (hkind : s₁.base.kind = s.base.kind)
    (hasync : s₁.base.isasync = false) (hthreads : s₁.threads = s.threads)
    (hth : th.Quiet s.base.kind) : SyncQuiet (s₁.become t th) := by
  refine ⟨hfault.trans h.fault, hasync, fun u => ?_⟩
  have hkind : (s₁.become t th).base.kind = s.base.kind := hkind
  rw [hkind]
  by_cases hu : u = t
  · rw [hu, AppenderState.become_self]
    exact hth
  · rw [AppenderState.become_of_ne _ _ hu, hthreads]
    exact h.quiet u

/-- A step that changes the thread only. -/
lemma SyncQuiet.become (h : SyncQuiet s) {th : AppenderThread} (hth : th.Quiet s.base.kind) :
    SyncQuiet (s.become t th) :=
  h.act rfl rfl h.isasync rfl hth

/-- A step keeps a synchronous appender quiet. -/
lemma SyncQuiet.step [Fintype ι] (h : SyncQuiet s) (hbuffered : s.base.buffered = [])
    {s' : AppenderState ι} (hs : s.step strftime t = some s') : SyncQuiet s' := by
  have hquiet := h.quiet t
  rw [AppenderState.step, h.fault] at hs
  cases hth : s.threads t with
  | mk flush pc =>
      rw [hth] at hquiet hs
      obtain ⟨hflush, hpc⟩ := hquiet
      cases flush with
      | some place =>
          obtain ⟨hkind, rfl⟩ : s.base.kind = .console ∧ place = .enter := by
            simpa using hflush
          simp only [Bool.false_eq_true, if_false, AppenderState.flushStep, hkind, h.isasync,
            and_self, if_true] at hs
          obtain rfl := Option.some.inj hs
          exact h.become ⟨.inl rfl, hpc⟩
      | none =>
          simp only [Bool.false_eq_true, if_false] at hs
          cases pc with
          | call list =>
              rcases list with _ | ⟨item | _, list⟩
              · cases hs
              · simp only [AppenderState.pcStep, h.isasync, Bool.false_eq_true, if_false] at hs
                obtain rfl := Option.some.inj hs
                refine h.become ⟨.inl rfl, hpc.imp_right fun hnot => ?_⟩
                exact fun hmem => hnot (List.mem_cons_of_mem _ hmem)
              · obtain rfl := Option.some.inj hs
                have hkind := hpc.resolve_right fun hnot => hnot (List.mem_cons_self ..)
                exact h.become ⟨.inr ⟨hkind, rfl⟩, .inl hkind⟩
          | lockWrite item list =>
              obtain ⟨m, -, rfl⟩ := Option.map_eq_some_iff.mp hs
              refine h.act rfl rfl h.isasync rfl ?_
              exact ⟨.inl rfl, hpc⟩
          | write item list =>
              obtain rfl := Option.some.inj hs
              refine h.act rfl rfl h.isasync rfl ?_
              exact ⟨.inl rfl, hpc⟩
          | unlock list =>
              obtain ⟨m, -, rfl⟩ := Option.map_eq_some_iff.mp hs
              refine h.act rfl rfl h.isasync rfl ?_
              exact ⟨.inl rfl, hpc⟩
          | joinCallers =>
              simp only [AppenderState.pcStep] at hs
              split_ifs at hs
              obtain rfl := Option.some.inj hs
              exact h.become ⟨.inl rfl, trivial⟩
          | checkBuffer =>
              simp only [AppenderState.pcStep, hbuffered, if_true] at hs
              obtain rfl := Option.some.inj hs
              exact h.become ⟨.inl rfl, trivial⟩
          | clearAsync =>
              obtain rfl := Option.some.inj hs
              refine h.act rfl rfl rfl rfl ?_
              exact ⟨.inl rfl, trivial⟩
          | joinWriter =>
              simp only [AppenderState.pcStep] at hs
              split_ifs at hs
              obtain rfl := Option.some.inj hs
              exact h.become ⟨.inl rfl, trivial⟩
          | done => cases hs
          | _ => exact hpc.elim

/-- **No buffer is used.** A synchronous appender, a console or without explicit calls of
`Flush`, does not use a missing buffer. -/
theorem syncQuiet_reachable [Fintype ι] (hb : b₀.Fresh) (hsync : b₀.isasync = false)
    (hcalls : ∀ i, b₀.kind = .console ∨ .flush ∉ calls i)
    (h : (appenderSystem strftime b₀ calls).Reachable s) : SyncQuiet s := by
  have hboth : AppenderInv strftime b₀ calls s ∧ SyncQuiet s := by
    refine h.invariant (P := fun s => AppenderInv strftime b₀ calls s ∧ SyncQuiet s) ?_ ?_
    · rintro s rfl
      refine ⟨.start hb, rfl, hsync, fun t => ?_⟩
      cases t with
      | caller i => exact ⟨.inl rfl, hcalls i⟩
      | writer =>
          refine ⟨.inl rfl, ?_⟩
          simp [appenderStart, appenderThreads, hsync]
      | destroyer => exact ⟨.inl rfl, trivial⟩
    · rintro s t s' ⟨hi, hquiet⟩ hs
      exact ⟨hi.step hs, hquiet.step (hi.buffered_of_sync hsync) hs⟩
  exact hboth.2

/-! ### An explicit `Flush` -/

/-- A synchronous appender that is not a console, its mutex, and the thread `t`. -/
structure SyncAlone (s : AppenderState ι) (t : AppenderTid ι) (m : Mutex (AppenderTid ι))
    (th : AppenderThread) : Prop where
  fault : s.fault = false
  isasync : s.base.isasync = false
  kind : s.base.kind ≠ .console
  flushBuffer : s.base.flushBuffer = none
  mutex : s.mutex = m
  thread : s.threads t = th

section Alone

variable [Fintype ι] {m m' : Mutex (AppenderTid ι)} {th th' : AppenderThread}

/-- A step of the thread. -/
lemma SyncAlone.next (h : SyncAlone s t m th)
    (hs : (appenderSystem strftime b₀ calls).Reachable s) {s₁ : AppenderState ι}
    (hstep : s.step strftime t = some (s₁.become t th')) (hfault : s₁.fault = s.fault)
    (hasync : s₁.base.isasync = s.base.isasync) (hkind : s₁.base.kind = s.base.kind)
    (hflush : s₁.base.flushBuffer = s.base.flushBuffer) (hmutex : s₁.mutex = m') :
    ∃ s', (appenderSystem strftime b₀ calls).Reachable s' ∧ SyncAlone s' t m' th' :=
  ⟨s₁.become t th', hs.next t hstep, hfault.trans h.fault, hasync.trans h.isasync,
    fun hc => h.kind (hkind.symm.trans hc), hflush.trans h.flushBuffer, hmutex,
    AppenderState.become_self ..⟩

/-- An `Append` that no other thread disturbs. -/
lemma SyncAlone.append {item : LogItem} {list : List LogCall}
    (h : SyncAlone s t .free ⟨none, .call (.append item :: list)⟩)
    (hs : (appenderSystem strftime b₀ calls).Reachable s) :
    ∃ s', (appenderSystem strftime b₀ calls).Reachable s' ∧
      SyncAlone s' t .free ⟨none, .call list⟩ := by
  have hcall : s.step strftime t = some (s.become t ⟨none, .lockWrite item list⟩) := by
    rw [AppenderState.step_outside strftime h.fault h.thread, AppenderState.pcStep, h.isasync]
    rfl
  obtain ⟨s, hs, h⟩ := h.next hs hcall rfl rfl rfl rfl h.mutex
  have hlock : s.step strftime t =
      some ({ s with mutex := .held t 0, order := s.order ++ [(t, item)] }.become t
        ⟨none, .write item list⟩) := by
    rw [AppenderState.step_outside strftime h.fault h.thread, AppenderState.pcStep,
      AppenderState.lockFor, h.mutex]
    rfl
  obtain ⟨s, hs, h⟩ := h.next hs hlock rfl rfl rfl rfl rfl
  have hwrite : s.step strftime t =
      some ((s.withOutput (appenderWrite strftime s.base.kind s.base.output item)).become t
        ⟨none, .unlock list⟩) :=
    AppenderState.step_outside strftime h.fault h.thread
  obtain ⟨s, hs, h⟩ := h.next hs hwrite rfl rfl rfl rfl h.mutex
  have hunlock : s.step strftime t = some ({ s with mutex := .free }.become t
      ⟨none, .call list⟩) := by
    rw [AppenderState.step_outside strftime h.fault h.thread, AppenderState.pcStep, h.mutex]
    simp [Mutex.unlock]
  exact h.next hs hunlock rfl rfl rfl rfl rfl

/-- A `Flush` uses the buffers that are not there. -/
lemma SyncAlone.flush {list : List LogCall}
    (h : SyncAlone s t .free ⟨none, .call (.flush :: list)⟩)
    (hs : (appenderSystem strftime b₀ calls).Reachable s) :
    ∃ s', (appenderSystem strftime b₀ calls).Reachable s' ∧ s'.fault = true := by
  have hcall : s.step strftime t = some (s.become t ⟨some .enter, .call list⟩) :=
    AppenderState.step_outside strftime h.fault h.thread
  obtain ⟨s, hs, h⟩ := h.next hs hcall rfl rfl rfl rfl h.mutex
  have henter : s.step strftime t = some (s.become t ⟨some .lock, .call list⟩) := by
    rw [AppenderState.step_inside strftime h.fault h.thread, AppenderState.flushStep,
      if_neg fun hc => h.kind hc.1]
  obtain ⟨s, hs, h⟩ := h.next hs henter rfl rfl rfl rfl h.mutex
  have hlock : s.step strftime t =
      some ({ s with mutex := .held t 0 }.become t ⟨some .opening, .call list⟩) := by
    rw [AppenderState.step_inside strftime h.fault h.thread, AppenderState.flushStep, h.mutex]
    rfl
  obtain ⟨s, hs, h⟩ := h.next hs hlock rfl rfl rfl rfl rfl
  have hopening : s.step strftime t =
      some ((s.withOutput (flushOpen s.base.kind s.base.output)).become t
        ⟨some .moving, .call list⟩) :=
    AppenderState.step_inside strftime h.fault h.thread
  obtain ⟨s, hs, h⟩ := h.next hs hopening rfl rfl rfl rfl h.mutex
  have hmoving : s.step strftime t = some { s with fault := true } := by
    rw [AppenderState.step_inside strftime h.fault h.thread, AppenderState.flushStep,
      LogAppenderBase.moveAll, h.flushBuffer]
    rfl
  exact ⟨_, hs.next t hmoving, rfl⟩

/-- **A missing buffer.** A thread that calls `Flush` of a synchronous appender that is not a
console may come to use buffers that are not there. -/
theorem SyncAlone.reaches_fault : ∀ (list : List LogCall) (s : AppenderState ι),
    (appenderSystem strftime b₀ calls).Reachable s → SyncAlone s t .free ⟨none, .call list⟩ →
    .flush ∈ list → ∃ s', (appenderSystem strftime b₀ calls).Reachable s' ∧ s'.fault = true
  | [], _, _, _, hmem => absurd hmem List.not_mem_nil
  | .append _ :: list, _, hs, h, hmem => by
      obtain ⟨s', hs', h'⟩ := h.append hs
      exact reaches_fault list s' hs' h' (by simpa using hmem)
  | .flush :: _, _, hs, h, _ => h.flush hs

end Alone

end Sync

/-! ### Agreement -/

section Agreement

variable {strftime : Strftime} {conf : AppenderConf} {fs : FileSystem CString LogItem}
  {ctime ptime : Tm} {buffersz : ℕ} {calls : List LogCall}

/-- A run that does not use a missing buffer can go on until the appender is destroyed. -/
lemma runsWell_of_fault {b : LogAppenderBase} (hb : b.Fresh)
    (hfault : ∀ s : AppenderState Unit, (appenderSystem strftime b fun _ => calls).Reachable s →
      s.fault = false) : RunsWell strftime b calls :=
  fun s hs => ⟨hfault s hs, (appenderInv_reachable hb hs).progress (hfault s hs)⟩

lemma runsWell_async :
    RunsWell strftime (appenderSetAsync (appenderCreate strftime conf fs ctime ptime) buffersz)
      calls :=
  fun _ hs => asyncAppender_runs hs

lemma runsWell_sync (h : conf = .console ∨ .flush ∉ calls) :
    RunsWell strftime (appenderCreate strftime conf fs ctime ptime) calls := by
  have hb := fresh_appenderUsed strftime conf fs ctime ptime none
  refine runsWell_of_fault hb fun s hs => (syncQuiet_reachable hb rfl (fun _ => ?_) hs).fault
  refine h.imp_left fun hconf => ?_
  rw [hconf]
  rfl

/-- With a call of `Flush`, a file appender and a rolling one do not run well. -/
lemma not_runsWell_of_flush (hconf : conf ≠ .console) (hmem : .flush ∈ calls) :
    ¬ RunsWell strftime (appenderCreate strftime conf fs ctime ptime) calls := by
  intro hruns
  have hstart : (appenderSystem strftime (appenderCreate strftime conf fs ctime ptime)
      fun _ : Unit => calls).Reachable
      (appenderStart (appenderCreate strftime conf fs ctime ptime) fun _ => calls) := .start rfl
  have halone : SyncAlone (appenderStart (appenderCreate strftime conf fs ctime ptime)
      fun _ : Unit => calls) (.caller ()) .free ⟨none, .call calls⟩ := by
    refine ⟨rfl, rfl, ?_, rfl, rfl, rfl⟩
    cases conf with
    | console => exact absurd rfl hconf
    | _ => exact nofun
  obtain ⟨s, hs, hfault⟩ := SyncAlone.reaches_fault calls _ hstart halone hmem
  rw [(hruns s hs).1] at hfault
  cases hfault

/-- The lines of one thread are appended in the order of its calls. -/
lemma Interleaves.single {order : List (AppenderTid Unit × LogItem)}
    (h : Interleaves (fun _ => calls) order) : order.map Prod.snd = appendedLines calls := by
  obtain ⟨hcaller, hlines⟩ := h
  rw [← hlines (), linesOf, List.filter_eq_self.mpr]
  intro entry hentry
  obtain ⟨i, hi⟩ := hcaller entry hentry
  simp [hi]

/-- What a finished run of one thread has printed. -/
lemma finished_output (mode : Option ℕ) {s : AppenderState Unit}
    (hs : (appenderSystem strftime (appenderUsed (appenderCreate strftime conf fs ctime ptime) mode)
      fun _ => calls).Reachable s) (hfinished : s.Finished) :
    s.base.output = (appendedLines calls).foldl (appenderWrite strftime conf.kind)
        (conf.start strftime fs ctime ptime) ∨
      s.base.output = flushOpen conf.kind ((appendedLines calls).foldl
        (appenderWrite strftime conf.kind) (conf.start strftime fs ctime ptime)) := by
  have hi := appenderInv_reachable (fresh_appenderUsed strftime conf fs ctime ptime mode) hs
  obtain ⟨hlines, hout⟩ := hi.finished hfinished
  obtain ⟨hkind, houtput⟩ := appenderUsed_kind (appenderCreate strftime conf fs ctime ptime) mode
  rw [hkind, houtput, hlines.single] at hout
  exact hout

/-- Writing lines leaves the file there. -/
lemma ready_foldl {kind : AppenderKind} : ∀ (items : List LogItem) (o : LogOutput),
    Ready kind o ∨ items ≠ [] → Ready kind (items.foldl (appenderWrite strftime kind) o)
  | [], _, h => h.resolve_right fun hne => hne rfl
  | _ :: items, _, _ => ready_foldl items _ (.inl ready_write)

/-- Calls without `Flush` append a line each. -/
lemma appendedLines_ne_nil (hflush : .flush ∉ calls) (hne : calls ≠ []) :
    appendedLines calls ≠ [] := by
  rcases calls with _ | ⟨item | _, calls⟩
  · exact absurd rfl hne
  · exact List.cons_ne_nil _ _
  · exact absurd (List.mem_cons_self ..) hflush

/-- Without calls a synchronous file appender leaves the files as they are. -/
lemma sync_end (strftime : Strftime) (fpath : CString) (fs : FileSystem CString LogItem)
    (ctime ptime : Tm) :
    let s := appenderAfter strftime (appenderCreate strftime (.file fpath) fs ctime ptime)
      (fun _ : Unit => []) (List.replicate 4 .destroyer)
    s.Finished ∧ s.base.output.fs = fs :=
  ⟨rfl, rfl⟩

/-- Without calls the writer thread of an asynchronous file appender opens the file. -/
lemma async_end (strftime : Strftime) (fpath : CString) (fs : FileSystem CString LogItem)
    (ctime ptime : Tm) (buffersz : ℕ) :
    let s := appenderAfter strftime (appenderSetAsync (appenderCreate strftime (.file fpath) fs
      ctime ptime) buffersz) (fun _ : Unit => [])
      (List.replicate 3 .destroyer ++ List.replicate 8 .writer ++ [.destroyer])
    s.Finished ∧ s.base.output.fs = fs.openAppend fpath :=
  ⟨rfl, rfl⟩

/-- When something is printed, or the file is there, opening the file once more does nothing. -/
lemma flushOpen_foldl (hflush : .flush ∉ calls)
    (hfile : ∀ fpath, conf = .file fpath → (fs.content fpath).isSome ∨ calls ≠ []) :
    flushOpen conf.kind ((appendedLines calls).foldl (appenderWrite strftime conf.kind)
        (conf.start strftime fs ctime ptime)) =
      (appendedLines calls).foldl (appenderWrite strftime conf.kind)
        (conf.start strftime fs ctime ptime) := by
  cases conf with
  | console => rfl
  | rolling fpath logterm rollpath => rfl
  | file fpath =>
      refine flushOpen_of_ready (ready_foldl _ _ ?_)
      exact (hfile fpath rfl).imp id (appendedLines_ne_nil hflush)

end Agreement

end LibCmutils
