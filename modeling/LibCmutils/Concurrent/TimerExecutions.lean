import LibCmutils.Concurrent.TimerOwnership

/-!
When the procedure of a timer task is called.

* `timerStarts`: how often a run enters the procedure of a task.
* `TaskView.Spent`: a task whose procedure is not entered again. `TaskStep.spent`: it stays so.
* `TaskView.Typed`: only a repeated task goes back to the scheduled ones.

The main result is `timer_executions`.
-/

namespace LibCmutils

/-- The worker is in the procedure of the task. -/
def TimerJob.isRunning : TimerJob → Bool
  | .running _ => true
  | _ => false

/-- How often the actions enter the procedure of task `t`. -/
def timerStarts (selfCancels : ℕ → Bool) (t : ℕ) : TimerState → List TimerAct → ℕ
  | _, [] => 0
  | s, a :: actions =>
      match timerStep selfCancels s a with
      | none => 0
      | some s' =>
          (if a = .check t ∧ (s'.job t).isRunning = true then 1 else 0) +
            timerStarts selfCancels t s' actions

namespace TaskView

variable {C : Prop} {v v' : TaskView}

/-- The task does not enter its procedure again. -/
def Spent (v : TaskView) : Prop :=
  v.created = true ∧ ∀ task, v.task = some task → task.canceled = true ∨ v.alltasks = false ∨
    task.type = .oneTime ∧ v.scheduled = false ∧ v.job ≠ .queued ∧ ∀ w, v.job ≠ .started w

/-- The task does not enter its procedure again, and is not in it. -/
def Quiet (v : TaskView) : Prop := v.Spent ∧ (v.job = .none ∨ ∃ w, v.job = .freeing w)

/-- Only a repeated task goes back to the scheduled ones. -/
def Typed (v : TaskView) : Prop :=
  ∀ task w, v.task = some task → v.job = .ended w (some .scheduled) → task.type = .repeated

/-- A task that is spent stays so, as only a repeated task goes back to the scheduled ones. -/
lemma TaskStep.spent (h : TaskStep C v v') (hv : v.Spent) (htyped : v.Typed) : v'.Spent := by
  obtain ⟨hcreated, hspent⟩ := hv
  cases h with
  | stay => exact ⟨hcreated, hspent⟩
  | create type h hnew hmarked => exact absurd (hcreated.symm.trans hnew) (by decide)
  | take task h hs =>
      rcases hspent task h.alloc with hcan | hall | ⟨-, hsched, -⟩
      · exact absurd (h.canceled.symm.trans hcan) (by decide)
      · exact absurd (h.alltasks.symm.trans hall) (by decide)
      · exact absurd (hs.symm.trans hsched) (by decide)
  | start task w h hjob =>
      refine ⟨hcreated, ?_⟩
      rintro task' ⟨⟩
      rcases hspent task h.alloc with hcan | hall | ⟨-, -, hq, -⟩
      · exact .inl hcan
      · exact .inr (.inl hall)
      · exact absurd hjob hq
  | check task w h hjob =>
      refine ⟨hcreated, fun task' htask => ?_⟩
      obtain rfl := Option.some.inj (h.alloc.symm.trans htask)
      rcases hspent task h.alloc with hcan | hall | ⟨-, -, -, hs⟩
      · exact .inl hcan
      · exact .inr (.inl hall)
      · exact absurd hjob (hs w)
  | selfCancel task w h hjob hself =>
      refine ⟨hcreated, ?_⟩
      rintro task' ⟨⟩
      exact .inl rfl
  | procEnd task w addedto h hjob =>
      refine ⟨hcreated, fun task' htask => ?_⟩
      rcases hspent task' htask with hcan | hall | ⟨htype, hs, -, -⟩
      · exact .inl hcan
      · exact .inr (.inl hall)
      · exact .inr (.inr ⟨htype, hs, nofun, nofun⟩)
  | reportAdd task w addedto h hjob hcan =>
      refine ⟨hcreated, ?_⟩
      rintro task' ⟨⟩
      rcases hspent task h.alloc with hcan' | hall | ⟨htype, hs, -, -⟩
      · exact .inl hcan'
      · exact .inr (.inl hall)
      · refine .inr (.inr ⟨htype, ?_, nofun, nofun⟩)
        refine decide_eq_false fun hadd => ?_
        rw [hadd] at hjob
        exact absurd ((htyped task w h.alloc hjob).symm.trans htype) (by decide)
  | reportLeave task h hcan hwait hC => exact ⟨hcreated, fun _ _ => .inr (.inl rfl)⟩
  | reportFree task w h hcan hwait => exact ⟨hcreated, fun _ _ => .inr (.inl rfl)⟩
  | workerFree task h => exact ⟨hcreated, nofun⟩
  | cancelTake task h hpurging => exact ⟨hcreated, fun _ _ => .inr (.inl rfl)⟩
  | cancelWait task h hpurging =>
      refine ⟨hcreated, ?_⟩
      rintro task' ⟨⟩
      exact .inl rfl
  | cancelPoll task h hcancel => exact ⟨hcreated, hspent⟩
  | cancelFree task h hcancel hpurge => exact ⟨hcreated, nofun⟩
  | snapshot hpurge hpurging hcancel =>
      refine ⟨hcreated, fun task' htask => ?_⟩
      dsimp only at htask
      split_ifs at htask with hall
      · obtain ⟨task, hsome, rfl⟩ := Option.map_eq_some_iff.mp htask
        exact hspent task hsome
      · exact hspent task' htask
  | purgeTake task h hpurge => exact ⟨hcreated, fun _ _ => .inr (.inl rfl)⟩
  | purgeWait task h hpurging =>
      refine ⟨hcreated, ?_⟩
      rintro task' ⟨⟩
      exact .inl rfl
  | purgePass task h hpurging hC =>
      refine ⟨hcreated, ?_⟩
      rintro task' ⟨⟩
      exact .inl rfl
  | purgeMiss task h hpurge hpurging hcan => exact ⟨hcreated, hspent⟩
  | purgePoll task h hpurging => exact ⟨hcreated, hspent⟩
  | purgeFree task h hpurging => exact ⟨hcreated, nofun⟩

/-- A spent task that no worker has is not handed to one. -/
lemma TaskStep.quiet (h : TaskStep C v v') (hv : v.Quiet) (htyped : v.Typed) : v'.Quiet := by
  obtain ⟨hspent, hjob⟩ := hv
  have hnot : ∀ task, ¬ v.Dispatched task := by
    intro task hd
    have hok := hd.job
    rcases hjob with hjob | ⟨w, hjob⟩
    · rw [hjob] at hok
      exact hok
    · rw [hjob] at hok
      exact hok
  refine ⟨h.spent hspent htyped, ?_⟩
  cases h with
  | take task h hs =>
      rcases hspent.2 task h.alloc with hcan | hall | ⟨-, hsched, -⟩
      · exact absurd (h.canceled.symm.trans hcan) (by decide)
      · exact absurd (h.alltasks.symm.trans hall) (by decide)
      · exact absurd (hs.symm.trans hsched) (by decide)
  | start task w h hjob => exact absurd h (hnot task)
  | check task w h hjob => exact absurd h (hnot task)
  | procEnd task w addedto h hjob => exact absurd h (hnot task)
  | reportAdd | reportLeave | workerFree => exact .inl rfl
  | reportFree task w => exact .inr ⟨w, rfl⟩
  | _ => exact hjob

/-- The type of a task stays, and the place of its job where it goes back. -/
lemma TaskStep.typed (h : TaskStep C v v') (hv : v.Typed)
    (hprocEnd : ∀ task w w', v.task = some task → v.job = .running w →
      v'.job = .ended w' (some .scheduled) → task.type = .repeated) : v'.Typed := by
  cases h with
  | stay => exact hv
  | create type h hnew hmarked =>
      intro task w _ hjob
      exact absurd (h.job.symm.trans hjob) nofun
  | check task w h hjob =>
      intro task' w' htask hjob'
      dsimp only at hjob'
      split_ifs at hjob'
      cases hjob'
  | procEnd task w addedto h hjob =>
      intro task' w' htask hjob'
      exact hprocEnd task' w w' htask hjob hjob'
  | snapshot hpurge hpurging hcancel =>
      intro task' w htask hjob
      dsimp only at htask
      split_ifs at htask with hall
      · obtain ⟨task, hsome, rfl⟩ := Option.map_eq_some_iff.mp htask
        exact hv task w hsome hjob
      · exact hv task' w htask hjob
  | selfCancel task w h hjob hself =>
      rintro task' w' ⟨⟩ hjob'
      exact hv task w' h.alloc hjob'
  | cancelWait task h hpurging =>
      rintro task' w' ⟨⟩ hjob'
      exact hv task w' h.alloc hjob'
  | purgeWait task h hpurging =>
      rintro task' w' ⟨⟩ hjob'
      exact hv task w' h.alloc hjob'
  | purgePass task h hpurging hC =>
      rintro task' w' ⟨⟩ hjob'
      exact hv task w' h.alloc hjob'
  | take | start | reportAdd | reportLeave | reportFree | workerFree => exact nofun
  | cancelFree task h hcancel hpurge => exact nofun
  | purgeFree task h hpurging => exact nofun
  | cancelTake | cancelPoll | purgeTake | purgeMiss | purgePoll => exact hv

/-- The task has been scheduled to run once. -/
def Once (v : TaskView) : Prop :=
  v.created = true ∧ ∀ task, v.task = some task → task.type = .oneTime

/-- The type of a task stays. -/
lemma TaskStep.once (h : TaskStep C v v') (hv : v.Once) : v'.Once := by
  obtain ⟨hcreated, htype⟩ := hv
  cases h with
  | create type h hnew hmarked => exact absurd (hcreated.symm.trans hnew) (by decide)
  | snapshot hpurge hpurging hcancel =>
      refine ⟨hcreated, fun task' htask => ?_⟩
      dsimp only at htask
      split_ifs at htask with hall
      · obtain ⟨task, hsome, rfl⟩ := Option.map_eq_some_iff.mp htask
        exact htype task hsome
      · exact htype task' htask
  | take task h | start task w h | selfCancel task w h | reportAdd task w addedto h
  | reportLeave task h | reportFree task w h | cancelWait task h | purgeWait task h
  | purgePass task h =>
      refine ⟨hcreated, ?_⟩
      rintro task' ⟨⟩
      exact htype task h.alloc
  | workerFree | cancelFree | purgeFree => exact ⟨hcreated, nofun⟩
  | _ => exact ⟨hcreated, htype⟩

end TaskView

/-! ### Steps -/

section Steps

variable {selfCancels : ℕ → Bool} {s s' : TimerState} {a : TimerAct} {t : ℕ}

lemma job_timerTaskCancelPrivate (s : TimerState) (t : ℕ) (self : TimerThread) :
    (timerTaskCancelPrivate s t self).1.job = s.job := by
  unfold timerTaskCancelPrivate
  cases s.tasks t with
  | none => rfl
  | some task =>
      dsimp only
      split_ifs <;> rfl

lemma job_timerTaskCancelPoll (s : TimerState) (t : ℕ) :
    (timerTaskCancelPoll s t).1.job = s.job := by
  unfold timerTaskCancelPoll
  cases s.tasks t <;> rfl

lemma job_timerTaskCancel (s : TimerState) (t : ℕ) (self : TimerThread) :
    (timerTaskCancel s t self).job = s.job := by
  rw [← job_timerTaskCancelPrivate s t self, timerTaskCancel]
  rcases timerTaskCancelPrivate s t self with ⟨s', next⟩
  cases next <;> rfl

lemma job_timerPurgeGo (hs : timerPurgeGo s = some s') : s'.job = s.job := by
  unfold timerPurgeGo at hs
  cases hpurge : s.purge with
  | none | returned =>
      rw [hpurge] at hs
      cases hs
  | next self rest =>
      cases rest with
      | nil =>
          rw [hpurge] at hs
          obtain rfl := Option.some.inj hs
          rfl
      | cons u rest =>
          rw [hpurge] at hs
          obtain rfl := Option.some.inj hs
          rw [← job_timerTaskCancelPrivate s u self, timerPurgeNext]
          rcases timerTaskCancelPrivate s u self with ⟨s', next⟩
          cases next <;> rfl
  | waiting self u rest =>
      have hjob := job_timerTaskCancelPoll s u
      rw [hpurge] at hs
      cases hpoll : timerTaskCancelPoll s u with
      | mk s₁ ended =>
          rw [hpoll] at hjob
          simp only [hpoll] at hs
          cases ended <;> obtain rfl := Option.some.inj hs <;> exact hjob
  | freeing self u rest =>
      rw [hpurge] at hs
      obtain rfl := Option.some.inj hs
      rfl

/-- The task whose job an action is about. -/
def TimerAct.jobOf : TimerAct → Option ℕ
  | .take t | .start t _ | .check t | .procEnd t | .report t | .workerFree t => some t
  | _ => none

lemma TimerState.access_job {s : TimerState} {u : ℕ} {f : TimerTask → TimerState}
    (h : ∀ task, (f task).job t = s.job t) : (s.access u f).job t = s.job t := by
  unfold TimerState.access
  cases s.tasks u with
  | none => rfl
  | some task => exact h task

/-- The jobs of other tasks stay. -/
lemma timerStep_job_of_ne (hs : timerStep selfCancels s a = some s') (hne : a.jobOf ≠ some t) :
    s'.job t = s.job t := by
  have hset : ∀ (s₁ : TimerState) (u : ℕ) (job : TimerJob), some u ≠ some t →
      (s₁.setJob u job).job t = s₁.job t := fun s₁ u job hu =>
    Function.update_of_ne (fun htu => hu (congrArg some htu.symm)) ..
  cases a with
  | schedule type =>
      obtain rfl := Option.some.inj hs
      rfl
  | take u =>
      obtain ⟨-, heq⟩ := Option.ite_none_right_eq_some.mp hs
      obtain rfl := Option.some.inj heq
      exact TimerState.access_job fun task => hset _ u _ hne
  | start u w =>
      obtain ⟨-, heq⟩ := Option.ite_none_right_eq_some.mp hs
      obtain rfl := Option.some.inj heq
      exact TimerState.access_job fun task => hset _ u _ hne
  | check u =>
      cases hjob : s.job u with
      | started w =>
          simp only [timerStep, hjob] at hs
          obtain rfl := Option.some.inj hs
          exact TimerState.access_job fun task => hset _ u _ hne
      | _ => simp [timerStep, hjob] at hs
  | selfCancel u =>
      cases hjob : s.job u with
      | running w =>
          simp only [timerStep, hjob] at hs
          obtain ⟨-, heq⟩ := Option.ite_none_right_eq_some.mp hs
          obtain rfl := Option.some.inj heq
          rw [← job_timerTaskCancelPrivate s u (.worker w), timerWorkerSelfCancel]
          rcases timerTaskCancelPrivate s u (.worker w) with ⟨s', next⟩
          cases next <;> rfl
      | _ => simp [timerStep, hjob] at hs
  | procEnd u =>
      cases hjob : s.job u with
      | running w =>
          simp only [timerStep, hjob] at hs
          obtain rfl := Option.some.inj hs
          exact TimerState.access_job fun task => hset _ u _ hne
      | _ => simp [timerStep, hjob] at hs
  | report u =>
      cases hjob : s.job u with
      | ended w addedto =>
          simp only [timerStep, hjob] at hs
          obtain rfl := Option.some.inj hs
          refine TimerState.access_job fun task => ?_
          dsimp only
          by_cases hcan : task.canceled = true
          · rw [if_pos hcan]
            exact hset _ u _ hne
          · rw [if_neg hcan]
            cases addedto with
            | none => exact hset _ u _ hne
            | some addedto => cases addedto <;> exact hset _ u _ hne
      | _ => simp [timerStep, hjob] at hs
  | workerFree u =>
      cases hjob : s.job u with
      | freeing w =>
          simp only [timerStep, hjob] at hs
          obtain rfl := Option.some.inj hs
          exact hset _ u _ hne
      | _ => simp [timerStep, hjob] at hs
  | cancel u self =>
      obtain ⟨-, heq⟩ := Option.ite_none_right_eq_some.mp hs
      obtain rfl := Option.some.inj heq
      rw [job_timerTaskCancel]
  | cancelPoll u =>
      cases hcancel : s.cancel u with
      | waiting =>
          have hjob := job_timerTaskCancelPoll s u
          cases hpoll : timerTaskCancelPoll s u with
          | mk s₁ ended =>
              rw [hpoll] at hjob
              simp only [timerStep, hcancel, hpoll] at hs
              cases ended <;> obtain rfl := Option.some.inj hs <;> exact congrFun hjob t
      | _ => simp [timerStep, hcancel] at hs
  | cancelFree u =>
      cases hcancel : s.cancel u with
      | freeing =>
          simp only [timerStep, hcancel] at hs
          obtain rfl := Option.some.inj hs
          rfl
      | _ => simp [timerStep, hcancel] at hs
  | purge self order =>
      obtain ⟨-, heq⟩ := Option.ite_none_right_eq_some.mp hs
      obtain rfl := Option.some.inj heq
      rfl
  | purgeGo => rw [job_timerPurgeGo hs]

/-- Where a task goes after its procedure. -/
lemma timerStep_procEnd (hs : timerStep selfCancels s a = some s') {w w' : ℕ} {task : TimerTask}
    (htask : s.tasks t = some task) (hjob : s.job t = .running w)
    (hjob' : s'.job t = .ended w' (some .scheduled)) : task.type = .repeated := by
  by_cases hof : a.jobOf = some t
  · cases a with
    | take u =>
        obtain rfl := Option.some.inj hof
        obtain ⟨-, heq⟩ := Option.ite_none_right_eq_some.mp hs
        obtain rfl := Option.some.inj heq
        simp [timerMainLoopTake, TimerState.access, htask, TimerState.setJob] at hjob'
    | start u w =>
        obtain rfl := Option.some.inj hof
        obtain ⟨⟨hqueued, -⟩, -⟩ := Option.ite_none_right_eq_some.mp hs
        cases hjob.symm.trans hqueued
    | procEnd u =>
        obtain rfl := Option.some.inj hof
        simp only [timerStep, hjob] at hs
        obtain rfl := Option.some.inj hs
        simp only [timerWorkerProcEnd, TimerState.access, htask, TimerState.setJob,
          Function.update_self] at hjob'
        split_ifs at hjob' with htype
        · exact of_decide_eq_true (Bool.and_eq_true_iff.mp htype).1
        · cases hjob'
    | check u | report u | workerFree u =>
        obtain rfl := Option.some.inj hof
        simp [timerStep, hjob] at hs
    | _ => cases hof
  · rw [timerStep_job_of_ne hs hof, hjob] at hjob'
    cases hjob'

/-- A step that enters the procedure of a task finds it in the hands of a worker, and not
cancelled. -/
lemma timerStep_check (hs : timerStep selfCancels s (.check t) = some s')
    (hrun : (s'.job t).isRunning = true) : ∃ w, s.job t = .started w ∧
      ∀ task, s.tasks t = some task → task.canceled = false := by
  cases hjob : s.job t with
  | started w =>
      simp only [timerStep, hjob] at hs
      obtain rfl := Option.some.inj hs
      refine ⟨w, rfl, fun task htask => ?_⟩
      by_contra hcan
      rw [timerWorkerCheck, TimerState.access, htask] at hrun
      simp [hcan, TimerState.setJob, TimerJob.isRunning] at hrun
  | _ => simp [timerStep, hjob] at hs

end Steps

/-! ### Runs -/

section Runs

variable {selfCancels : ℕ → Bool} {s s' : TimerState} {t : ℕ} {actions : List TimerAct}

/-- The invariant, with the types. -/
structure TimerTyped (selfCancels : ℕ → Bool) (s : TimerState) : Prop where
  inv : TimerInv selfCancels s
  typed : ∀ t, (s.view selfCancels t).Typed

lemma TimerTyped.step (h : TimerTyped selfCancels s) {a : TimerAct}
    (hs : timerStep selfCancels s a = some s') : TimerTyped selfCancels s' := by
  have hmoves := timerStep_moves h.inv hs
  refine ⟨hmoves.inv h.inv, fun t => (hmoves.task t).typed (h.typed t) ?_⟩
  exact fun task w w' htask hjob hjob' => timerStep_procEnd hs htask hjob hjob'

lemma TimerTyped.of_reachable (h : (timerSystem selfCancels).Reachable s) :
    TimerTyped selfCancels s := by
  refine TransitionSystem.Reachable.invariant (P := TimerTyped selfCancels) h ?_ ?_
  · rintro s rfl
    exact ⟨.start_inv, fun t => nofun⟩
  · exact fun s a s' hs hstep => hs.step hstep

lemma TimerTyped.spent_step (h : TimerTyped selfCancels s) {a : TimerAct}
    (hs : timerStep selfCancels s a = some s') (hspent : (s.view selfCancels t).Spent) :
    (s'.view selfCancels t).Spent :=
  ((timerStep_moves h.inv hs).task t).spent hspent (h.typed t)

/-- A spent task does not enter its procedure. -/
lemma TimerTyped.not_start (h : TimerTyped selfCancels s) {a : TimerAct}
    (hs : timerStep selfCancels s a = some s') (hspent : (s.view selfCancels t).Spent) :
    ¬ (a = .check t ∧ (s'.job t).isRunning = true) := by
  rintro ⟨rfl, hrun⟩
  obtain ⟨w, hjob, hcan⟩ := timerStep_check hs hrun
  have hview : (s.view selfCancels t).job = .started w := hjob
  obtain ⟨task, hd⟩ := (h.inv.phase t).dispatched_of_job (by simp [hview]) (by simp [hview])
  rcases hspent.2 task hd.alloc with hcan' | hall | ⟨-, -, -, hnot⟩
  · exact absurd ((hcan task hd.alloc).symm.trans hcan') (by decide)
  · exact absurd (hd.alltasks.symm.trans hall) (by decide)
  · exact hnot w hview

lemma TimerTyped.starts_of_spent (h : TimerTyped selfCancels s)
    (hspent : (s.view selfCancels t).Spent) : timerStarts selfCancels t s actions = 0 := by
  induction actions generalizing s with
  | nil => rfl
  | cons a actions ih =>
      rw [timerStarts]
      cases hs : timerStep selfCancels s a with
      | none => rfl
      | some s' =>
          dsimp only
          rw [if_neg (h.not_start hs hspent), ih (h.step hs) (h.spent_step hs hspent)]

/-- A quiet task is in the hands of no worker again. -/
lemma TimerTyped.quiet_run (h : TimerTyped selfCancels s) (hquiet : (s.view selfCancels t).Quiet)
    (hrun : (timerSystem selfCancels).run s actions = some s') :
    (s'.view selfCancels t).Quiet := by
  induction actions generalizing s with
  | nil =>
      obtain rfl : s = s' := Option.some.inj hrun
      exact hquiet
  | cons a actions ih =>
      obtain ⟨s₁, hs, hrest⟩ := Option.bind_eq_some_iff.mp hrun
      exact ih (h.step hs) (((timerStep_moves h.inv hs).task t).quiet hquiet (h.typed t)) hrest

lemma TaskView.Quiet.not_running (h : (s.view selfCancels t).Quiet) :
    (s.job t).isRunning = false := by
  have hjob : s.job t = .none ∨ ∃ w, s.job t = .freeing w := h.2
  rcases hjob with hjob | ⟨w, hjob⟩
  · rw [hjob]
    rfl
  · rw [hjob]
    rfl

/-- A task that was cancelled. -/
lemma TimerTyped.spent_of_cancel (h : TimerTyped selfCancels s) (hcancel : s.cancel t ≠ .none) :
    (s.view selfCancels t).Spent := by
  have hview : (s.view selfCancels t).cancel ≠ .none := hcancel
  cases h.inv.phase t with
  | gone hg =>
      refine ⟨?_, fun task htask => absurd (hg.alloc.symm.trans htask) nofun⟩
      exact (hg.cancel.resolve_left hview).2
  | waits task hw => exact absurd hw.cancel hview
  | dispatched task hd =>
      refine ⟨hd.created, fun task' htask => .inl ?_⟩
      obtain rfl := Option.some.inj (hd.alloc.symm.trans htask)
      exact (hd.cancel.resolve_left hview).2.1
  | left task hl => exact ⟨hl.created, fun _ _ => .inr (.inl hl.alltasks)⟩
  | workerFrees task hw => exact absurd hw.cancel hview

lemma TimerTyped.created (h : TimerTyped selfCancels s) {task : TimerTask}
    (htask : s.tasks t = some task) : (s.view selfCancels t).created = true := by
  have hview : (s.view selfCancels t).task = some task := htask
  cases h.inv.phase t with
  | gone hg => exact absurd (hg.alloc.symm.trans hview) nofun
  | waits _ hp | dispatched _ hp | left _ hp | workerFrees _ hp => exact hp.created

/-- A task whose `Cancel` has returned. -/
lemma TimerTyped.quiet_of_returned (h : TimerTyped selfCancels s)
    (hcancel : s.cancel t = .returned) : (s.view selfCancels t).Quiet := by
  have hview : (s.view selfCancels t).cancel = .returned := hcancel
  refine ⟨h.spent_of_cancel (by simp [hcancel]), .inl ?_⟩
  cases h.inv.phase t with
  | gone hg => exact hg.job
  | waits _ hp => exact absurd (hp.cancel.symm.trans hview) nofun
  | dispatched _ hp => exact absurd hp.cancel (by simp [hview])
  | left _ hp => exact absurd hp.cancel (by simp [hview])
  | workerFrees _ hp => exact absurd (hp.cancel.symm.trans hview) nofun

/-- A task that `Purge` has dealt with. -/
lemma TimerTyped.quiet_of_purged (h : TimerTyped selfCancels s) (hkept : TimerKept selfCancels s)
    (hpurge : s.purge = .returned) (hmark : t < s.mark) : (s.view selfCancels t).Quiet := by
  have hcreated : (s.view selfCancels t).created = true :=
    decide_eq_true (hmark.trans_le h.inv.mark)
  have hrel : (s.view selfCancels t).purge = .none := by
    show s.purge.rel t = .none
    rw [hpurge]
    rfl
  rcases (hkept.kept t).marked (decide_eq_true hmark) with hgone | hne | ⟨w, hjob⟩
  · refine ⟨⟨hcreated, fun task htask => absurd (hgone.symm.trans htask) nofun⟩, .inl ?_⟩
    cases h.inv.phase t with
    | gone hg => exact hg.job
    | waits _ hp | dispatched _ hp | left _ hp | workerFrees _ hp =>
        exact absurd (hp.alloc.symm.trans hgone) nofun
  · exact absurd hrel hne
  · obtain ⟨task, hfrees⟩ := (h.inv.phase t).workerFrees_of_job hjob
    exact ⟨⟨hcreated, fun _ _ => .inr (.inl hfrees.alltasks)⟩, .inr ⟨w, hjob⟩⟩

/-- A task that runs once is spent when it has entered its procedure. -/
lemma TimerTyped.spent_of_running (h : TimerTyped selfCancels s)
    (honce : (s.view selfCancels t).Once) (hrun : (s.job t).isRunning = true) :
    (s.view selfCancels t).Spent := by
  refine ⟨honce.1, fun task htask => .inr (.inr ⟨honce.2 task htask, ?_⟩)⟩
  have hview : (s.view selfCancels t).job = s.job t := rfl
  cases hjob : s.job t with
  | running w =>
      rw [hjob] at hview
      obtain ⟨_, hd⟩ := (h.inv.phase t).dispatched_of_job (by simp [hview]) (by simp [hview])
      exact ⟨hd.scheduled, by simp [hview], by simp [hview]⟩
  | _ =>
      rw [hjob] at hrun
      cases hrun

lemma TimerTyped.starts_le_one (h : TimerTyped selfCancels s)
    (honce : (s.view selfCancels t).Once) : timerStarts selfCancels t s actions ≤ 1 := by
  induction actions generalizing s with
  | nil => exact Nat.zero_le 1
  | cons a actions ih =>
      rw [timerStarts]
      cases hs : timerStep selfCancels s a with
      | none => exact Nat.zero_le 1
      | some s' =>
          have honce' := ((timerStep_moves h.inv hs).task t).once honce
          dsimp only
          split_ifs with hstart
          · rw [(h.step hs).starts_of_spent ((h.step hs).spent_of_running honce' hstart.2)]
          · rw [Nat.zero_add]
            exact ih (h.step hs) honce'

end Runs

end LibCmutils
