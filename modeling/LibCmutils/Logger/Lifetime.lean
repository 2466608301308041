import LibCmutils.Logger.Basic

/-!
How long configured loggers live.

* `LogRun`: a log system in the middle of its calls. `CreateLogger` is not one step here:
  it adds its logger to `cloggers`, then to the array of one level after the other.
* `LogAlive`: what the level arrays and the loggers refer to was not destroyed.
* `NewName`: the call creates a logger with a name that is not configured yet.
* `confLogger_alive_iff`: references stay alive in a run exactly when no name is
  configured twice. `confLogger_dangling`: a name configured twice, and what is left when
  the second call has returned.
-/

namespace LibCmutils

/-- A log system, and the level arrays that a running `CreateLogger` has yet to fill. -/
structure LogRun where
  sys : LogSystem
  todo : List (ℕ × LogLevel)

/-- A call that begins, or the next round of the loop of `CreateLogger`. -/
inductive LogRunAct where
  | call (a : LogAct)
  | levelAdd

/-- One step. -/
def logRunStep (s : LogRun) : LogRunAct → Option LogRun
  | .call (.createLogger name level additivity) =>
      if s.todo = [] then
        let res := s.sys.next
        some { sys := logSystemOwn (logSystemAlloc s.sys name level additivity) res,
               todo := level.upTo.map fun i => (res, i) }
      else none
  | .call a => if s.todo = [] then (logStep s.sys a).map fun t => { sys := t, todo := [] } else none
  | .levelAdd =>
      match s.todo with
      | [] => none
      | (res, i) :: todo => some { sys := logSystemLevelAdd s.sys res i, todo := todo }

/-- The log system before the first call. -/
def logRunStart : LogRun := { sys := logSystemCreate, todo := [] }

/-- A log system and a program that uses it, step by step. -/
def logRunSystem : TransitionSystem LogRun LogRunAct where
  init s := s = logRunStart
  step := logRunStep

lemma logRun_levelAdds (res : ℕ) : ∀ (levels : List LogLevel) (s : LogSystem),
    logRunSystem.run { sys := s, todo := levels.map fun i => (res, i) }
      (List.replicate levels.length .levelAdd) =
      some { sys := levels.foldl (fun s i => logSystemLevelAdd s res i) s, todo := [] }
  | [], _ => rfl
  | i :: levels, s => logRun_levelAdds res levels (logSystemLevelAdd s res i)

/-- The steps of a `CreateLogger` together are the call. -/
theorem logRun_createLogger (s : LogSystem) (name : Option CString) (level : LogLevel)
    (additivity : Bool) :
    logRunSystem.run { sys := s, todo := [] } (.call (.createLogger name level additivity) ::
        List.replicate level.upTo.length .levelAdd) =
      some { sys := (logSystemCreateLogger s name level additivity).1, todo := [] } :=
  logRun_levelAdds _ level.upTo _

/-- **No dangling reference.** -/
structure LogAlive (s : LogSystem) : Prop where
  levels : ∀ i, ∀ p ∈ s.levelloggers i, p ∉ s.destroyed
  refs : ∀ lg ∈ s.loggers, ∀ p ∈ lg.logrefs, p ∉ s.destroyed

/-- A `CreateLogger` gives a name that no configured logger has. -/
def NewName (s : LogRun) : LogRunAct → Prop
  | .call (.createLogger name _ _) =>
      ∀ p ∈ s.sys.cloggers, (s.sys.conf p).name ≠ name.getD .empty
  | _ => True

/-! ### Runs without a second logger of a name -/

/-- Nothing was destroyed, all configured loggers are owned, and each is in the array of
`CMLogLevel_Fatal` or on the way there. -/
structure LogRunInv (s : LogRun) : Prop where
  destroyed : s.sys.destroyed = []
  owned : ∀ p, p ∈ s.sys.cloggers ↔ p < s.sys.next
  names : ∀ p q, p < s.sys.next → q < s.sys.next →
    (s.sys.conf p).name = (s.sys.conf q).name → p = q
  todo : ∀ r ∈ s.todo, r.1 < s.sys.next
  levels : ∀ i, ∀ p ∈ s.sys.levelloggers i, p < s.sys.next
  fatal : ∀ p, p < s.sys.next → p ∈ s.sys.levelloggers .fatal ∨ (p, .fatal) ∈ s.todo

namespace LogRunInv

variable {s s' : LogRun}

lemma start : LogRunInv logRunStart where
  destroyed := rfl
  owned := fun p => by simp [logRunStart, logSystemCreate]
  names := fun p _ hp => absurd hp (Nat.not_lt_zero p)
  todo := fun _ h => nomatch h
  levels := fun _ _ h => nomatch h
  fatal := fun p hp => absurd hp (Nat.not_lt_zero p)

lemma alive (h : LogRunInv s) : LogAlive s.sys := by
  constructor <;> intros <;> simp [h.destroyed]

/-- The names of the numbers in use, with the new logger in memory. -/
lemma alloc_name (s : LogSystem) (name : Option CString) (level : LogLevel) (additivity : Bool)
    (p : ℕ) : ((logSystemAlloc s name level additivity).conf p).name =
      if p = s.next then name.getD .empty else (s.conf p).name := by
  by_cases hp : p = s.next <;> simp [logSystemAlloc, hp]

/-- `Add` to `cloggers` when the name is new. -/
lemma createLogger (h : LogRunInv s) (name : Option CString) (level : LogLevel)
    (additivity : Bool) (htodo : s.todo = [])
    (hnew : ∀ p ∈ s.sys.cloggers, (s.sys.conf p).name ≠ name.getD .empty) :
    LogRunInv
      { sys := logSystemOwn (logSystemAlloc s.sys name level additivity) s.sys.next,
        todo := level.upTo.map fun i => (s.sys.next, i) } := by
  have hzero : ∀ p ∈ s.sys.cloggers,
      confLoggerComparator (logSystemAlloc s.sys name level additivity) s.sys.next p ≠ 0 := by
    intro p hp hz
    have heq := strcmp_eq_zero.mp hz
    have hlt := (h.owned p).mp hp
    rw [alloc_name, alloc_name, if_pos rfl, if_neg hlt.ne] at heq
    exact hnew p hp heq.symm
  refine ⟨?_, fun p => ?_, fun p q hp hq heq => ?_, fun r hr => ?_, fun i p hp => ?_, fun p hp => ?_⟩
  · show s.sys.destroyed ++ _ = []
    rw [h.destroyed, List.nil_append, List.filter_eq_nil_iff]
    intro p hp
    simp [hzero p hp]
  · show p ∈ sortedAdd _ s.sys.next s.sys.cloggers ↔ p < s.sys.next + 1
    constructor
    · intro hp
      rcases eq_or_mem_of_mem_sortedAdd hp with rfl | hp
      · exact Nat.lt_succ_self _
      · exact Nat.lt_succ_of_lt ((h.owned p).mp hp)
    · intro hp
      rcases Nat.lt_succ_iff_lt_or_eq.mp hp with hp | rfl
      · have hp := (h.owned p).mpr hp
        exact (mem_sortedAdd_or _ _ hp).resolve_right (hzero p hp)
      · exact self_mem_sortedAdd
  · have hp : p < s.sys.next + 1 := hp
    have hq : q < s.sys.next + 1 := hq
    have heq : ((logSystemAlloc s.sys name level additivity).conf p).name =
      ((logSystemAlloc s.sys name level additivity).conf q).name := heq
    rw [alloc_name, alloc_name] at heq
    split_ifs at heq with hpn hqn hqn
    · exact hpn.trans hqn.symm
    · exact absurd heq.symm (hnew q ((h.owned q).mpr (by omega)))
    · exact absurd heq (hnew p ((h.owned p).mpr (by omega)))
    · exact h.names p q (by omega) (by omega) heq
  · obtain ⟨i, -, rfl⟩ := List.mem_map.mp hr
    exact Nat.lt_succ_self _
  · exact Nat.lt_succ_of_lt (h.levels i p hp)
  · rcases Nat.lt_succ_iff_lt_or_eq.mp hp with hp | rfl
    · exact .inl ((h.fatal p hp).resolve_right (by simp [htodo]))
    · exact .inr (List.mem_map.mpr ⟨.fatal, LogLevel.mem_upTo.mpr (LogLevel.le_fatal _), rfl⟩)

/-- `Add` to the array of a level. -/
lemma levelAdd (h : LogRunInv s) {res : ℕ} {i : LogLevel} {todo : List (ℕ × LogLevel)}
    (htodo : s.todo = (res, i) :: todo) :
    LogRunInv { sys := logSystemLevelAdd s.sys res i, todo := todo } := by
  have hres : res < s.sys.next := h.todo (res, i) (by simp [htodo])
  have hkeep : ∀ p j, p ∈ s.sys.levelloggers j → p ∈ (logSystemLevelAdd s.sys res i).levelloggers j := by
    intro p j hp
    by_cases hj : j = i
    · subst hj
      simp only [logSystemLevelAdd, Function.update_self]
      refine (mem_sortedAdd_or _ _ hp).elim id fun hz => ?_
      obtain rfl := h.names res p hres (h.levels j p hp) (strcmp_eq_zero.mp hz)
      exact self_mem_sortedAdd
    · simpa only [logSystemLevelAdd, Function.update_of_ne hj] using hp
  refine ⟨h.destroyed, h.owned, h.names, fun r hr => h.todo r (by simp [htodo, hr]),
    fun j p hp => ?_, fun p hp => ?_⟩
  · by_cases hj : j = i
    · subst hj
      simp only [logSystemLevelAdd, Function.update_self] at hp
      rcases eq_or_mem_of_mem_sortedAdd hp with rfl | hp
      · exact hres
      · exact h.levels j p hp
    · simp only [logSystemLevelAdd, Function.update_of_ne hj] at hp
      exact h.levels j p hp
  · rcases h.fatal p hp with hmem | hmem
    · exact .inl (hkeep p .fatal hmem)
    · rw [htodo] at hmem
      rcases List.mem_cons.mp hmem with heq | hmem
      · obtain ⟨rfl, rfl⟩ := Prod.mk.inj heq
        refine .inl ?_
        simp only [logSystemLevelAdd, Function.update_self]
        exact self_mem_sortedAdd
      · exact .inr hmem

/-- The other calls leave the configured loggers and their arrays alone. -/
lemma quiet (h : LogRunInv s) {a : LogAct} {t : LogSystem} (htodo : s.todo = [])
    (ha : ∀ name level additivity, a ≠ .createLogger name level additivity)
    (hs : logStep s.sys a = some t) : LogRunInv { sys := t, todo := [] } := by
  have hsame : t.destroyed = s.sys.destroyed ∧ t.cloggers = s.sys.cloggers ∧
      t.next = s.sys.next ∧ t.levelloggers = s.sys.levelloggers ∧
      ∀ p, (t.conf p).name = (s.sys.conf p).name := by
    cases a with
    | createLogger name level additivity => exact absurd rfl (ha name level additivity)
    | addAppender clogger appender level =>
        obtain ⟨p, -, rfl⟩ := Option.map_eq_some_iff.mp hs
        rw [confLoggerAddAppender, logSystemAddAppender]
        split
        all_goals
          refine ⟨rfl, rfl, rfl, rfl, fun q => ?_⟩
          by_cases hq : q = p <;> simp [hq]
    | getLogger name =>
        obtain rfl := Option.some.inj hs
        rw [logSystemGetLogger]
        split <;> exact ⟨rfl, rfl, rfl, rfl, fun _ => rfl⟩
    | logEx name level =>
        simp only [logStep, Option.ite_none_right_eq_some, Option.some.injEq] at hs
        obtain ⟨-, rfl⟩ := hs
        exact ⟨rfl, rfl, rfl, rfl, fun _ => rfl⟩
  obtain ⟨hdestroyed, hcloggers, hnext, hlevels, hnames⟩ := hsame
  constructor <;> simp only [hdestroyed, hcloggers, hnext, hlevels, hnames]
  · exact h.destroyed
  · exact h.owned
  · exact h.names
  · simp
  · exact h.levels
  · simpa only [htodo] using h.fatal

end LogRunInv

lemma logRunStep_inv {s s' : LogRun} {a : LogRunAct} (h : LogRunInv s) (hnew : NewName s a)
    (hs : logRunStep s a = some s') : LogRunInv s' := by
  cases a with
  | call a =>
      cases a with
      | createLogger name level additivity =>
          simp only [logRunStep, Option.ite_none_right_eq_some, Option.some.injEq] at hs
          obtain ⟨htodo, rfl⟩ := hs
          exact h.createLogger name level additivity htodo hnew
      | addAppender | getLogger | logEx =>
          simp only [logRunStep, Option.ite_none_right_eq_some] at hs
          obtain ⟨htodo, hs⟩ := hs
          obtain ⟨t, ht, rfl⟩ := Option.map_eq_some_iff.mp hs
          exact h.quiet htodo (fun _ _ _ => by simp) ht
  | levelAdd =>
      simp only [logRunStep] at hs
      split at hs
      next => cases hs
      next res i todo htodo =>
        obtain rfl := Option.some.inj hs
        exact h.levelAdd htodo

lemma logRun_inv {s : LogRun} (h : logRunSystem.ReachableBy NewName s) : LogRunInv s :=
  h.invariant (fun _ hs => hs ▸ LogRunInv.start) fun _ _ _ hi hc hs => logRunStep_inv hi hc hs

/-- A second logger of a name destroys the first one, which the array of `CMLogLevel_Fatal`
still refers to. -/
lemma LogRunInv.not_alive {s s' : LogRun} {a : LogRunAct} (h : LogRunInv s)
    (hs : logRunStep s a = some s') (hold : ¬ NewName s a) : ¬ LogAlive s'.sys := by
  cases a with
  | levelAdd => exact absurd trivial hold
  | call a =>
      cases a with
      | addAppender | getLogger | logEx => exact absurd trivial hold
      | createLogger name level additivity =>
          simp only [logRunStep, Option.ite_none_right_eq_some, Option.some.injEq] at hs
          obtain ⟨htodo, rfl⟩ := hs
          simp only [NewName, not_forall, not_not] at hold
          obtain ⟨p, hp, hname⟩ := hold
          have hlt := (h.owned p).mp hp
          have hzero : confLoggerComparator (logSystemAlloc s.sys name level additivity)
              s.sys.next p = 0 := by
            refine strcmp_eq_zero.mpr ?_
            rw [LogRunInv.alloc_name, LogRunInv.alloc_name, if_pos rfl, if_neg hlt.ne, hname]
          have hfatal : p ∈ s.sys.levelloggers .fatal :=
            (h.fatal p hlt).resolve_right (by simp [htodo])
          intro halive
          refine halive.levels .fatal p hfatal (List.mem_append_right _ (List.mem_filter.mpr ⟨hp, ?_⟩))
          simp [hzero, hlt.ne]

/-- **Configured loggers stay alive** in every state of a run exactly when no call of it
creates a logger with a name that is configured already. -/
theorem confLogger_alive_iff (acts : List LogRunAct) (s : LogRun)
    (hrun : logRunSystem.run logRunStart acts = some s) :
    logRunSystem.Throughout (fun s => LogAlive s.sys) logRunStart acts ↔
      logRunSystem.Meets NewName logRunStart acts :=
  TransitionSystem.throughout_iff_meets (P := fun s => LogAlive s.sys) rfl
    (fun _ h => (logRun_inv h).alive)
    (fun _ _ _ h hs hold => (logRun_inv h).not_alive hs hold) hrun

/-- Two configured loggers of different names, and a logger below one of them. -/
theorem confLogger_alive_two :
    logRunSystem.Throughout (fun s => LogAlive s.sys) logRunStart
        [.call (.createLogger none .error true), .levelAdd, .levelAdd,
          .call (.createLogger (some ⟨[0x61], by decide⟩) .fatal true), .levelAdd,
          .call (.getLogger ⟨[0x61], by decide⟩)] ↔
      logRunSystem.Meets NewName logRunStart
        [.call (.createLogger none .error true), .levelAdd, .levelAdd,
          .call (.createLogger (some ⟨[0x61], by decide⟩) .fatal true), .levelAdd,
          .call (.getLogger ⟨[0x61], by decide⟩)] :=
  confLogger_alive_iff _ _ (Option.some_get (show (logRunSystem.run logRunStart _).isSome from rfl)).symm

/-- The name `a` is configured from `CMLogLevel_Info` on, a logger of that name is got, and
`a` is configured again from `CMLogLevel_Warn` on. When the second `CreateLogger` has
returned, the array of `CMLogLevel_Info` and the logger refer to the first one. -/
theorem confLogger_dangling :
    ¬ ∀ (acts : List LogRunAct) (s : LogRun), logRunSystem.run logRunStart acts = some s →
      s.todo = [] → LogAlive s.sys := by
  intro h
  have hrun := Option.some_get (show (logRunSystem.run logRunStart
    ([.call (.createLogger (some ⟨[0x61], by decide⟩) .info true), .levelAdd, .levelAdd, .levelAdd,
      .levelAdd, .call (.getLogger ⟨[0x61], by decide⟩),
      .call (.createLogger (some ⟨[0x61], by decide⟩) .warn true), .levelAdd, .levelAdd,
      .levelAdd])).isSome from rfl)
  exact (h _ _ hrun.symm rfl).levels .info 0 (by decide) (by decide)

end LibCmutils
