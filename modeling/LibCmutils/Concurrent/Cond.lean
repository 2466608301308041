import LibCmutils.Lib.Transition
import Mathlib.Data.Int.Notation
import Mathlib.Data.List.Nodup
import Mathlib.Data.List.Perm.Basic

/-!
Condition objects (`src/concurrent.c`): `CMUTIL_Cond` over a mutex, a condition variable
and the flag `state`.

* `CondState`: the record, the threads blocked in the condition wait and those that have
  been woken and wait for the mutex.
* `condWaitLoop`, `condTimedWaitLoop`: what a thread does with the mutex in hand, up to the
  next wait or the return; `condStep` interleaves these sections with wake-ups.
* `CondInv`: a set state and a blocked thread leave a woken thread.
* `cond_noLostWakeup`: no wake-up is lost, and no state is taken twice.

An error of the clock ends `CMUTIL_CondTimedWait` at once; a time-out in the past is one
that has passed.
-/

namespace LibCmutils

variable {Tid : Type}

/-- A thread in the condition wait, of a timed call or not. -/
structure CondWaiter (Tid : Type) where
  tid : Tid
  timed : Bool
  deriving DecidableEq

/-- A thread that comes back from the condition wait, `timedout` when the wait returned
`COND_TIMEDOUT`. -/
structure CondWoken (Tid : Type) where
  waiter : CondWaiter Tid
  timedout : Bool
  deriving DecidableEq

/-- `CMUTIL_Cond_Internal`, and the threads inside its calls. -/
structure CondState (Tid : Type) where
  state : Bool
  manualrst : Bool
  blocked : List (CondWaiter Tid)
  woken : List (CondWoken Tid)
  deriving DecidableEq

/-- `CMUTIL_CondCreateInternal`. -/
def condCreateInternal (manual_reset : Bool) : CondState Tid where
  state := false
  manualrst := manual_reset
  blocked := []
  woken := []

/-- A call that returned: the thread, the kind of call, and its result (`CMUTIL_CondWait`
has none, it counts as success). -/
structure CondReturn (Tid : Type) where
  tid : Tid
  timed : Bool
  res : Bool
  deriving DecidableEq

/-- The threads inside a call. -/
def CondState.tids (s : CondState Tid) : List Tid :=
  s.blocked.map CondWaiter.tid ++ s.woken.map fun r => r.waiter.tid

section Steps

variable [DecidableEq Tid]

/-- `COND_SIGNAL` wakes the blocked thread `target`; there is none to wake only when nobody is
blocked. -/
def condSignal (s : CondState Tid) (target : Option (CondWaiter Tid)) : Option (CondState Tid) :=
  match target with
  | none => if s.blocked = [] then some s else none
  | some w =>
      if w ∈ s.blocked then
        some { s with blocked := s.blocked.erase w, woken := ⟨w, false⟩ :: s.woken }
      else none

/-- The end of a successful wait. -/
def condPass (s : CondState Tid) (target : Option (CondWaiter Tid)) : Option (CondState Tid) :=
  if s.manualrst then condSignal s target else some { s with state := false }

/-- The loop of `CMUTIL_CondWait` and what follows it, with the mutex in hand. -/
def condWaitLoop (s : CondState Tid) (t : Tid) (target : Option (CondWaiter Tid)) :
    Option (CondState Tid × Option (CondReturn Tid)) :=
  if s.state then (condPass s target).map fun s' => (s', some ⟨t, false, true⟩)
  else some ({ s with blocked := ⟨t, false⟩ :: s.blocked }, none)

/-- The end of `CMUTIL_CondTimedWait` with the result `res`. -/
def condTimedWaitEnd (s : CondState Tid) (t : Tid) (res : Bool) (target : Option (CondWaiter Tid)) :
    Option (CondState Tid × Option (CondReturn Tid)) :=
  (if res then condPass s target else some s).map fun s' => (s', some ⟨t, true, res⟩)

/-- The loop of `CMUTIL_CondTimedWait` and what follows it. -/
def condTimedWaitLoop (s : CondState Tid) (t : Tid) (timedout : Bool)
    (target : Option (CondWaiter Tid)) : Option (CondState Tid × Option (CondReturn Tid)) :=
  if !s.state && !timedout then some ({ s with blocked := ⟨t, true⟩ :: s.blocked }, none)
  else condTimedWaitEnd s t s.state target

/-- A section of a thread, or a wake-up. `target` is the thread that a signal of the section
wakes, `clock` says whether `gettimeofday` succeeds. -/
inductive CondAct (Tid : Type) where
  | wait (t : Tid) (target : Option (CondWaiter Tid))
  | timedWait (t : Tid) (millisec : ℤ) (clock : Bool) (target : Option (CondWaiter Tid))
  | set (target : Option (CondWaiter Tid))
  | reset
  | resume (r : CondWoken Tid) (target : Option (CondWaiter Tid))
  | spurious (w : CondWaiter Tid)
  | timeout (w : CondWaiter Tid)
  deriving DecidableEq

/-- One step, and the call that it ends. -/
def condStep (s : CondState Tid) : CondAct Tid → Option (CondState Tid × Option (CondReturn Tid))
  | .wait t target => if t ∈ s.tids then none else condWaitLoop s t target
  | .timedWait t millisec clock target =>
      if t ∈ s.tids then none
      else if millisec = 0 then condTimedWaitEnd s t s.state target
      else if clock then condTimedWaitLoop s t false target
      else condTimedWaitEnd s t false target
  | .set target => (condSignal { s with state := true } target).map fun s' => (s', none)
  | .reset => some ({ s with state := false }, none)
  | .resume r target =>
      if r ∈ s.woken then
        let s := { s with woken := s.woken.erase r }
        if r.waiter.timed then condTimedWaitLoop s r.waiter.tid r.timedout target
        else condWaitLoop s r.waiter.tid target
      else none
  | .spurious w =>
      if w ∈ s.blocked then
        some ({ s with blocked := s.blocked.erase w, woken := ⟨w, false⟩ :: s.woken }, none)
      else none
  | .timeout w =>
      if w ∈ s.blocked ∧ w.timed then
        some ({ s with blocked := s.blocked.erase w, woken := ⟨w, true⟩ :: s.woken }, none)
      else none

/-- A condition object and any number of threads. -/
def condSystem (manual_reset : Bool) : TransitionSystem (CondState Tid) (CondAct Tid) where
  init s := s = condCreateInternal manual_reset
  step s a := (condStep s a).map Prod.fst

end Steps

/-! ### What the sections do -/

/-- Every thread is in one call at most, and a set state that a blocked thread waits for is
about to be seen by a thread that was woken. -/
structure CondInv (s : CondState Tid) : Prop where
  nodup : s.tids.Nodup
  chain : s.state = true → s.blocked ≠ [] → s.woken ≠ []

section Sections

variable [DecidableEq Tid] {s s' : CondState Tid} {t : Tid} {target : Option (CondWaiter Tid)}
  {out : Option (CondReturn Tid)}

/-- A blocked thread becomes a woken one. -/
lemma tids_wake {w : CondWaiter Tid} (hw : w ∈ s.blocked) (timedout : Bool) :
    (CondState.tids { s with blocked := s.blocked.erase w,
                             woken := ⟨w, timedout⟩ :: s.woken }).Perm s.tids := by
  have hperm := (List.perm_cons_erase hw).map CondWaiter.tid
  simp only [CondState.tids, List.map_cons]
  refine List.perm_middle.trans ?_
  rw [← List.cons_append]
  exact hperm.symm.append_right _

lemma condSignal_cases (h : condSignal s target = some s') :
    s'.state = s.state ∧ s'.manualrst = s.manualrst ∧ s'.tids.Perm s.tids ∧
      (s'.blocked ≠ [] → s'.woken ≠ []) := by
  cases target with
  | none =>
      obtain ⟨hnil, rfl⟩ : s.blocked = [] ∧ s = s' := by simpa [condSignal] using h
      exact ⟨rfl, rfl, .refl _, fun hne => (hne hnil).elim⟩
  | some w =>
      obtain ⟨hw, rfl⟩ : w ∈ s.blocked ∧ _ = s' := by simpa [condSignal] using h
      exact ⟨rfl, rfl, tids_wake hw false, fun _ => by simp⟩

/-- The end of a successful wait: an auto-reset object is unset, a manual-reset object wakes
the next thread. -/
lemma condPass_cases (h : condPass s target = some s') :
    s'.manualrst = s.manualrst ∧ s'.tids.Perm s.tids ∧
      (s.manualrst = false → s'.state = false) ∧
      (s'.state = true → s'.blocked ≠ [] → s'.woken ≠ []) := by
  rw [condPass] at h
  by_cases hman : s.manualrst
  · rw [if_pos hman] at h
    obtain ⟨-, hm, hperm, hchain⟩ := condSignal_cases h
    exact ⟨hm, hperm, fun hauto => by simp [hman] at hauto, fun _ => hchain⟩
  · rw [if_neg hman] at h
    obtain rfl := Option.some.inj h
    exact ⟨rfl, .refl _, fun _ => rfl, fun hs => by cases hs⟩

/-- What a section of a thread `t` that is in no call does, up to its next wait or its
return. -/
structure CondSection (s s' : CondState Tid) (t : Tid) (out : Option (CondReturn Tid)) : Prop where
  manualrst : s'.manualrst = s.manualrst
  nodup : (t :: s.tids).Nodup → s'.tids.Nodup
  state : s'.state = true → s.state = true
  chain : s'.state = true → s'.blocked ≠ [] → s'.woken ≠ []
  passed : ∀ c, out = some c → c.timed = false ∨ c.res = true →
    s.state = true ∧ (s.manualrst = false → s'.state = false)

omit [DecidableEq Tid] in
/-- A thread that finds the state unset blocks. -/
lemma CondSection.block (hstate : s.state = false) (timed : Bool) :
    CondSection s { s with blocked := ⟨t, timed⟩ :: s.blocked } t none where
  manualrst := rfl
  nodup := id
  state h := h
  chain h := by simp [hstate] at h
  passed c hc := by cases hc

/-- A thread that finds the state set returns. -/
lemma CondSection.pass (hstate : s.state = true) (h : condPass s target = some s')
    {c : CondReturn Tid} : CondSection s s' t (some c) := by
  obtain ⟨hman, hperm, hauto, hchain⟩ := condPass_cases h
  exact
    { manualrst := hman
      nodup := fun hnodup => hperm.nodup_iff.mpr (List.nodup_cons.mp hnodup).2
      state := fun _ => hstate
      chain := hchain
      passed := fun _ _ _ => ⟨hstate, hauto⟩ }

lemma condWaitLoop_section (h : condWaitLoop s t target = some (s', out)) :
    CondSection s s' t out := by
  rw [condWaitLoop] at h
  by_cases hstate : s.state
  · rw [if_pos hstate] at h
    obtain ⟨s₁, hpass, heq⟩ := Option.map_eq_some_iff.mp h
    obtain ⟨rfl, rfl⟩ := Prod.mk.inj heq
    exact .pass hstate hpass
  · rw [if_neg hstate] at h
    obtain ⟨rfl, rfl⟩ := Prod.mk.inj (Option.some.inj h)
    exact .block (Bool.not_eq_true _ ▸ hstate) false

/-- The end of a timed call whose result is the state. -/
lemma condTimedWaitEnd_section (h : condTimedWaitEnd s t s.state target = some (s', out)) :
    CondSection s s' t out := by
  rw [condTimedWaitEnd] at h
  obtain ⟨s₁, hs₁, heq⟩ := Option.map_eq_some_iff.mp h
  obtain ⟨rfl, rfl⟩ := Prod.mk.inj heq
  cases hstate : s.state with
  | true =>
      rw [if_pos hstate] at hs₁
      exact .pass hstate hs₁
  | false =>
      rw [if_neg (by simp [hstate])] at hs₁
      obtain rfl := Option.some.inj hs₁
      exact
        { manualrst := rfl
          nodup := fun hnodup => (List.nodup_cons.mp hnodup).2
          state := id
          chain := fun hs => by simp [hstate] at hs
          passed := by
            rintro c ⟨⟩ (hc | hc) <;> cases hc }

lemma condTimedWaitLoop_section {timedout : Bool}
    (h : condTimedWaitLoop s t timedout target = some (s', out)) : CondSection s s' t out := by
  rw [condTimedWaitLoop] at h
  split at h
  · case isTrue hwait =>
      obtain ⟨rfl, rfl⟩ := Prod.mk.inj (Option.some.inj h)
      exact .block (by simpa using (Bool.and_eq_true_iff.mp hwait).1) true
  · exact condTimedWaitEnd_section h

/-- What a step does: the invariant stays, only `Set` sets the state, and a successful wait
finds it set. -/
structure CondEffect (s s' : CondState Tid) (a : CondAct Tid) (out : Option (CondReturn Tid)) :
    Prop where
  inv : CondInv s'
  manualrst : s'.manualrst = s.manualrst
  state : s'.state = true → s.state = true ∨ ∃ target, a = .set target
  passed : ∀ c, out = some c → c.timed = false ∨ c.res = true →
    s.state = true ∧ (s.manualrst = false → s'.state = false)

omit [DecidableEq Tid] in
/-- A section of a thread that comes from outside, or from the woken ones. -/
lemma CondSection.effect {s₀ : CondState Tid} {a : CondAct Tid} (h : CondSection s₀ s' t out)
    (hnodup : (t :: s₀.tids).Nodup) (hstate : s₀.state = s.state)
    (hman : s₀.manualrst = s.manualrst) : CondEffect s s' a out where
  inv := ⟨h.nodup hnodup, h.chain⟩
  manualrst := h.manualrst.trans hman
  state hs := .inl (hstate ▸ h.state hs)
  passed c hc hres := hstate ▸ hman ▸ h.passed c hc hres

/-- A blocked thread that comes back from the wait. -/
lemma CondInv.wake (hi : CondInv s) {w : CondWaiter Tid} (hw : w ∈ s.blocked) (timedout : Bool)
    (a : CondAct Tid) :
    CondEffect s { s with blocked := s.blocked.erase w, woken := ⟨w, timedout⟩ :: s.woken } a
      none where
  inv := ⟨(tids_wake hw timedout).nodup_iff.mpr hi.nodup, fun _ _ => List.cons_ne_nil _ _⟩
  manualrst := rfl
  state := .inl
  passed c hc := by cases hc

lemma condStep_effect {a : CondAct Tid} (hi : CondInv s) (h : condStep s a = some (s', out)) :
    CondEffect s s' a out := by
  cases a with
  | wait t target =>
      rw [condStep] at h
      split at h
      · cases h
      · case isFalse ht => exact (condWaitLoop_section h).effect (hi.nodup.cons ht) rfl rfl
  | timedWait t millisec clock target =>
      rw [condStep] at h
      split at h
      · cases h
      · case isFalse ht =>
          split at h
          · exact (condTimedWaitEnd_section h).effect (hi.nodup.cons ht) rfl rfl
          · split at h
            · exact (condTimedWaitLoop_section h).effect (hi.nodup.cons ht) rfl rfl
            · obtain ⟨rfl, rfl⟩ := Prod.mk.inj (Option.some.inj h)
              refine ⟨hi, rfl, .inl, ?_⟩
              rintro c ⟨⟩ (hc | hc) <;> cases hc
  | set target =>
      obtain ⟨s₁, hs₁, heq⟩ := Option.map_eq_some_iff.mp h
      obtain ⟨rfl, rfl⟩ := Prod.mk.inj heq
      obtain ⟨-, hman, hperm, hchain⟩ := condSignal_cases hs₁
      exact ⟨⟨hperm.nodup_iff.mpr hi.nodup, fun _ => hchain⟩, hman, fun _ => .inr ⟨target, rfl⟩,
        nofun⟩
  | reset =>
      obtain ⟨rfl, rfl⟩ := Prod.mk.inj (Option.some.inj h)
      exact ⟨⟨hi.nodup, nofun⟩, rfl, nofun, nofun⟩
  | resume r target =>
      rw [condStep] at h
      split at h
      · case isTrue hr =>
          have hperm : (r.waiter.tid :: CondState.tids { s with woken := s.woken.erase r }).Perm
              s.tids := by
            have hwoken := (List.perm_cons_erase hr).map fun r => r.waiter.tid
            exact List.perm_middle.symm.trans (hwoken.symm.append_left _)
          have hnodup := hperm.nodup_iff.mpr hi.nodup
          split at h
          · exact (condTimedWaitLoop_section h).effect hnodup rfl rfl
          · exact (condWaitLoop_section h).effect hnodup rfl rfl
      · cases h
  | spurious w =>
      rw [condStep] at h
      split at h
      · case isTrue hw =>
          obtain ⟨rfl, rfl⟩ := Prod.mk.inj (Option.some.inj h)
          exact hi.wake hw false _
      · cases h
  | timeout w =>
      rw [condStep] at h
      split at h
      · case isTrue hw =>
          obtain ⟨rfl, rfl⟩ := Prod.mk.inj (Option.some.inj h)
          exact hi.wake hw.1 true _
      · cases h

/-! ### Runs -/

/-- What holds in every state of a run. -/
lemma condInv_reachable {manual_reset : Bool} (hs : (condSystem manual_reset).Reachable s) :
    CondInv s ∧ s.manualrst = manual_reset := by
  refine hs.invariant (P := fun s => CondInv s ∧ s.manualrst = manual_reset) ?_ ?_
  · rintro s rfl
    exact ⟨⟨List.nodup_nil, fun hs => by cases hs⟩, rfl⟩
  · rintro s a s' ⟨hi, hman⟩ hstep
    obtain ⟨⟨s₁, out⟩, hcond, rfl⟩ := Option.map_eq_some_iff.mp hstep
    have heff := condStep_effect hi hcond
    exact ⟨heff.inv, heff.manualrst.trans hman⟩

/-- A state that is unset stays unset until the next `Set`. -/
lemma condRun_unset {manual_reset : Bool} {acts : List (CondAct Tid)} (hi : CondInv s)
    (hunset : s.state = false) (hacts : ∀ target, CondAct.set target ∉ acts)
    (hrun : (condSystem manual_reset).run s acts = some s') : s'.state = false := by
  induction acts generalizing s with
  | nil =>
      obtain rfl := Option.some.inj hrun
      exact hunset
  | cons a acts ih =>
      obtain ⟨s₁, hstep, hrest⟩ := Option.bind_eq_some_iff.mp hrun
      obtain ⟨⟨s₁, out⟩, hcond, rfl⟩ := Option.map_eq_some_iff.mp hstep
      have heff := condStep_effect hi hcond
      refine ih heff.inv ?_ (fun target hmem => hacts target (List.mem_cons_of_mem _ hmem)) hrest
      rw [← Bool.not_eq_true]
      intro hset
      rcases heff.state hset with hset | ⟨target, rfl⟩
      · simp [hunset] at hset
      · exact hacts target (by simp)

/-- **No lost wake-up.** In every reachable state, a set state and a blocked thread leave
another thread that has been woken and is on its way out of its call. A step that ends a
call of `CMUTIL_CondWait`, or a call of `CMUTIL_CondTimedWait` with success, is taken in a state
that is set; an auto-reset object is unset by it, and before another such step `Set` is
called again. -/
theorem cond_noLostWakeup (manual_reset : Bool) (hs : (condSystem manual_reset).Reachable s) :
    (s.state = true → ∀ w ∈ s.blocked, ∃ r ∈ s.woken, r.waiter.tid ≠ w.tid) ∧
      ∀ a s₁ c, condStep s a = some (s₁, some c) → c.timed = false ∨ c.res = true →
        s.state = true ∧ (manual_reset = false → s₁.state = false ∧
          ∀ acts s₂ b s₃ d, (condSystem manual_reset).run s₁ acts = some s₂ →
            condStep s₂ b = some (s₃, some d) → d.timed = false ∨ d.res = true →
              ∃ target, CondAct.set target ∈ acts) := by
  obtain ⟨hi, hman⟩ := condInv_reachable hs
  refine ⟨fun hset w hw => ?_, fun a s₁ c hstep hc => ?_⟩
  · obtain ⟨r, hr⟩ := List.exists_mem_of_ne_nil _ (hi.chain hset (List.ne_nil_of_mem hw))
    refine ⟨r, hr, fun heq => ?_⟩
    have hdisj := List.nodup_append.mp hi.nodup
    exact hdisj.2.2 w.tid (List.mem_map_of_mem hw) r.waiter.tid
      (List.mem_map.mpr ⟨r, hr, rfl⟩) heq.symm
  · have heff := condStep_effect hi hstep
    obtain ⟨hset, hauto⟩ := heff.passed c rfl hc
    refine ⟨hset, fun hman' => ?_⟩
    have hunset := hauto (hman.trans hman')
    refine ⟨hunset, fun acts s₂ b s₃ d hrun hnext hd => ?_⟩
    by_contra hnone
    rw [not_exists] at hnone
    have hunset₂ := condRun_unset heff.inv hunset hnone hrun
    have hreach : (condSystem manual_reset).Reachable s₁ :=
      hs.next a (congrArg (Option.map Prod.fst) hstep)
    have hset₂ := ((condStep_effect (condInv_reachable (hreach.run hrun)).1 hnext).passed d rfl hd).1
    rw [hunset₂] at hset₂
    cases hset₂

/-- A manual-reset object that is set while a thread waits. -/
theorem cond_noLostWakeup_set :
    ((true : Bool) = true → ∀ w ∈ ([] : List (CondWaiter ℕ)),
        ∃ r ∈ [(⟨⟨1, false⟩, false⟩ : CondWoken ℕ)], r.waiter.tid ≠ w.tid) ∧
      ∀ a s₁ c, condStep ⟨true, true, [], [⟨⟨1, false⟩, false⟩]⟩ a = some (s₁, some c) →
        c.timed = false ∨ c.res = true →
        (true : Bool) = true ∧ ((true : Bool) = false → s₁.state = false ∧
          ∀ acts s₂ b s₃ d, (condSystem true).run s₁ acts = some s₂ →
            condStep s₂ b = some (s₃, some d) → d.timed = false ∨ d.res = true →
              ∃ target, CondAct.set target ∈ acts) := by
  have hstart : (condSystem true).Reachable (condCreateInternal true : CondState ℕ) := .start rfl
  exact cond_noLostWakeup true
    ((hstart.next (.wait 1 none) rfl).next (.set (some ⟨1, false⟩)) rfl)

end Sections

end LibCmutils
