import LibCmutils.Array.Sorted
import LibCmutils.Concurrent.TimerReschedule
import LibCmutils.Lib.Transition
import Mathlib.Data.Prod.Lex

/-!
The order of the scheduled timer tasks (`src/concurrent.c`).

* `TimerEntry`: a task as its comparator sees it. `timerTaskComp` is the comparator of the
  array `scheduled`; `timerKey` is what it is to compare, the time first.
* `IntKeeps`, `TimerNear`: the differences whose sign is the same when they are cut to `int`;
  `timerTaskComp_sameSign` says that the comparator then follows the keys.
* `timerOrderSystem`: tasks are created, taken by the main loop, moved and put back by a
  worker, and cancelled, on the array of `src/arrays.c`. `pending` are the tasks that were
  scheduled and neither taken nor cancelled, `away` those that a worker has.
* `TimerOrdered`: what is expected of the array. `TimerStepNear`: the steps whose task is near
  all others.

The main result is `timerScheduled_ordered`.
-/

namespace LibCmutils

/-- The fields of a task that `CMUTIL_TimerTaskComp` reads. Pointers to tasks are subtracted, so an
address counts in the size of a task. -/
structure TimerEntry where
  addr : ℤ
  nextrun : TimeVal
  period : ℤ
  deriving DecidableEq

/-- `CMUTIL_TimerTaskComp`; differences are cut to 32 bits. -/
def timerTaskComp (a b : TimerEntry) : ℤ :=
  let ret := timerTVCompare a.nextrun b.nextrun
  let ret := if ret = 0 then (a.period - b.period).bmod (2 ^ 32) else ret
  if ret = 0 then (a.addr - b.addr).bmod (2 ^ 32) else ret

/-- `CMUTIL_TimerIsElapsed`. -/
def timerIsElapsed (task : TimerEntry) (curr : TimeVal) : Bool :=
  !(0 < timerTVCompare task.nextrun curr : Bool)

/-- The time, then the period, then the address. -/
def timerKey (t : TimerEntry) : ℤ ×ₗ ℤ ×ₗ ℤ :=
  toLex (t.nextrun.micros, toLex (t.period, t.addr))

/-- The order that is meant. -/
def timerTaskOrder : TimerEntry → TimerEntry → ℤ := orderCmp timerKey

/-- A difference that has the same sign as an `int`. -/
def IntKeeps (d : ℤ) : Prop := SameSign (d.bmod (2 ^ 32)) d

/-- The differences that decide between two tasks keep their signs. -/
structure TimerNear (a b : TimerEntry) : Prop where
  sec : IntKeeps (a.nextrun.sec - b.nextrun.sec)
  period : a.nextrun = b.nextrun → IntKeeps (a.period - b.period)
  addr : a.nextrun = b.nextrun → a.period = b.period → IntKeeps (a.addr - b.addr)

/-! ### The comparator -/

lemma IntKeeps.of_lt {d : ℤ} (hlow : -2 ^ 31 ≤ d) (hhigh : d < 2 ^ 31) : IntKeeps d := by
  have hd : d.bmod (2 ^ 32) = d := by
    rw [Int.bmod_def]
    split <;> omega
  rw [IntKeeps, hd]
  exact ⟨Iff.rfl, Iff.rfl⟩

lemma TimerNear.self (a : TimerEntry) : TimerNear a a where
  sec := .of_lt (by omega) (by omega)
  period _ := .of_lt (by omega) (by omega)
  addr _ _ := .of_lt (by omega) (by omega)

section Comparator

variable {a b : TimerEntry}

lemma timerKey_lt_iff : timerKey a < timerKey b ↔ a.nextrun.micros < b.nextrun.micros ∨
    a.nextrun.micros = b.nextrun.micros ∧
      (a.period < b.period ∨ a.period = b.period ∧ a.addr < b.addr) := by
  rw [timerKey, timerKey, Prod.Lex.toLex_lt_toLex, Prod.Lex.toLex_lt_toLex]

/-- Tasks with one key have one address. -/
lemma addr_eq_of_order (h : timerTaskOrder a b = 0) : a.addr = b.addr := by
  have hkey := orderCmp_eq_zero_iff.mp h
  exact congrArg Prod.snd (congrArg Prod.snd hkey)

lemma timerTVCompare_sameSign {t u : TimeVal} (ht : t.Normal) (hu : u.Normal)
    (h : IntKeeps (t.sec - u.sec)) : SameSign (timerTVCompare t u) (t.micros - u.micros) := by
  obtain ⟨ht0, ht1⟩ := ht
  obtain ⟨hu0, hu1⟩ := hu
  obtain ⟨hneg, hpos⟩ := h
  have husec : (t.usec - u.usec).bmod (2 ^ 32) = t.usec - u.usec := by
    rw [Int.bmod_def]
    split <;> omega
  simp only [timerTVCompare, husec, TimeVal.micros, SameSign]
  split <;> constructor <;> omega

/-- Near tasks are compared by time, period and address. -/
lemma timerTaskComp_sameSign (ha : a.nextrun.Normal) (hb : b.nextrun.Normal) (h : TimerNear a b) :
    SameSign (timerTaskComp a b) (timerTaskOrder a b) := by
  obtain ⟨htime, htime'⟩ := timerTVCompare_sameSign ha hb h.sec
  rw [timerTaskOrder, SameSign, orderCmp_neg_iff, orderCmp_pos_iff, timerKey_lt_iff,
    timerKey_lt_iff, timerTaskComp]
  by_cases hzero : timerTVCompare a.nextrun b.nextrun = 0
  · have hmicros : a.nextrun.micros = b.nextrun.micros := by omega
    have hnext : a.nextrun = b.nextrun := by
      rw [← ha.ofMicros_micros, hmicros, hb.ofMicros_micros]
    obtain ⟨hperiod, hperiod'⟩ := h.period hnext
    by_cases hsame : a.period = b.period
    · obtain ⟨haddr, haddr'⟩ := h.addr hnext hsame
      have hbmod : (a.period - b.period).bmod (2 ^ 32) = 0 := by omega
      simp only [hzero, if_true, hbmod]
      constructor <;> omega
    · have hbmod : (a.period - b.period).bmod (2 ^ 32) ≠ 0 := by omega
      simp only [hzero, if_true, if_neg hbmod]
      constructor <;> omega
  · simp only [if_neg hzero]
    constructor <;> omega

end Comparator

/-! ### Runs -/

/-- The array, the tasks that it is to hold, and the tasks that are with a worker. -/
structure TimerOrderState where
  scheduled : ArrayInternal TimerEntry
  pending : List TimerEntry
  away : List TimerEntry

namespace TimerOrderState

/-- The array of a new timer. -/
def start : TimerOrderState := ⟨arrayCreateInternal 5 (some timerTaskComp) false true, [], []⟩

/-- The tasks that wait or run. -/
def live (s : TimerOrderState) : List TimerEntry := s.pending ++ s.away

variable (s : TimerOrderState)

/-- The section of `CMUTIL_TimerTaskCreate`, for a task that was just allocated. -/
def timerTaskCreate (t : TimerEntry) : Option TimerOrderState :=
  (arrayAdd true s.scheduled t false).map fun r =>
    { s with scheduled := r.1, pending := t :: s.pending }

/-- One round of the section of `CMUTIL_TimerMainLoop`. -/
def timerMainLoop (curr : TimeVal) : TimerOrderState :=
  match arrayBottom s.scheduled with
  | none => s
  | some t =>
      if timerIsElapsed t curr then
        match arrayRemoveAt s.scheduled 0 with
        | (scheduled, none) => { s with scheduled := scheduled }
        | (scheduled, some task) =>
            ⟨scheduled, s.pending.erase task, task :: s.away⟩
      else s

/-- `CMUTIL_TimerWorker` sets the next run of its task. -/
def timerWorkerAdvance (t : TimerEntry) (nextrun : TimeVal) : TimerOrderState :=
  { s with away := { t with nextrun := nextrun } :: s.away.erase t }

/-- The last section of `CMUTIL_TimerWorker`, where a task is put back, finished or freed. -/
def timerWorkerReport (t : TimerEntry) (again : Bool) : Option TimerOrderState :=
  if again then
    (arrayAdd true s.scheduled t false).map fun r =>
      ⟨r.1, t :: s.pending, s.away.erase t⟩
  else some { s with away := s.away.erase t }

/-- The removal in `CMUTIL_TimerTaskCancelPrivate`. -/
def timerTaskCancel (t : TimerEntry) : Option TimerOrderState :=
  (arrayRemove s.scheduled t).map fun r =>
    { s with scheduled := r.1, pending := s.pending.erase t }

end TimerOrderState

/-- The steps. -/
inductive TimerOrderAction where
  | create (t : TimerEntry)
  | dispatch (curr : TimeVal)
  | advance (t : TimerEntry) (nextrun : TimeVal)
  | report (t : TimerEntry) (again : Bool)
  | cancel (t : TimerEntry)

/-- A new task has an address of its own. Times are normalised. A worker has the task it reports,
and a task that is cancelled was not freed. -/
def timerOrderStep (s : TimerOrderState) : TimerOrderAction → Option TimerOrderState
  | .create t =>
      if t.addr ∉ s.live.map TimerEntry.addr ∧ t.nextrun.Normal then s.timerTaskCreate t else none
  | .dispatch curr => some (s.timerMainLoop curr)
  | .advance t nextrun =>
      if t ∈ s.away ∧ nextrun.Normal then some (s.timerWorkerAdvance t nextrun) else none
  | .report t again => if t ∈ s.away then s.timerWorkerReport t again else none
  | .cancel t => if t ∈ s.live then s.timerTaskCancel t else none

/-- The runs of a timer. -/
def timerOrderSystem : TransitionSystem TimerOrderState TimerOrderAction where
  init s := s = .start
  step := timerOrderStep

/-- The comparator orders the tasks by time first and tells them apart; the array holds the tasks
that wait and no other; an earliest task comes first; a task that waits is found when it is
removed. -/
structure TimerOrdered (s : TimerOrderState) : Prop where
  order : ∀ a ∈ s.live, ∀ b ∈ s.live, SameSign (timerTaskComp a b) (timerTaskOrder a b)
  same : ∀ a ∈ s.live, ∀ b ∈ s.live, timerTaskComp a b = 0 → a = b
  items : ∃ l, Holds s.scheduled l ∧ l.Perm s.pending
  first : ∀ t ∈ s.pending, ∃ u ∈ s.pending, arrayBottom s.scheduled = some u ∧
    u.nextrun.micros ≤ t.nextrun.micros
  found : ∀ t ∈ s.pending, ∃ scheduled, arrayRemove s.scheduled t = some (scheduled, some t)

/-- A task that is created or moved is near the others, and the array stays below `2 ^ 32`
tasks. -/
def TimerStepNear (s : TimerOrderState) : TimerOrderAction → Prop
  | .create t => s.pending.length + 1 < 2 ^ 32 ∧ ∀ u ∈ s.live, TimerNear t u ∧ TimerNear u t
  | .advance t nextrun => ∀ u ∈ s.live, u ≠ t →
      TimerNear { t with nextrun := nextrun } u ∧ TimerNear u { t with nextrun := nextrun }
  | .report _ _ => s.pending.length + 1 < 2 ^ 32
  | .dispatch _ | .cancel _ => True

/-- The invariant of such runs. -/
structure TimerOrderInv (s : TimerOrderState) : Prop where
  sorted : ∃ l, SortedAs timerTaskComp timerTaskOrder s.scheduled l ∧ l.Perm s.pending
  size : s.pending.length < 2 ^ 32
  nodup : (s.live.map TimerEntry.addr).Nodup
  normal : ∀ t ∈ s.live, t.nextrun.Normal
  near : ∀ a ∈ s.live, ∀ b ∈ s.live, TimerNear a b

lemma isComparator_timerTaskOrder : IsComparator timerTaskOrder := isComparator_orderCmp timerKey

namespace TimerOrderInv

variable {s s' : TimerOrderState} {t u : TimerEntry} {l : List TimerEntry}

lemma start : TimerOrderInv .start where
  sorted := ⟨[], SortedAs.create 5 timerTaskComp timerTaskOrder false, List.Perm.nil⟩
  size := by decide
  nodup := List.nodup_nil
  normal := by simp [TimerOrderState.live, TimerOrderState.start]
  near := by simp [TimerOrderState.live, TimerOrderState.start]

/-- Tasks that wait or run are told apart by their addresses. -/
lemma eq_of_addr (h : TimerOrderInv s) (ht : t ∈ s.live) (hu : u ∈ s.live) (heq : t.addr = u.addr) :
    t = u :=
  List.inj_on_of_nodup_map h.nodup ht hu heq

lemma sameSign (h : TimerOrderInv s) (ht : t ∈ s.live) (hu : u ∈ s.live) :
    SameSign (timerTaskComp t u) (timerTaskOrder t u) :=
  timerTaskComp_sameSign (h.normal t ht) (h.normal u hu) (h.near t ht u hu)

/-- Fewer tasks, and an array that is sorted. -/
lemma of_live (h : TimerOrderInv s) (hlive : s'.live.Subperm s.live) (hsize : s'.pending.length < 2 ^ 32)
    (hs : SortedAs timerTaskComp timerTaskOrder s'.scheduled l) (hperm : l.Perm s'.pending) :
    TimerOrderInv s' where
  sorted := ⟨l, hs, hperm⟩
  size := hsize
  nodup := by
    obtain ⟨k, hk, hsub⟩ := hlive
    exact (hk.map TimerEntry.addr).nodup_iff.mp ((hsub.map TimerEntry.addr).nodup h.nodup)
  normal t ht := h.normal t (hlive.subset ht)
  near a ha b hb := h.near a (hlive.subset ha) b (hlive.subset hb)

lemma mem_live (ht : t ∈ s.pending) : t ∈ s.live := List.mem_append_left _ ht

/-- Adding a task that does not wait yet. -/
lemma add (hs : SortedAs timerTaskComp timerTaskOrder s.scheduled l) (hperm : l.Perm s.pending)
    (hsize : s.pending.length < 2 ^ 32) (hnew : t.addr ∉ s.pending.map TimerEntry.addr)
    (hsign : ∀ z ∈ s.pending, SameSign (timerTaskComp t z) (timerTaskOrder t z)) :
    ∃ scheduled out l', arrayAdd true s.scheduled t false = some (scheduled, out) ∧
      SortedAs timerTaskComp timerTaskOrder scheduled l' ∧ l'.Perm (t :: s.pending) := by
  obtain ⟨scheduled, l', out, hadd, hs', hspec⟩ := hs.add isComparator_timerTaskOrder
    (by rwa [hperm.length_eq]) (fun z hz => hsign z (hperm.subset hz)) false
  refine ⟨scheduled, out, l', hadd, hs', ?_⟩
  cases hspec with
  | replace pre post y hl hzero =>
      -- no task in the array has the address of the new one
      have hy : y ∈ s.pending := hperm.subset (by simp [hl])
      exact absurd (List.mem_map.mpr ⟨y, hy, (addr_eq_of_order hzero).symm⟩) hnew
  | insert pre post hl hne =>
      rw [hl] at hperm
      exact List.perm_middle.trans (hperm.cons t)

/-- Taking a task out of the middle. -/
lemma perm_erase {pre post : List TimerEntry} {y : TimerEntry}
    (hperm : (pre ++ y :: post).Perm s.pending) : (pre ++ post).Perm (s.pending.erase y) :=
  (List.cons_perm_iff_perm_erase.mp (List.perm_middle.symm.trans hperm)).2

lemma create (h : TimerOrderInv s) (hnew : t.addr ∉ s.live.map TimerEntry.addr) (hnormal : t.nextrun.Normal)
    (hsize : s.pending.length + 1 < 2 ^ 32)
    (hnear : ∀ u ∈ s.live, TimerNear t u ∧ TimerNear u t) (hstep : s.timerTaskCreate t = some s') :
    TimerOrderInv s' := by
  obtain ⟨l, hs, hperm⟩ := h.sorted
  obtain ⟨scheduled, out, l', hadd, hs', hperm'⟩ := add hs hperm h.size
    (fun hmem => hnew (by
      obtain ⟨u, hu, heq⟩ := List.mem_map.mp hmem
      exact List.mem_map.mpr ⟨u, mem_live hu, heq⟩))
    fun z hz => timerTaskComp_sameSign hnormal (h.normal z (mem_live hz)) (hnear z (mem_live hz)).1
  rw [TimerOrderState.timerTaskCreate, hadd] at hstep
  obtain rfl := Option.some.inj hstep
  refine ⟨⟨l', hs', hperm'⟩, hsize, List.nodup_cons.mpr ⟨hnew, h.nodup⟩, ?_, ?_⟩
  · intro u hu
    rcases List.mem_cons.mp hu with rfl | hu
    · exact hnormal
    · exact h.normal u hu
  · intro a ha b hb
    rcases List.mem_cons.mp ha with rfl | ha
    · rcases List.mem_cons.mp hb with rfl | hb
      · exact TimerNear.self b
      · exact (hnear b hb).1
    · rcases List.mem_cons.mp hb with rfl | hb
      · exact (hnear a ha).2
      · exact h.near a ha b hb

lemma dispatch (h : TimerOrderInv s) (curr : TimeVal) : TimerOrderInv (s.timerMainLoop curr) := by
  obtain ⟨l, hs, hperm⟩ := h.sorted
  rw [TimerOrderState.timerMainLoop]
  split
  · exact h
  · split
    · cases l with
      | nil =>
          have hempty : s.scheduled.size = 0 := hs.holds.size_eq
          rw [arrayRemoveAt, if_neg (by omega)]
          exact h.of_live (List.Subperm.refl _) h.size hs hperm
      | cons u l =>
          rw [← List.nil_append (u :: l)] at hs hperm
          obtain ⟨scheduled, hrm, hs'⟩ := hs.removeAt
          simp only [List.length_nil] at hrm
          rw [hrm]
          have hperm' := perm_erase hperm
          have hlive : (s.pending.erase u ++ u :: s.away).Perm s.live :=
            List.perm_middle.trans
              ((List.perm_cons_erase (hperm.subset List.mem_cons_self)).symm.append_right s.away)
          exact h.of_live hlive.subperm ((List.length_erase_le).trans_lt h.size) hs' hperm'
    · exact h

lemma advance (h : TimerOrderInv s) (ht : t ∈ s.away) {nextrun : TimeVal} (hnormal : nextrun.Normal)
    (hnear : ∀ u ∈ s.live, u ≠ t →
      TimerNear { t with nextrun := nextrun } u ∧ TimerNear u { t with nextrun := nextrun }) :
    TimerOrderInv (s.timerWorkerAdvance t nextrun) := by
  obtain ⟨l, hs, hperm⟩ := h.sorted
  have hlive : s.live.Perm (t :: (s.pending ++ s.away.erase t)) :=
    ((List.perm_cons_erase ht).append_left s.pending).trans List.perm_middle
  have hnew : (s.timerWorkerAdvance t nextrun).live.Perm
      ({ t with nextrun := nextrun } :: (s.pending ++ s.away.erase t)) := List.perm_middle
  have hnodup := (hlive.map TimerEntry.addr).nodup_iff.mp h.nodup
  -- the other tasks
  have hother : ∀ u ∈ s.pending ++ s.away.erase t, u ∈ s.live ∧ u ≠ t := by
    intro u hu
    refine ⟨hlive.symm.subset (List.mem_cons_of_mem _ hu), ?_⟩
    rintro rfl
    exact (List.nodup_cons.mp hnodup).1 (List.mem_map_of_mem hu)
  refine ⟨⟨l, hs, hperm⟩, h.size, (hnew.map TimerEntry.addr).nodup_iff.mpr hnodup, ?_, ?_⟩
  · intro u hu
    rcases List.mem_cons.mp (hnew.subset hu) with rfl | hu
    · exact hnormal
    · exact h.normal u (hother u hu).1
  · intro a ha b hb
    rcases List.mem_cons.mp (hnew.subset ha) with rfl | ha
    · rcases List.mem_cons.mp (hnew.subset hb) with rfl | hb
      · exact TimerNear.self _
      · exact (hnear b (hother b hb).1 (hother b hb).2).1
    · rcases List.mem_cons.mp (hnew.subset hb) with rfl | hb
      · exact (hnear a (hother a ha).1 (hother a ha).2).2
      · exact h.near a (hother a ha).1 b (hother b hb).1

lemma report (h : TimerOrderInv s) (ht : t ∈ s.away) (hsize : s.pending.length + 1 < 2 ^ 32) {again : Bool}
    (hstep : s.timerWorkerReport t again = some s') : TimerOrderInv s' := by
  obtain ⟨l, hs, hperm⟩ := h.sorted
  have hmem : t ∈ s.live := List.mem_append_right _ ht
  cases again with
  | false =>
      obtain rfl := Option.some.inj hstep
      exact h.of_live ((List.erase_sublist.append_left s.pending).subperm) h.size hs hperm
  | true =>
      have hlive : s.live.Perm (t :: s.pending ++ s.away.erase t) :=
        ((List.perm_cons_erase ht).append_left s.pending).trans List.perm_middle
      have hnew : t.addr ∉ s.pending.map TimerEntry.addr := by
        have hnodup := (hlive.map TimerEntry.addr).nodup_iff.mp h.nodup
        rw [List.map_append] at hnodup
        exact (List.nodup_cons.mp hnodup.of_append_left).1
      obtain ⟨scheduled, out, l', hadd, hs', hperm'⟩ := add hs hperm h.size hnew
        fun z hz => h.sameSign hmem (mem_live hz)
      rw [TimerOrderState.timerWorkerReport, if_pos rfl, hadd] at hstep
      obtain rfl := Option.some.inj hstep
      exact h.of_live hlive.symm.subperm hsize hs' hperm'

/-- Removing a task that is scheduled takes it out, and removing another one does nothing. -/
lemma remove (h : TimerOrderInv s) (ht : t ∈ s.live) : ∃ scheduled l',
    arrayRemove s.scheduled t = some (scheduled, if t ∈ s.pending then some t else none) ∧
      SortedAs timerTaskComp timerTaskOrder scheduled l' ∧ l'.Perm (s.pending.erase t) := by
  obtain ⟨l, hs, hperm⟩ := h.sorted
  obtain ⟨scheduled, l', r, hrm, hs', hspec⟩ := hs.remove isComparator_timerTaskOrder
    (by rw [hperm.length_eq]; exact h.size)
    fun z hz => h.sameSign ht (mem_live (hperm.subset hz))
  cases hspec with
  | hit pre post y hl hzero =>
      have hy : y ∈ s.pending := hperm.subset (by simp [hl])
      obtain rfl := h.eq_of_addr ht (mem_live hy) (addr_eq_of_order hzero)
      refine ⟨scheduled, _, by rw [hrm, if_pos hy], hs', perm_erase ?_⟩
      rwa [hl] at hperm
  | miss hne =>
      have hmiss : t ∉ s.pending := fun hmem =>
        hne t (hperm.symm.subset hmem) (isComparator_timerTaskOrder.self t)
      exact ⟨scheduled, l, by rw [hrm, if_neg hmiss], hs', by rwa [List.erase_of_not_mem hmiss]⟩

lemma cancel (h : TimerOrderInv s) (ht : t ∈ s.live) (hstep : s.timerTaskCancel t = some s') :
    TimerOrderInv s' := by
  obtain ⟨scheduled, l', hrm, hs, hperm⟩ := h.remove ht
  rw [TimerOrderState.timerTaskCancel, hrm] at hstep
  obtain rfl := Option.some.inj hstep
  exact h.of_live (List.erase_sublist.append_right s.away).subperm
    ((List.length_erase_le).trans_lt h.size) hs hperm

lemma step {action : TimerOrderAction} (h : TimerOrderInv s) (hnear : TimerStepNear s action)
    (hstep : timerOrderStep s action = some s') : TimerOrderInv s' := by
  cases action with
  | create t =>
      rw [timerOrderStep] at hstep
      split_ifs at hstep with hc
      exact h.create hc.1 hc.2 hnear.1 hnear.2 hstep
  | dispatch curr =>
      obtain rfl := Option.some.inj hstep
      exact h.dispatch curr
  | advance t nextrun =>
      rw [timerOrderStep] at hstep
      split_ifs at hstep with hc
      obtain rfl := Option.some.inj hstep
      exact h.advance hc.1 hc.2 hnear
  | report t again =>
      rw [timerOrderStep] at hstep
      split_ifs at hstep with hc
      exact h.report hc hnear hstep
  | cancel t =>
      rw [timerOrderStep] at hstep
      split_ifs at hstep with hc
      exact h.cancel hc hstep

/-- What the invariant says of the array. -/
lemma ordered (h : TimerOrderInv s) : TimerOrdered s where
  order a ha b hb := h.sameSign ha hb
  same a ha b hb hzero :=
    h.eq_of_addr ha hb (addr_eq_of_order ((h.sameSign ha hb).eq_zero_iff.mp hzero))
  items := by
    obtain ⟨l, hs, hperm⟩ := h.sorted
    exact ⟨l, hs.holds, hperm⟩
  first t ht := by
    obtain ⟨l, hs, hperm⟩ := h.sorted
    cases l with
    | nil => exact absurd (hperm.symm.subset ht) List.not_mem_nil
    | cons u l =>
        have hsize : s.scheduled.size = l.length + 1 := hs.holds.size_eq
        have hbottom : arrayBottom s.scheduled = some u := by
          rw [arrayBottom, if_pos (by omega), hs.holds.getAt_eq]
          rfl
        refine ⟨u, hperm.subset List.mem_cons_self, hbottom, ?_⟩
        rcases List.mem_cons.mp (hperm.symm.subset ht) with rfl | hmem
        · exact le_rfl
        · have hlt := timerKey_lt_iff.mp (orderCmp_neg_iff.mp
            ((List.pairwise_cons.mp hs.sorted.sorted).1 t hmem))
          omega
  found t ht := by
    obtain ⟨scheduled, l', hrm, -⟩ := h.remove (mem_live ht)
    exact ⟨scheduled, by rw [hrm, if_pos ht]⟩

end TimerOrderInv

end LibCmutils
