import LibCmutils.Lib.Transition
import LibCmutils.Lib.Threads
import Mathlib.Algebra.Order.BigOperators.Group.List
import Mathlib.Algebra.Order.BigOperators.Ring.Finset
import Mathlib.Data.ZMod.Defs
import Mathlib.Tactic.Ring

/-!
Read/write locks (`src/concurrent.c`): `CMUTIL_RWLock` over two mutexes, an event
and a table of the threads that hold read locks.

* `RWLock`: the record. `rwlockHolderGet` and `rwlockHolderAdd` work on the
  table; `rwlockReadLockFast`, `rwlockReadLockSlow` and `rwlockReadUnlock` are
  the sections that `rdcntmtx` protects, each one step.
* `RWLockThread`: where a thread stands inside the four calls, and which locks
  it holds. `rwlockThreadStep` takes one thread from one section to the next;
  the writer mutex is held across sections, so taking and leaving it are steps
  of their own. `rwlockSystem` interleaves the threads.
* `RWLockInv`: the invariant. Its heart is `holders`: the table never counts
  more read locks for a thread than the thread has, so a reader on the fast path
  already holds one.

The main result is `rwlock_exclusion`.
-/

namespace LibCmutils

variable {Tid : Type} [DecidableEq Tid]

/-! ### The lock -/

/-- `RWLOCK_HOLDER_INITCAP`. -/
def rwlockHolderInitcap : ℕ := 8

/-- `CMUTIL_RWLockHolder`. -/
structure RWLockHolder (Tid : Type) where
  tid : Tid
  depth : ℕ
  deriving DecidableEq

/-- `CMUTIL_RWLock_Internal`; the capacity of the table is its length. -/
structure RWLock (Tid : Type) where
  wrmtx : Mutex Tid
  nordrs : Bool
  holders : List (RWLockHolder Tid)
  rdcnt : ℤ
  deriving DecidableEq

/-- `CMUTIL_RWLockCreateInternal`. -/
def rwlockCreateInternal : RWLock Tid where
  wrmtx := .free
  nordrs := true
  holders := []
  rdcnt := 0

/-- `CMUTIL_RWLockHolderGet`: the entry of a thread, with its index. -/
def rwlockHolderGet (holders : List (RWLockHolder Tid)) (tid : Tid) :
    Option (RWLockHolder Tid × ℕ) :=
  holders.zipIdx.find? fun h => decide (0 < h.1.depth ∧ h.1.tid = tid)

/-- `CMUTIL_RWLockHolderAdd`: the first unused entry, or the first one of the
table grown by `Realloc`; `alloc` says whether that succeeds. -/
def rwlockHolderAdd [Zero Tid] (alloc : Bool) (holders : List (RWLockHolder Tid)) (tid : Tid) :
    List (RWLockHolder Tid) :=
  match holders.zipIdx.find? fun h => decide (h.1.depth = 0) with
  | some (_, i) => holders.set i { tid := tid, depth := 1 }
  | none =>
      let ncap := if 0 < holders.length then holders.length * 2 else rwlockHolderInitcap
      -- holder tracking is only an optimization, the lock goes on without it
      if alloc then
        let zeroed : List (RWLockHolder Tid) :=
          List.replicate (ncap - holders.length) { tid := 0, depth := 0 }
        (holders ++ zeroed).set holders.length { tid := tid, depth := 1 }
      else holders

/-- The first section of `CMUTIL_RWLockReadLock`: a thread that holds a read lock
takes another one, `none` for a thread not in the table. -/
def rwlockReadLockFast (lock : RWLock Tid) (tid : Tid) : Option (RWLock Tid) :=
  match rwlockHolderGet lock.holders tid with
  | some (holder, i) => some { lock with
      holders := lock.holders.set i { holder with depth := holder.depth + 1 }
      rdcnt := lock.rdcnt + 1 }
  | none => none

/-- The second section of `CMUTIL_RWLockReadLock`, inside the writer mutex. -/
def rwlockReadLockSlow [Zero Tid] (alloc : Bool) (lock : RWLock Tid) (tid : Tid) : RWLock Tid :=
  { lock with
    holders := rwlockHolderAdd alloc lock.holders tid
    rdcnt := lock.rdcnt + 1
    nordrs := if lock.rdcnt + 1 = 1 then false else lock.nordrs }

/-- `--(holder->depth) == 0` clears the thread id of the entry. -/
def RWLockHolder.release [Zero Tid] (holder : RWLockHolder Tid) : RWLockHolder Tid where
  tid := if holder.depth - 1 = 0 then 0 else holder.tid
  depth := holder.depth - 1

/-- `CMUTIL_RWLockReadUnlock`. -/
def rwlockReadUnlock [Zero Tid] (lock : RWLock Tid) (tid : Tid) : RWLock Tid :=
  { lock with
    holders :=
      match rwlockHolderGet lock.holders tid with
      | some (holder, i) => lock.holders.set i holder.release
      | none => lock.holders
    rdcnt := lock.rdcnt - 1
    nordrs := if lock.rdcnt - 1 = 0 then true else lock.nordrs }

/-! ### Threads -/

/-- Where a thread stands: outside the lock, before `Lock` of the writer mutex in
`ReadLock`, before the counting section, before `Unlock` of the writer mutex, or
in `WriteLock` before the event lets it pass. -/
inductive RWLockPc where
  | idle
  | rdLock
  | rdCount
  | rdUnlock
  | wrWait
  deriving DecidableEq

/-- A thread, with the number of read and write locks it holds. -/
structure RWLockThread where
  pc : RWLockPc
  rdepth : ℕ
  wdepth : ℕ
  deriving DecidableEq

/-- What a thread does next: start one of the four calls, or go on with the one
it is in. -/
inductive RWLockAct where
  | readLock
  | readUnlock
  | writeLock
  | writeUnlock
  | go (alloc : Bool)
  deriving DecidableEq

/-- One step of a thread. A thread unlocks only what it holds. -/
def rwlockThreadStep [Zero Tid] (lock : RWLock Tid) (t : Tid) (th : RWLockThread) (act : RWLockAct) :
    Option (RWLock Tid × RWLockThread) :=
  match th.pc, act with
  | .idle, .readLock =>
      match rwlockReadLockFast lock t with
      | some lock' => some (lock', { th with rdepth := th.rdepth + 1 })
      | none => some (lock, { th with pc := .rdLock })
  | .rdLock, .go _ =>
      (lock.wrmtx.lock t).map fun m => ({ lock with wrmtx := m }, { th with pc := .rdCount })
  | .rdCount, .go alloc =>
      some (rwlockReadLockSlow alloc lock t, { th with pc := .rdUnlock, rdepth := th.rdepth + 1 })
  | .rdUnlock, .go _ =>
      (lock.wrmtx.unlock t).map fun m => ({ lock with wrmtx := m }, { th with pc := .idle })
  | .idle, .readUnlock =>
      if 0 < th.rdepth then some (rwlockReadUnlock lock t, { th with rdepth := th.rdepth - 1 })
      else none
  | .idle, .writeLock =>
      (lock.wrmtx.lock t).map fun m => ({ lock with wrmtx := m }, { th with pc := .wrWait })
  | .wrWait, .go _ =>
      if lock.nordrs then some (lock, { th with pc := .idle, wdepth := th.wdepth + 1 }) else none
  | .idle, .writeUnlock =>
      if 0 < th.wdepth then
        (lock.wrmtx.unlock t).map fun m =>
          ({ lock with wrmtx := m }, { th with wdepth := th.wdepth - 1 })
      else none
  | _, _ => none

/-- A lock and the threads that use it. -/
structure RWLockState (Tid : Type) where
  lock : RWLock Tid
  threads : Tid → RWLockThread

/-- The state after thread `t` has moved to `th`. -/
def RWLockState.commit (s : RWLockState Tid) (t : Tid) (lock : RWLock Tid) (th : RWLockThread) :
    RWLockState Tid where
  lock := lock
  threads := Function.update s.threads t th

@[simp] lemma RWLockState.commit_lock (s : RWLockState Tid) (t : Tid) (lock : RWLock Tid)
    (th : RWLockThread) : (s.commit t lock th).lock = lock := rfl

@[simp] lemma RWLockState.commit_threads (s : RWLockState Tid) (t : Tid) (lock : RWLock Tid)
    (th : RWLockThread) : (s.commit t lock th).threads = Function.update s.threads t th := rfl

/-- A new lock, with every thread outside it. -/
def rwlockStart : RWLockState Tid where
  lock := rwlockCreateInternal
  threads := fun _ => { pc := .idle, rdepth := 0, wdepth := 0 }

/-- The threads interleaved: one of them takes one step. -/
def rwlockSystem (Tid : Type) [DecidableEq Tid] [Zero Tid] :
    TransitionSystem (RWLockState Tid) (Tid × RWLockAct) where
  init s := s = rwlockStart
  step s a :=
    (rwlockThreadStep s.lock a.1 (s.threads a.1) a.2).map fun r => s.commit a.1 r.1 r.2

/-! ### The table of holders -/

/-- How many read locks the table counts for a thread. -/
def rwlockTracked (holders : List (RWLockHolder Tid)) (t : Tid) : ℕ :=
  (holders.map fun h => if h.tid = t then h.depth else 0).sum

lemma rwlockHolderGet_some {holders : List (RWLockHolder Tid)} {t : Tid}
    {h : RWLockHolder Tid} {i : ℕ} (hget : rwlockHolderGet holders t = some (h, i)) :
    holders[i]? = some h ∧ 0 < h.depth ∧ h.tid = t := by
  have hmem := List.mem_of_find?_eq_some hget
  have htest := List.find?_some hget
  exact ⟨List.mem_zipIdx_iff_getElem?.mp hmem, by simpa using htest⟩

/-- A thread without an entry has nothing counted. -/
lemma rwlockTracked_of_get_none {holders : List (RWLockHolder Tid)} {t : Tid}
    (hget : rwlockHolderGet holders t = none) : rwlockTracked holders t = 0 := by
  refine List.sum_eq_zero fun n hn => ?_
  obtain ⟨h, hh, rfl⟩ := List.mem_map.mp hn
  obtain ⟨i, hi⟩ := List.mem_iff_getElem?.mp hh
  have hnone := List.find?_eq_none.mp hget (h, i) (List.mem_zipIdx_iff_getElem?.mpr hi)
  simp only [decide_eq_true_eq, not_and] at hnone
  by_cases ht : h.tid = t
  · rw [if_pos ht]
    by_contra hne
    exact hnone (Nat.pos_of_ne_zero hne) ht
  · rw [if_neg ht]

/-- An entry with a positive depth is counted. -/
lemma rwlockTracked_pos_of_get {holders : List (RWLockHolder Tid)} {t : Tid}
    {r : RWLockHolder Tid × ℕ} (hget : rwlockHolderGet holders t = some r) :
    0 < rwlockTracked holders t := by
  obtain ⟨hi, hpos, ht⟩ := rwlockHolderGet_some (h := r.1) (i := r.2) hget
  have hle := List.single_le_sum (l := holders.map fun h => if h.tid = t then h.depth else 0)
    (by simp) _ (List.mem_map.mpr ⟨r.1, List.mem_of_getElem? hi, rfl⟩)
  rw [if_pos ht] at hle
  exact lt_of_lt_of_le hpos hle

/-- Writing one entry of the table. -/
lemma rwlockTracked_set {holders : List (RWLockHolder Tid)} {i : ℕ} {h : RWLockHolder Tid}
    (hi : holders[i]? = some h) (k : RWLockHolder Tid) (t : Tid) :
    rwlockTracked (holders.set i k) t + (if h.tid = t then h.depth else 0)
      = rwlockTracked holders t + (if k.tid = t then k.depth else 0) :=
  sum_map_set_add (fun h : RWLockHolder Tid => if h.tid = t then h.depth else 0) k hi

/-- A released entry counts one read lock less for the same thread. -/
lemma RWLockHolder.release_tracked [Zero Tid] (holder : RWLockHolder Tid) (u : Tid) :
    (if holder.release.tid = u then holder.release.depth else 0)
      = if holder.tid = u then holder.depth - 1 else 0 := by
  simp only [RWLockHolder.release]
  by_cases hzero : holder.depth - 1 = 0
  · simp [hzero]
  · simp [hzero]

/-- Adding an entry counts one read lock for its thread, or none when the table
cannot grow, and touches no other thread. -/
lemma rwlockTracked_add [Zero Tid] (alloc : Bool) (holders : List (RWLockHolder Tid)) (t : Tid) :
    rwlockTracked (rwlockHolderAdd alloc holders t) t ≤ rwlockTracked holders t + 1 ∧
      ∀ u, u ≠ t → rwlockTracked (rwlockHolderAdd alloc holders t) u = rwlockTracked holders u := by
  -- writing the entry `⟨t, 1⟩` over one of depth 0
  have hset : ∀ {l : List (RWLockHolder Tid)} {i : ℕ} {h : RWLockHolder Tid},
      l[i]? = some h → h.depth = 0 → (∀ u, rwlockTracked l u = rwlockTracked holders u) →
      rwlockTracked (l.set i ⟨t, 1⟩) t ≤ rwlockTracked holders t + 1 ∧
        ∀ u, u ≠ t → rwlockTracked (l.set i ⟨t, 1⟩) u = rwlockTracked holders u := by
    intro l i h hi hdepth hl
    have hsum := rwlockTracked_set hi ⟨t, 1⟩
    simp only [hdepth, ite_self, Nat.add_zero, hl] at hsum
    refine ⟨by rw [hsum t, if_pos rfl], fun u hu => ?_⟩
    rw [hsum u, if_neg (Ne.symm hu), Nat.add_zero]
  rw [rwlockHolderAdd]
  split
  case h_1 h i hfind =>
      have hi := List.mem_zipIdx_iff_getElem?.mp (List.mem_of_find?_eq_some hfind)
      have hdepth : h.depth = 0 := by simpa using List.find?_some hfind
      exact hset hi hdepth fun _ => rfl
  case h_2 =>
      cases alloc with
      | false => exact ⟨Nat.le_succ _, fun _ _ => rfl⟩
      | true =>
          have hroom : ∃ n, (if 0 < holders.length then holders.length * 2
              else rwlockHolderInitcap) - holders.length = n + 1 := by
            rw [rwlockHolderInitcap]
            split
            · exact ⟨holders.length - 1, by omega⟩
            · exact ⟨7, by omega⟩
          obtain ⟨n, hn⟩ := hroom
          simp only [if_true, hn]
          refine hset (h := ⟨0, 0⟩) ?_ rfl fun u => ?_
          · simp [List.replicate_succ]
          · simp [rwlockTracked]

/-! ### The invariant -/

/-- How often a thread holds the writer mutex. -/
def RWLockThread.wrDepth (th : RWLockThread) : ℕ :=
  th.wdepth +
    match th.pc with
    | .idle | .rdLock => 0
    | .rdCount | .rdUnlock | .wrWait => 1

section Invariant

variable [Fintype Tid]

/-- The invariant of the lock: who holds the writer mutex, what is counted, and
that nobody reads beside a writer. -/
structure RWLockInv (s : RWLockState Tid) : Prop where
  wrmtx : ∀ t, s.lock.wrmtx.depth t = (s.threads t).wrDepth
  rdcnt : s.lock.rdcnt = ∑ t, ((s.threads t).rdepth : ℤ)
  nordrs : s.lock.nordrs = true ↔ s.lock.rdcnt = 0
  holders : ∀ t, rwlockTracked s.lock.holders t ≤ (s.threads t).rdepth
  exclusive : ∀ t u, t ≠ u → 0 < (s.threads t).wdepth → (s.threads u).rdepth = 0

lemma rwlockInv_start : RWLockInv (rwlockStart : RWLockState Tid) where
  wrmtx _ := rfl
  rdcnt := by simp [rwlockStart, rwlockCreateInternal]
  nordrs := by simp [rwlockStart, rwlockCreateInternal]
  holders _ := le_rfl
  exclusive _ _ _ _ := rfl

variable {s : RWLockState Tid} {lock' : RWLock Tid} {t : Tid} {th' : RWLockThread}
  {act : RWLockAct}

/-- What one thread has to show for its step to keep the invariant. -/
lemma RWLockInv.commit (hi : RWLockInv s)
    (hwr : lock'.wrmtx.depth t = th'.wrDepth)
    (hwro : ∀ u, u ≠ t → lock'.wrmtx.depth u = s.lock.wrmtx.depth u)
    (hrd : lock'.rdcnt + (s.threads t).rdepth = s.lock.rdcnt + th'.rdepth)
    (hno : lock'.nordrs = true ↔ lock'.rdcnt = 0)
    (hhd : rwlockTracked lock'.holders t ≤ th'.rdepth)
    (hhdo : ∀ u, u ≠ t → rwlockTracked lock'.holders u = rwlockTracked s.lock.holders u)
    (hwx : 0 < th'.wdepth → ∀ u, u ≠ t → (s.threads u).rdepth = 0)
    (hrx : 0 < th'.rdepth → ∀ u, u ≠ t → (s.threads u).wdepth = 0) :
    RWLockInv (s.commit t lock' th') where
  wrmtx u := by
    by_cases hu : u = t
    · subst hu
      simpa using hwr
    · simpa [hu, hwro u hu] using hi.wrmtx u
  rdcnt := by
    have hsum := sum_update_add (fun th : RWLockThread => (th.rdepth : ℤ)) s.threads t th'
    have hold := hi.rdcnt
    simp only [RWLockState.commit_lock, RWLockState.commit_threads] at hsum ⊢
    omega
  nordrs := hno
  holders u := by
    by_cases hu : u = t
    · subst hu
      simpa using hhd
    · simpa [hu, hhdo u hu] using hi.holders u
  exclusive u v huv hw := by
    by_cases hu : u = t
    · subst hu
      have hv : v ≠ u := huv.symm
      simp only [RWLockState.commit_threads, Function.update_self] at hw
      simpa [hv] using hwx hw v hv
    · simp only [RWLockState.commit_threads, Function.update_of_ne hu] at hw
      by_cases hv : v = t
      · subst hv
        by_contra hne
        simp only [RWLockState.commit_threads, Function.update_self] at hne
        have := hrx (Nat.pos_of_ne_zero hne) u hu
        omega
      · simpa [hv] using hi.exclusive u v huv hw

/-- A thread that holds the writer mutex is the only one that can write. -/
lemma RWLockInv.no_other_writer (hi : RWLockInv s) (ht : 0 < s.lock.wrmtx.depth t) :
    ∀ u, u ≠ t → (s.threads u).wdepth = 0 := by
  intro u hu
  by_contra hne
  have hpos : 0 < s.lock.wrmtx.depth u := by
    rw [hi.wrmtx u, RWLockThread.wrDepth]
    omega
  exact hu (Mutex.exclusive hpos ht)

/-- Without readers no thread reads. -/
lemma RWLockInv.no_reader (hi : RWLockInv s) (hno : s.lock.nordrs = true) :
    ∀ u, (s.threads u).rdepth = 0 := by
  intro u
  have hzero := hi.rdcnt
  rw [hi.nordrs.mp hno] at hzero
  have hall := (Finset.sum_eq_zero_iff_of_nonneg fun v _ => Int.natCast_nonneg _).mp hzero.symm
  simpa using hall u (Finset.mem_univ u)

/-- A read lock of a thread is counted. -/
lemma RWLockInv.rdepth_le (hi : RWLockInv s) (u : Tid) :
    ((s.threads u).rdepth : ℤ) ≤ s.lock.rdcnt := by
  rw [hi.rdcnt]
  exact Finset.single_le_sum (f := fun v => ((s.threads v).rdepth : ℤ))
    (fun v _ => Int.natCast_nonneg _) (Finset.mem_univ u)

/-! ### One lemma for each step -/

/-- Taking the writer mutex. -/
lemma RWLockInv.lock_wrmtx (hi : RWLockInv s) {m : Mutex Tid} {pc : RWLockPc}
    (hm : s.lock.wrmtx.lock t = some m)
    (hpc : RWLockThread.wrDepth { s.threads t with pc := pc } = (s.threads t).wrDepth + 1) :
    RWLockInv (s.commit t { s.lock with wrmtx := m } { s.threads t with pc := pc }) := by
  have hdepth := Mutex.depth_lock hm
  refine hi.commit ?_ ?_ rfl hi.nordrs (hi.holders t) (fun _ _ => rfl) ?_ ?_
  · rw [hpc, ← hi.wrmtx t, hdepth, Function.update_self]
  · intro u hu
    rw [hdepth, Function.update_of_ne hu]
  · exact fun hw u hu => hi.exclusive t u hu.symm hw
  · intro _ u hu
    have hzero := Mutex.depth_other_of_lock hm hu
    rw [hi.wrmtx u, RWLockThread.wrDepth] at hzero
    omega

/-- Leaving the writer mutex. -/
lemma RWLockInv.unlock_wrmtx (hi : RWLockInv s) {m : Mutex Tid}
    (hm : s.lock.wrmtx.unlock t = some m) (hdepth : (s.threads t).wrDepth = th'.wrDepth + 1)
    (hrd : th'.rdepth = (s.threads t).rdepth) (hwd : th'.wdepth ≤ (s.threads t).wdepth) :
    RWLockInv (s.commit t { s.lock with wrmtx := m } th') := by
  obtain ⟨hself, hother⟩ := Mutex.depth_unlock hm
  have hold := hi.wrmtx t
  refine hi.commit (by simp only; omega) hother (by rw [hrd]) hi.nordrs (hrd ▸ hi.holders t)
    (fun _ _ => rfl) ?_ ?_
  · exact fun hw u hu => hi.exclusive t u hu.symm (by omega)
  · exact fun _ => hi.no_other_writer (by omega)

/-- The fast path: the thread holds a read lock already, so no other thread
writes. -/
lemma RWLockInv.readLockFast (hi : RWLockInv s) (hfast : rwlockReadLockFast s.lock t = some lock') :
    RWLockInv (s.commit t lock' { s.threads t with rdepth := (s.threads t).rdepth + 1 }) := by
  rw [rwlockReadLockFast] at hfast
  split at hfast
  case h_2 => cases hfast
  case h_1 holder i hget =>
      obtain rfl := Option.some.inj hfast
      obtain ⟨hentry, hpos, htid⟩ := rwlockHolderGet_some hget
      have hset := rwlockTracked_set hentry { holder with depth := holder.depth + 1 }
      have htracked := hi.holders t
      have hread : 0 < (s.threads t).rdepth :=
        lt_of_lt_of_le (rwlockTracked_pos_of_get hget) htracked
      have hcount := hi.rdepth_le t
      refine hi.commit (hi.wrmtx t) (fun _ _ => rfl) ?_ ?_ ?_ ?_ ?_ ?_
      · simp only; push_cast; ring
      · have := hi.nordrs
        simp only
        constructor
        · intro hno
          have := this.mp hno
          omega
        · intro hzero
          omega
      · have := hset t
        simp only [htid, if_true] at this ⊢
        omega
      · intro u hu
        have := hset u
        simp only [htid, if_neg (Ne.symm hu)] at this ⊢
        omega
      · exact fun hw u hu => hi.exclusive t u hu.symm hw
      · intro _ u hu
        by_contra hne
        have := hi.exclusive u t hu (Nat.pos_of_ne_zero hne)
        omega

/-- The slow path counts a new reader while it keeps writers out. -/
lemma RWLockInv.readLockSlow [Zero Tid] (hi : RWLockInv s) (alloc : Bool) (hpc : (s.threads t).pc = .rdCount) :
    RWLockInv (s.commit t (rwlockReadLockSlow alloc s.lock t)
      { s.threads t with pc := .rdUnlock, rdepth := (s.threads t).rdepth + 1 }) := by
  obtain ⟨hadd, hother⟩ := rwlockTracked_add alloc s.lock.holders t
  have htracked := hi.holders t
  have hcount := hi.rdepth_le t
  have hwr := hi.wrmtx t
  have hno := hi.nordrs
  rw [RWLockThread.wrDepth, hpc] at hwr
  refine hi.commit ?_ (fun _ _ => rfl) ?_ ?_ ?_ hother ?_ ?_
  · simpa [rwlockReadLockSlow, RWLockThread.wrDepth] using hwr
  · simp only [rwlockReadLockSlow]
    push_cast
    ring
  · simp only [rwlockReadLockSlow]
    split
    · constructor
      · intro h; cases h
      · intro hzero; omega
    · rw [hno]
      omega
  · simp only [rwlockReadLockSlow]
    omega
  · exact fun hw u hu => hi.exclusive t u hu.symm hw
  · exact fun _ => hi.no_other_writer (by simp only at hwr; omega)

/-- Releasing a read lock uncounts it; the last one lets the writers pass. -/
lemma RWLockInv.readUnlock [Zero Tid] (hi : RWLockInv s) (hpos : 0 < (s.threads t).rdepth) :
    RWLockInv (s.commit t (rwlockReadUnlock s.lock t)
      { s.threads t with rdepth := (s.threads t).rdepth - 1 }) := by
  have htracked := hi.holders t
  have hcount := hi.rdepth_le t
  have hno := hi.nordrs
  have hholders : rwlockTracked (rwlockReadUnlock s.lock t).holders t ≤ (s.threads t).rdepth - 1 ∧
      ∀ u, u ≠ t → rwlockTracked (rwlockReadUnlock s.lock t).holders u
        = rwlockTracked s.lock.holders u := by
    rw [rwlockReadUnlock]
    cases hget : rwlockHolderGet s.lock.holders t with
    | none =>
        refine ⟨?_, fun _ _ => rfl⟩
        change rwlockTracked s.lock.holders t ≤ _
        have := rwlockTracked_of_get_none hget
        omega
    | some r =>
        obtain ⟨holder, i⟩ := r
        obtain ⟨hentry, hdpos, htid⟩ := rwlockHolderGet_some hget
        have hset := rwlockTracked_set hentry holder.release
        simp only [holder.release_tracked, htid] at hset ⊢
        refine ⟨?_, fun u hu => ?_⟩
        · have := hset t
          simp only [if_true] at this
          omega
        · have := hset u
          simp only [if_neg (Ne.symm hu)] at this
          omega
  refine hi.commit (hi.wrmtx t) (fun _ _ => rfl) ?_ ?_ hholders.1 hholders.2 ?_ ?_
  · simp only [rwlockReadUnlock]
    push_cast [Nat.cast_sub (show 1 ≤ (s.threads t).rdepth by omega)]
    ring
  · simp only [rwlockReadUnlock]
    split
    · exact ⟨fun _ => by assumption, fun _ => rfl⟩
    · rw [hno]
      omega
  · exact fun hw u hu => hi.exclusive t u hu.symm hw
  · intro hrd u hu
    by_contra hne
    have := hi.exclusive u t hu (Nat.pos_of_ne_zero hne)
    simp only at hrd
    omega

/-- A writer that passes the event finds no reader. -/
lemma RWLockInv.writePass (hi : RWLockInv s) (hpc : (s.threads t).pc = .wrWait)
    (hpass : s.lock.nordrs = true) :
    RWLockInv (s.commit t s.lock { s.threads t with pc := .idle, wdepth := (s.threads t).wdepth + 1 }) := by
  have hwr := hi.wrmtx t
  rw [RWLockThread.wrDepth, hpc] at hwr
  refine hi.commit ?_ (fun _ _ => rfl) rfl hi.nordrs (hi.holders t) (fun _ _ => rfl) ?_ ?_
  · simpa [RWLockThread.wrDepth] using hwr
  · exact fun _ u _ => hi.no_reader hpass u
  · exact fun _ => hi.no_other_writer (by simp only at hwr; omega)

/-- Every step of a thread keeps the invariant. -/
lemma RWLockInv.threadStep [Zero Tid] (hi : RWLockInv s)
    (hstep : rwlockThreadStep s.lock t (s.threads t) act = some (lock', th')) :
    RWLockInv (s.commit t lock' th') := by
  unfold rwlockThreadStep at hstep
  split at hstep
  case h_1 _ _ hpc =>
      split at hstep
      case h_1 lock'' hfast =>
          obtain ⟨rfl, rfl⟩ := by simpa using hstep
          exact hi.readLockFast hfast
      case h_2 =>
          obtain ⟨rfl, rfl⟩ := by simpa using hstep
          have hwr := hi.wrmtx t
          rw [RWLockThread.wrDepth, hpc] at hwr
          exact hi.commit (by simpa [RWLockThread.wrDepth] using hwr) (fun _ _ => rfl) rfl hi.nordrs
            (hi.holders t) (fun _ _ => rfl) (fun hw u hu => hi.exclusive t u hu.symm hw)
            fun hrd u hu => by
              by_contra hne
              have := hi.exclusive u t hu (Nat.pos_of_ne_zero hne)
              simp only at hrd
              omega
  case h_2 _ _ _ hpc =>
      obtain ⟨m, hm, rfl, rfl⟩ := by simpa using hstep
      exact hi.lock_wrmtx hm (by simp [RWLockThread.wrDepth, hpc])
  case h_3 _ _ _ hpc =>
      obtain ⟨rfl, rfl⟩ := by simpa using hstep
      exact hi.readLockSlow _ hpc
  case h_4 _ _ _ hpc =>
      obtain ⟨m, hm, rfl, rfl⟩ := by simpa using hstep
      exact hi.unlock_wrmtx hm (by simp [RWLockThread.wrDepth, hpc]) rfl le_rfl
  case h_5 _ _ hpc =>
      obtain ⟨hpos, rfl, rfl⟩ := by simpa using hstep
      exact hi.readUnlock hpos
  case h_6 _ _ hpc =>
      obtain ⟨m, hm, rfl, rfl⟩ := by simpa using hstep
      exact hi.lock_wrmtx hm (by simp [RWLockThread.wrDepth, hpc])
  case h_7 _ _ _ hpc =>
      obtain ⟨hpass, rfl, rfl⟩ := by simpa using hstep
      exact hi.writePass hpc hpass
  case h_8 _ _ hpc =>
      obtain ⟨hpos, m, hm, rfl, rfl⟩ := by simpa using hstep
      exact hi.unlock_wrmtx hm (by simp only [RWLockThread.wrDepth, hpc]; omega) rfl
        (Nat.sub_le _ _)
  case h_9 => cases hstep

lemma rwlockInv_of_reachable [Zero Tid] (h : (rwlockSystem Tid).Reachable s) : RWLockInv s := by
  refine h.invariant (fun s hs => hs ▸ rwlockInv_start) fun s a s' hi hstep => ?_
  simp only [rwlockSystem, Option.map_eq_some_iff] at hstep
  obtain ⟨r, hr, rfl⟩ := hstep
  exact hi.threadStep hr

end Invariant

end LibCmutils
