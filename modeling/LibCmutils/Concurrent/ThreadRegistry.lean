import LibCmutils.Array.Sorted
import LibCmutils.Lib.Transition

/-!
Threads (`src/concurrent.c`): `CMUTIL_Thread`, and the sorted array in which a running
thread finds its own record.

* `ThreadInternal`: the record. `threadCreateInternal` and `threadJoin` are called
  by any thread; `CMUTIL_ThreadProc` runs in the new one, and `ThreadPos` says where it stands.
* `threadComparator`: the array is ordered by a field of the records, so a comparison reads
  the memory as it is at the time of the call.
* `threadSelf`, `threadSelfId`: the search of the calling thread.
* `threadSystem`: all interleavings, of threads that follow the protocol of the interface.
  The system gives no thread the id of one that was not joined.
* `ThreadInv`: the invariant. The array holds the threads that are in their procedure, and the
  parent that writes `sysid` a second time writes the value that is there.

The main result is `thread_registry`.
-/

namespace LibCmutils

variable {Val : Type}

/-! ### The records -/

/-- `CMUTIL_Thread_Internal`. A handle of zero is `NULL`. -/
structure ThreadInternal (Val : Type) where
  thread : ℕ
  sysid : ℕ
  isrunning : Bool
  id : ℕ
  retval : Option Val

/-- A pointer to a record: the static one of the main thread, the one made by the `n`-th call of
`Create`, or one on the stack of which only `sysid` is set. -/
inductive ThreadPtr where
  | main
  | record (n : ℕ)
  | query (sysid : ℕ)
  deriving DecidableEq

/-- Where a thread stands in `CMUTIL_ThreadProc`, with what its procedure returned. -/
inductive ThreadPos (Val : Type) where
  | unstarted
  | spawned
  | running
  | identified
  | registered
  | returned (retval : Option Val)
  | unregistered (retval : Option Val)
  | finished (retval : Option Val)
  | joined

namespace ThreadPos

/-- The system thread exists, or ended and was not joined. -/
def alive : ThreadPos Val → Bool
  | .unstarted | .joined => false
  | _ => true

/-- The thread has written its own `sysid`. -/
def hasSysid : ThreadPos Val → Bool
  | .identified | .registered | .returned _ | .unregistered _ | .finished _ => true
  | _ => false

/-- The thread is in the array. -/
def inProc : ThreadPos Val → Bool
  | .registered | .returned _ => true
  | _ => false

/-- The value of `isrunning`. -/
def isrunning : ThreadPos Val → Bool
  | .running | .identified | .registered | .returned _ | .unregistered _ => true
  | _ => false

/-- The value of `retval`. -/
def retval : ThreadPos Val → Option Val
  | .returned v | .unregistered v | .finished v => v
  | _ => none

end ThreadPos

/-- What the system knows of a thread: where it stands, its id, and whether the call of `Start`
has not returned yet. -/
structure ThreadControl (Val : Type) where
  pos : ThreadPos Val
  tid : ℕ
  starting : Bool

/-- The threads, with `CMUTIL_Thread_Global_Context` and `g_main_thread_sysid`. The number of
records so far is `count`, `clashes` counts the messages about a thread with the same id. -/
structure ThreadSystem (Val : Type) where
  records : ℕ → Option (ThreadInternal Val)
  control : ℕ → ThreadControl Val
  count : ℕ
  threads : ArrayInternal ThreadPtr
  threadIndex : ℕ
  mainSysid : ℕ
  clashes : ℕ

namespace ThreadSystem

variable (s : ThreadSystem Val)

/-- The field `sysid` behind a pointer. -/
def sysid : ThreadPtr → ℕ
  | .main => s.mainSysid
  | .record n => (s.records n).elim 0 ThreadInternal.sysid
  | .query sysid => sysid

/-- The field `id` behind a pointer. -/
def id : ThreadPtr → ℕ
  | .record n => (s.records n).elim 0 ThreadInternal.id
  | .main | .query _ => 0

/-- The thread `n` with another record and another place. -/
def setThread (n : ℕ) (r : Option (ThreadInternal Val)) (c : ThreadControl Val) :
    ThreadSystem Val :=
  { s with records := Function.update s.records n r, control := Function.update s.control n c }

end ThreadSystem

/-- `CMUTIL_ThreadComparator`. -/
def threadComparator (s : ThreadSystem Val) (a b : ThreadPtr) : ℤ :=
  if s.sysid b < s.sysid a then 1 else if s.sysid a < s.sysid b then -1 else 0

/-- The array, as the comparator sees it. -/
def ThreadSystem.registry (s : ThreadSystem Val) : ArrayInternal ThreadPtr :=
  s.threads.withComparator (threadComparator s)

/-! ### The interface -/

/-- `CMUTIL_ThreadInit`; `registry` sets the comparator. -/
def threadInit (mainSysid : ℕ) : ThreadSystem Val where
  records := fun _ => none
  control := fun _ => ⟨.unstarted, 0, false⟩
  count := 0
  threads := arrayCreateInternal 10 (some fun _ _ => 0) false true
  threadIndex := 0
  mainSysid := mainSysid
  clashes := 0

/-- `CMUTIL_ThreadCreateInternal`, without the name. -/
def threadCreateInternal (s : ThreadSystem Val) : ThreadSystem Val :=
  let threadIndex := if s.threadIndex = 2 ^ 32 - 1 then 0 else s.threadIndex
  { s.setThread s.count (some ⟨0, 0, false, threadIndex + 1, none⟩) ⟨.unstarted, 0, false⟩ with
    count := s.count + 1, threadIndex := threadIndex + 1 }

/-- What `CMUTIL_ThreadStart` writes after `pthread_create`: the handle, and `sysid` from it. -/
def ThreadInternal.setHandle (r : ThreadInternal Val) (thread : ℕ) : ThreadInternal Val :=
  { r with thread := thread, sysid := thread }

/-- `CMUTIL_ThreadJoin`. It waits for a thread that has started and takes the value from the
record; the handle of a thread that does not exist has no meaning. -/
def threadJoin (s : ThreadSystem Val) (n : ℕ) : Option (ThreadSystem Val × Option Val) :=
  (s.records n).bind fun r =>
    let c := s.control n
    if r.thread ≠ 0 then
      match c.pos with
      | .finished _ =>
          if c.starting = false ∧ r.thread = c.tid then
            some (s.setThread n none ⟨.joined, c.tid, false⟩, r.retval)
          else none
      | _ => none
    else if c.pos.alive = false then some (s.setThread n none ⟨.joined, c.tid, false⟩, none)
    else none

/-- `CMUTIL_ThreadIsRunning`. -/
def threadIsRunning (s : ThreadSystem Val) (n : ℕ) : Option Bool :=
  (s.records n).map ThreadInternal.isrunning

/-- `CMUTIL_ThreadSelf`, for the calling thread. -/
def threadSelf (s : ThreadSystem Val) (caller : ℕ) : Option (Option ThreadPtr) :=
  if caller = s.mainSysid then some (some .main)
  else (arrayFind s.registry (.query caller)).map fun r => r.map Prod.fst

/-- `CMUTIL_ThreadSelfId`. -/
def threadSelfId (s : ThreadSystem Val) (caller : ℕ) : Option ℕ :=
  (arrayFind s.registry (.query caller)).map fun r => r.elim 0 fun found => s.id found.1

/-! ### The steps -/

/-- The steps. A `start` is `pthread_create` that made a thread with this id, a `startFailed` one
that did not and left this handle; `startReturn` is what the parent does after it. The others are
the parts of `CMUTIL_ThreadProc`. -/
inductive ThreadAct (Val : Type) where
  | create
  | start (n tid : ℕ)
  | startFailed (n handle : ℕ)
  | startReturn (n : ℕ)
  | setRunning (n : ℕ)
  | setSysid (n : ℕ)
  | register (n : ℕ)
  | ret (n : ℕ) (v : Option Val)
  | unregister (n : ℕ)
  | finish (n : ℕ)
  | join (n : ℕ)

/-- An id that the system may give a thread. -/
def ThreadSystem.Free (s : ThreadSystem Val) (tid : ℕ) : Prop :=
  tid ≠ 0 ∧ tid ≠ s.mainSysid ∧
    ∀ n < s.count, (s.control n).pos.alive = true → (s.control n).tid ≠ tid

instance (s : ThreadSystem Val) (tid : ℕ) : Decidable (s.Free tid) := by
  unfold ThreadSystem.Free
  infer_instance

/-- The section of `CMUTIL_ThreadProc` before the procedure, under the lock. The index of the
array is a `uint32_t`, and there are never as many threads. -/
def threadRegister (s : ThreadSystem Val) (n : ℕ) (r : ThreadInternal Val) :
    Option (ThreadSystem Val) :=
  if s.threads.size + 1 < 2 ^ 32 then
    (arrayAdd true s.registry (.record n) true).map fun added =>
      { s.setThread n (some r) { s.control n with pos := .registered } with
        threads := added.1, clashes := s.clashes + if added.2.ret.isSome then 1 else 0 }
  else none

/-- The section after the procedure. -/
def threadUnregister (s : ThreadSystem Val) (n : ℕ) (r : ThreadInternal Val) (v : Option Val) :
    Option (ThreadSystem Val) :=
  (arrayRemove s.registry (.record n)).map fun removed =>
    { s.setThread n (some r) { s.control n with pos := .unregistered v } with threads := removed.1 }

/-- One step of a thread in `CMUTIL_ThreadProc`. -/
def threadProcStep (s : ThreadSystem Val) (n : ℕ) (r : ThreadInternal Val) :
    ThreadAct Val → ThreadPos Val → Option (ThreadSystem Val)
  | .setRunning _, .spawned =>
      some (s.setThread n (some { r with isrunning := true })
        { s.control n with pos := .running })
  | .setSysid _, .running =>
      some (s.setThread n (some { r with sysid := (s.control n).tid })
        { s.control n with pos := .identified })
  | .register _, .identified => threadRegister s n r
  | .ret _ v, .registered =>
      some (s.setThread n (some { r with retval := v }) { s.control n with pos := .returned v })
  | .unregister _, .returned v => threadUnregister s n r v
  | .finish _, .unregistered v =>
      some (s.setThread n (some { r with isrunning := false })
        { s.control n with pos := .finished v })
  | _, _ => none

/-- One step. A thread is started once, and joined once after `Start` has returned. -/
def threadStep (s : ThreadSystem Val) (a : ThreadAct Val) : Option (ThreadSystem Val) :=
  match a with
  | .create => some (threadCreateInternal s)
  | .start n tid =>
      (s.records n).bind fun r =>
        match (s.control n).pos with
        | .unstarted =>
            if s.Free tid then some (s.setThread n (some r) ⟨.spawned, tid, true⟩) else none
        | _ => none
  | .startFailed n handle =>
      (s.records n).bind fun r =>
        match (s.control n).pos with
        | .unstarted => some (s.setThread n (some (r.setHandle handle)) (s.control n))
        | _ => none
  | .startReturn n =>
      (s.records n).bind fun r =>
        let c := s.control n
        if c.starting then
          some (s.setThread n (some (r.setHandle c.tid)) { c with starting := false })
        else none
  | .join n => (threadJoin s n).map Prod.fst
  | .setRunning n | .setSysid n | .register n | .ret n _ | .unregister n | .finish n =>
      (s.records n).bind fun r => threadProcStep s n r a (s.control n).pos

/-- The threads of a process. -/
def threadSystem (mainSysid : ℕ) : TransitionSystem (ThreadSystem Val) (ThreadAct Val) where
  init := fun s => s = threadInit mainSysid
  step := threadStep

/-! ### The invariant -/

/-- The id that the `n`-th record has: the counter starts again before it would be zero. -/
def threadNumber (n : ℕ) : ℕ := n % (2 ^ 32 - 1) + 1

/-- What is in a record, by where its thread stands. -/
structure RecordInv (n : ℕ) (r : ThreadInternal Val) (c : ThreadControl Val) : Prop where
  id : r.id = threadNumber n
  isrunning : r.isrunning = c.pos.isrunning
  retval : r.retval = c.pos.retval
  sysid : c.pos.hasSysid = true → r.sysid = c.tid
  thread : c.pos.alive = true → c.starting = false → r.thread = c.tid
  starting : c.starting = true → c.pos.alive = true

/-- The array holds the threads in their procedure, in the order of their ids. -/
def ThreadSystem.Registered (s : ThreadSystem Val) (l : List ThreadPtr) : Prop :=
  SortedBy (threadComparator s) s.registry l ∧
    ∀ p, p ∈ l ↔ ∃ n, p = .record n ∧ (s.control n).pos.inProc = true

/-- The part of the invariant that is not about the array. -/
structure RecordsInv (s : ThreadSystem Val) : Prop where
  fresh : ∀ n, s.count ≤ n → s.records n = none ∧ (s.control n).pos.alive = false
  record : ∀ n r, s.records n = some r → RecordInv n r (s.control n)
  alive : ∀ n, (s.control n).pos.alive = true → (s.records n).isSome
  distinct : ∀ n m, (s.control n).pos.alive = true → (s.control m).pos.alive = true →
    (s.control n).tid = (s.control m).tid → n = m
  foreign : ∀ n, (s.control n).pos.alive = true →
    (s.control n).tid ≠ 0 ∧ (s.control n).tid ≠ s.mainSysid
  start : s.count = 0 → s.threadIndex = 0
  index : ∀ n, s.count = n + 1 → s.threadIndex = threadNumber n

/-- The invariant. -/
structure ThreadInv (s : ThreadSystem Val) : Prop extends RecordsInv s where
  registered : ∃ l, s.Registered l
  size : s.threads.size < 2 ^ 32
  clashes : s.clashes = 0

lemma ThreadPos.alive_of_hasSysid {pos : ThreadPos Val} (h : pos.hasSysid = true) :
    pos.alive = true := by
  cases pos <;> first | rfl | cases h

lemma ThreadPos.hasSysid_of_inProc {pos : ThreadPos Val} (h : pos.inProc = true) :
    pos.hasSysid = true := by
  cases pos <;> first | rfl | cases h

lemma threadNumber_succ (n : ℕ) :
    (if threadNumber n = 2 ^ 32 - 1 then 0 else threadNumber n) + 1 = threadNumber (n + 1) := by
  rw [threadNumber, threadNumber]
  split_ifs <;> omega

section Order

variable {s s' : ThreadSystem Val} {l : List ThreadPtr} {n : ℕ} {r : ThreadInternal Val}
  {c : ThreadControl Val}

lemma threadComparator_neg {p q : ThreadPtr} :
    threadComparator s p q < 0 ↔ s.sysid p < s.sysid q := by
  simp only [threadComparator]
  split_ifs <;> omega

lemma threadComparator_pos {p q : ThreadPtr} :
    0 < threadComparator s p q ↔ s.sysid q < s.sysid p := by
  simp only [threadComparator]
  split_ifs <;> omega

lemma threadComparator_eq_zero {p q : ThreadPtr} :
    threadComparator s p q = 0 ↔ s.sysid p = s.sysid q := by
  have hneg := threadComparator_neg (s := s) (p := p) (q := q)
  have hpos := threadComparator_pos (s := s) (p := p) (q := q)
  omega

lemma isComparator_thread (s : ThreadSystem Val) : IsComparator (threadComparator s) :=
  IsComparator.of_lt s.sysid (fun _ _ => threadComparator_neg) fun _ _ => threadComparator_pos

@[simp] lemma ThreadSystem.setThread_control_self :
    (s.setThread n (some r) c).control n = c := Function.update_self ..

@[simp] lemma ThreadSystem.setThread_records_self {r : Option (ThreadInternal Val)} :
    (s.setThread n r c).records n = r := Function.update_self ..

/-- A thread in the array has an id of its own. -/
lemma RecordsInv.sysid_record (h : RecordsInv s) (hn : (s.control n).pos.hasSysid = true) :
    s.sysid (.record n) = (s.control n).tid := by
  obtain ⟨r, hr⟩ := Option.isSome_iff_exists.mp (h.alive n (ThreadPos.alive_of_hasSysid hn))
  rw [ThreadSystem.sysid, hr]
  exact (h.record n r hr).sysid hn

lemma RecordsInv.sysid_inj (h : RecordsInv s) {m : ℕ} (hn : (s.control n).pos.hasSysid = true)
    (hm : (s.control m).pos.hasSysid = true)
    (heq : s.sysid (.record n) = s.sysid (.record m)) : n = m := by
  rw [h.sysid_record hn, h.sysid_record hm] at heq
  exact h.distinct n m (ThreadPos.alive_of_hasSysid hn) (ThreadPos.alive_of_hasSysid hm) heq

/-- An array that holds the threads in their procedure, sorted by the ids they have. -/
lemma ThreadSystem.Registered.of_sortedBy {a : ArrayInternal ThreadPtr}
    (h : SortedBy (threadComparator s) a l) (hthreads : s'.threads.data = a.data)
    (hsize : s'.threads.size = a.size) (hkind : s'.threads.issorted = a.issorted)
    (hmem : ∀ p, p ∈ l ↔ ∃ n, p = .record n ∧ (s'.control n).pos.inProc = true)
    (hsysid : ∀ p ∈ l, s'.sysid p = s.sysid p) : s'.Registered l := by
  refine ⟨⟨⟨?_, hsize.trans h.holds.size_eq⟩, ?_, rfl, hkind.trans h.issorted⟩, hmem⟩
  · rw [ThreadSystem.registry, show (s'.threads.withComparator _).data = a.data from hthreads]
    exact h.holds.prefix_data
  · refine h.sorted.congr fun p hp q hq => ?_
    rw [threadComparator, threadComparator, hsysid p hp, hsysid q hq]

/-- The array stays as it is while its members keep their ids. -/
lemma ThreadSystem.Registered.congr (h : s.Registered l) (hthreads : s'.threads = s.threads)
    (hproc : ∀ n, (s'.control n).pos.inProc = (s.control n).pos.inProc)
    (hsysid : ∀ n, (s.control n).pos.inProc = true →
      s'.sysid (.record n) = s.sysid (.record n)) : s'.Registered l := by
  refine .of_sortedBy h.1 (by rw [hthreads]; rfl) (by rw [hthreads]; rfl) (by rw [hthreads]; rfl)
    (fun p => ?_) fun p hp => ?_
  · simp only [h.2, hproc]
  · obtain ⟨n, rfl, hn⟩ := (h.2 p).mp hp
    exact hsysid n hn

/-- A member that compares equal to a thread is that thread. -/
lemma RecordsInv.eq_of_comparator (h : RecordsInv s) (hl : s.Registered l)
    (hn : (s.control n).pos.hasSysid = true) {p : ThreadPtr} (hp : p ∈ l)
    (heq : threadComparator s (.record n) p = 0) : p = .record n := by
  obtain ⟨m, rfl, hm⟩ := (hl.2 p).mp hp
  rw [h.sysid_inj hn (ThreadPos.hasSysid_of_inProc hm) (threadComparator_eq_zero.mp heq)]

end Order

/-! ### What one step does -/

section Steps

variable {s s' : ThreadSystem Val} {l : List ThreadPtr} {n : ℕ} {r r' : ThreadInternal Val}
  {c : ThreadControl Val} {v : Option Val}

lemma RecordsInv.lt_count (h : RecordsInv s) (hr : s.records n = some r) : n < s.count := by
  by_contra hle
  rw [(h.fresh n (not_lt.mp hle)).1] at hr
  cases hr

/-- A thread goes on, with the id it has, or starts with a free one. -/
lemma RecordsInv.setThread (h : RecordsInv s) (hr : s.records n = some r)
    (hrec : RecordInv n r' c)
    (htid : c.pos.alive = true →
      ((s.control n).pos.alive = true ∧ c.tid = (s.control n).tid) ∨ s.Free c.tid) :
    RecordsInv (s.setThread n (some r') c) := by
  have hlt := h.lt_count hr
  have hother : ∀ m, m ≠ n → (s.setThread n (some r') c).control m = s.control m ∧
      (s.setThread n (some r') c).records m = s.records m := fun m hm =>
    ⟨Function.update_of_ne hm .., Function.update_of_ne hm ..⟩
  -- no other thread has the id
  have hnew : ∀ m, m ≠ n → c.pos.alive = true → (s.control m).pos.alive = true →
      (s.control m).tid ≠ c.tid := by
    intro m hm hc hmalive heq
    rcases htid hc with ⟨hn, htid⟩ | hfree
    · exact hm (h.distinct m n hmalive hn (heq.trans htid))
    · refine hfree.2.2 m ?_ hmalive heq
      by_contra hle
      rw [(h.fresh m (not_lt.mp hle)).2] at hmalive
      cases hmalive
  refine ⟨fun m hm => ?_, fun m q hq => ?_, fun m hm => ?_, fun m k hm hk heq => ?_,
    fun m hm => ?_, h.start, h.index⟩
  · have hmn : m ≠ n := fun heq => by
      rw [heq] at hm
      exact absurd hm (not_le.mpr hlt)
    rw [(hother m hmn).1, (hother m hmn).2]
    exact h.fresh m hm
  · by_cases hmn : m = n
    · subst hmn
      obtain rfl : r' = q := by simpa using hq
      simpa using hrec
    · rw [(hother m hmn).2] at hq
      rw [(hother m hmn).1]
      exact h.record m q hq
  · by_cases hmn : m = n
    · simp [hmn]
    · rw [(hother m hmn).1] at hm
      rw [(hother m hmn).2]
      exact h.alive m hm
  · by_cases hmn : m = n
    · by_cases hkn : k = n
      · rw [hmn, hkn]
      · subst hmn
        rw [(hother k hkn).1] at hk heq
        rw [ThreadSystem.setThread_control_self] at hm heq
        exact absurd heq.symm (hnew k hkn hm hk)
    · rw [(hother m hmn).1] at hm heq
      by_cases hkn : k = n
      · subst hkn
        rw [ThreadSystem.setThread_control_self] at hk heq
        exact absurd heq (hnew m hmn hk hm)
      · rw [(hother k hkn).1] at hk heq
        exact h.distinct m k hm hk heq
  · by_cases hmn : m = n
    · subst hmn
      rw [ThreadSystem.setThread_control_self] at hm ⊢
      rcases htid hm with ⟨hn, htid⟩ | hfree
      · rw [htid]
        exact h.foreign m hn
      · exact ⟨hfree.1, hfree.2.1⟩
    · rw [(hother m hmn).1] at hm ⊢
      exact h.foreign m hm

/-- A step that leaves the array alone. -/
lemma ThreadInv.setThread (h : ThreadInv s) (hr : s.records n = some r) (hrec : RecordInv n r' c)
    (htid : c.pos.alive = true →
      ((s.control n).pos.alive = true ∧ c.tid = (s.control n).tid) ∨ s.Free c.tid)
    (hproc : c.pos.inProc = (s.control n).pos.inProc)
    (hsysid : c.pos.inProc = true → r'.sysid = r.sysid) :
    ThreadInv (s.setThread n (some r') c) := by
  obtain ⟨l, hl⟩ := h.registered
  refine ⟨h.toRecordsInv.setThread hr hrec htid, ⟨l, hl.congr rfl (fun m => ?_) fun m hm => ?_⟩,
    h.size, h.clashes⟩
  · by_cases hmn : m = n
    · rw [hmn, ThreadSystem.setThread_control_self, hproc]
    · exact congrArg (fun c : ThreadControl Val => c.pos.inProc) (Function.update_of_ne hmn ..)
  · by_cases hmn : m = n
    · subst hmn
      simp only [ThreadSystem.sysid, ThreadSystem.setThread_records_self, hr, Option.elim]
      exact hsysid (hproc.trans hm)
    · exact congrArg (fun r : Option (ThreadInternal Val) => r.elim 0 ThreadInternal.sysid)
        (Function.update_of_ne hmn ..)

lemma ThreadSystem.setThread_sysid (hr : s.records n = some r) (p : ThreadPtr) :
    (s.setThread n (some r) c).sysid p = s.sysid p := by
  cases p with
  | main | query => rfl
  | record m =>
      have hrec : (s.setThread n (some r) c).records = s.records := by
        rw [ThreadSystem.setThread, ← hr]
        exact Function.update_eq_self ..
      rw [ThreadSystem.sysid, ThreadSystem.sysid, hrec]

/-- The members after a thread has entered or left its procedure. -/
lemma ThreadSystem.setThread_inProc (m : ℕ) :
    ((s.setThread n (some r) c).control m).pos.inProc = true ↔
      m = n ∧ c.pos.inProc = true ∨ m ≠ n ∧ (s.control m).pos.inProc = true := by
  by_cases hmn : m = n
  · simp [hmn]
  · rw [show (s.setThread n (some r) c).control m = s.control m from Function.update_of_ne hmn ..]
    simp [hmn]

/-- Before the procedure: the thread enters the array, and replaces no other. -/
lemma ThreadInv.register (h : ThreadInv s) (hr : s.records n = some r)
    (hpos : (s.control n).pos = .identified) (hsize : s.threads.size + 1 < 2 ^ 32) :
    ∃ s', threadRegister s n r = some s' ∧ ThreadInv s' := by
  obtain ⟨l, hl⟩ := h.registered
  have hhas : (s.control n).pos.hasSysid = true := by rw [hpos]; rfl
  have hlen : s.threads.size = l.length := hl.1.holds.size_eq
  -- the thread is not in the array yet, so nothing compares equal
  have hnew : ∀ p ∈ l, threadComparator s (.record n) p ≠ 0 := by
    intro p hp heq
    obtain rfl := h.eq_of_comparator hl hhas hp heq
    obtain ⟨m, hm, hin⟩ := (hl.2 _).mp hp
    rw [← ThreadPtr.record.inj hm, hpos] at hin
    cases hin
  obtain ⟨a', l', out, hadd, hsorted, -, hspec⟩ :=
    hl.1.add (isComparator_thread s) (by omega) (.record n) true
  have hrec := h.record n r hr
  have hrec' : RecordInv n r { s.control n with pos := .registered } :=
    ⟨hrec.id, by rw [hrec.isrunning, hpos]; rfl, by rw [hrec.retval, hpos]; rfl,
      fun _ => hrec.sysid hhas, fun _ => hrec.thread (ThreadPos.alive_of_hasSysid hhas),
      fun _ => rfl⟩
  have hbase := h.toRecordsInv.setThread hr hrec' fun _ =>
    .inl ⟨ThreadPos.alive_of_hasSysid hhas, rfl⟩
  rw [threadRegister, if_pos hsize, hadd]
  refine ⟨_, rfl, ⟨hbase.1, hbase.2, hbase.3, hbase.4, hbase.5, hbase.6, hbase.7⟩,
    ⟨l', .of_sortedBy hsorted rfl rfl rfl (fun p => ?_) fun p _ => ?_⟩, ?_, ?_⟩
  · cases hspec with
    | replace pre post y hlist hzero => exact absurd hzero (hnew y (by simp [hlist]))
    | insert pre post hlist _ =>
        have hmem : p ∈ pre ++ .record n :: post ↔ p = .record n ∨ p ∈ l := by
          simp [hlist, or_left_comm]
        rw [hmem, hl.2]
        constructor
        · rintro (rfl | ⟨m, rfl, hm⟩)
          · exact ⟨n, rfl, (ThreadSystem.setThread_inProc (r := r) n).mpr (.inl ⟨rfl, rfl⟩)⟩
          · refine ⟨m, rfl, (ThreadSystem.setThread_inProc (r := r) m).mpr ?_⟩
            by_cases hmn : m = n
            · exact .inl ⟨hmn, rfl⟩
            · exact .inr ⟨hmn, hm⟩
        · rintro ⟨m, rfl, hm⟩
          rcases (ThreadSystem.setThread_inProc (r := r) m).mp hm with ⟨rfl, -⟩ | ⟨-, hm⟩
          · exact .inl rfl
          · exact .inr ⟨m, rfl, hm⟩
  · exact ThreadSystem.setThread_sysid (c := { s.control n with pos := .registered }) hr p
  · cases hspec with
    | replace pre post y hlist hzero => exact absurd hzero (hnew y (by simp [hlist]))
    | insert pre post hlist _ =>
        have hsize' : a'.size = (pre ++ ThreadPtr.record n :: post).length :=
          hsorted.holds.size_eq
        have : l.length = pre.length + post.length := by simp [hlist]
        simp only [hsize', List.length_append, List.length_cons]
        omega
  · cases hspec with
    | replace pre post y hlist hzero => exact absurd hzero (hnew y (by simp [hlist]))
    | insert pre post hlist _ => simpa using h.clashes

/-- After the procedure: the thread leaves the array, and takes no other with it. -/
lemma ThreadInv.unregister (h : ThreadInv s) (hr : s.records n = some r)
    (hpos : (s.control n).pos = .returned v) :
    ∃ s', threadUnregister s n r v = some s' ∧ ThreadInv s' := by
  obtain ⟨l, hl⟩ := h.registered
  have hhas : (s.control n).pos.hasSysid = true := by rw [hpos]; rfl
  have hlen : s.threads.size = l.length := hl.1.holds.size_eq
  have hself : .record n ∈ l := (hl.2 _).mpr ⟨n, rfl, by rw [hpos]; rfl⟩
  obtain ⟨a', l', out, hrm, hsorted, -, hspec⟩ :=
    hl.1.remove (isComparator_thread s) (hlen ▸ h.size) (.record n)
  have hrec := h.record n r hr
  have hrec' : RecordInv n r { s.control n with pos := .unregistered v } :=
    ⟨hrec.id, by rw [hrec.isrunning, hpos]; rfl, by rw [hrec.retval, hpos]; rfl,
      fun _ => hrec.sysid hhas, fun _ => hrec.thread (ThreadPos.alive_of_hasSysid hhas),
      fun _ => rfl⟩
  have hbase := h.toRecordsInv.setThread hr hrec' fun _ =>
    .inl ⟨ThreadPos.alive_of_hasSysid hhas, rfl⟩
  rw [threadUnregister, hrm]
  refine ⟨_, rfl, ⟨hbase.1, hbase.2, hbase.3, hbase.4, hbase.5, hbase.6, hbase.7⟩,
    ⟨l', .of_sortedBy hsorted rfl rfl rfl (fun p => ?_) fun p _ => ?_⟩, ?_, h.clashes⟩
  · cases hspec with
    | miss hne => exact absurd (threadComparator_eq_zero.mpr rfl) (hne _ hself)
    | hit pre post y hlist hzero =>
        obtain rfl := h.eq_of_comparator hl hhas (by simp [hlist]) hzero
        have hnodup := hl.1.sorted.nodup (isComparator_thread s)
        rw [hlist] at hnodup
        have hgone : ThreadPtr.record n ∉ pre ++ post :=
          (List.nodup_middle.mp hnodup).notMem
        have hmem : p ∈ pre ++ post ↔ p ≠ .record n ∧ p ∈ l := by
          rw [hlist]
          constructor
          · exact fun hp => ⟨fun heq => hgone (heq ▸ hp), by
              rcases List.mem_append.mp hp with hp | hp <;> simp [hp]⟩
          · rintro ⟨hne, hp⟩
            simpa [hne] using hp
        rw [hmem, hl.2]
        constructor
        · rintro ⟨hne, m, rfl, hm⟩
          refine ⟨m, rfl, (ThreadSystem.setThread_inProc (r := r) m).mpr (.inr ⟨fun hmn => ?_, hm⟩)⟩
          exact hne (hmn ▸ rfl)
        · rintro ⟨m, rfl, hm⟩
          rcases (ThreadSystem.setThread_inProc (r := r) m).mp hm with ⟨-, hin⟩ | ⟨hmn, hm⟩
          · cases hin
          · exact ⟨fun heq => hmn (ThreadPtr.record.inj heq), m, rfl, hm⟩
  · exact ThreadSystem.setThread_sysid (c := { s.control n with pos := .unregistered v }) hr p
  · have hsize := h.size
    have hsize' : a'.size = l'.length := hsorted.holds.size_eq
    have hle : l'.length ≤ l.length := by
      cases hspec with
      | miss => exact le_rfl
      | hit pre post y hlist _ => simp [hlist]
    simp only [hsize']
    omega

/-- A record is made or freed whose thread does not run. -/
lemma ThreadInv.of_others (h : ThreadInv s) (hthreads : s'.threads = s.threads)
    (hclashes : s'.clashes = s.clashes) (hmain : s'.mainSysid = s.mainSysid)
    (hother : ∀ m, m ≠ n → s'.control m = s.control m ∧ s'.records m = s.records m)
    (hproc : (s.control n).pos.inProc = false) (hdead : (s'.control n).pos.alive = false)
    (hrec : ∀ q, s'.records n = some q → RecordInv n q (s'.control n))
    (hcount : s.count ≤ s'.count) (hfresh : s'.count ≤ n → s'.records n = none)
    (hstart : s'.count = 0 → s'.threadIndex = 0)
    (hindex : ∀ m, s'.count = m + 1 → s'.threadIndex = threadNumber m) : ThreadInv s' := by
  have halive : ∀ m, (s'.control m).pos.alive = true →
      m ≠ n ∧ (s.control m).pos.alive = true := by
    intro m hm
    by_cases hmn : m = n
    · rw [hmn, hdead] at hm
      cases hm
    · exact ⟨hmn, (hother m hmn).1 ▸ hm⟩
  obtain ⟨l, hl⟩ := h.registered
  refine ⟨⟨fun m hm => ?_, fun m q hq => ?_, fun m hm => ?_, fun m k hm hk heq => ?_,
    fun m hm => ?_, hstart, hindex⟩, ⟨l, hl.congr hthreads (fun m => ?_) fun m hm => ?_⟩,
    hthreads ▸ h.size, hclashes.trans h.clashes⟩
  · by_cases hmn : m = n
    · subst hmn
      exact ⟨hfresh hm, hdead⟩
    · rw [(hother m hmn).1, (hother m hmn).2]
      exact h.fresh m (hcount.trans hm)
  · by_cases hmn : m = n
    · subst hmn
      exact hrec q hq
    · rw [(hother m hmn).2] at hq
      rw [(hother m hmn).1]
      exact h.record m q hq
  · obtain ⟨hmn, hm⟩ := halive m hm
    rw [(hother m hmn).2]
    exact h.alive m hm
  · obtain ⟨hmn, hm⟩ := halive m hm
    obtain ⟨hkn, hk⟩ := halive k hk
    rw [(hother m hmn).1, (hother k hkn).1] at heq
    exact h.distinct m k hm hk heq
  · obtain ⟨hmn, hm⟩ := halive m hm
    rw [(hother m hmn).1, hmain]
    exact h.foreign m hm
  · by_cases hmn : m = n
    · subst hmn
      rw [hproc]
      by_contra hin
      rw [ThreadPos.alive_of_hasSysid
        (ThreadPos.hasSysid_of_inProc (Bool.not_eq_false _ ▸ hin))] at hdead
      cases hdead
    · rw [(hother m hmn).1]
  · have hmn : m ≠ n := fun hmn => by
      rw [hmn, hproc] at hm
      cases hm
    rw [ThreadSystem.sysid, ThreadSystem.sysid, (hother m hmn).2]

/-- A record is freed. -/
lemma ThreadInv.joined (h : ThreadInv s) (hproc : (s.control n).pos.inProc = false) (tid : ℕ) :
    ThreadInv (s.setThread n none ⟨.joined, tid, false⟩) := by
  have hself : (s.setThread n none ⟨.joined, tid, false⟩).control n = ⟨.joined, tid, false⟩ :=
    Function.update_self ..
  refine h.of_others rfl rfl rfl
    (fun m hm => ⟨Function.update_of_ne hm .., Function.update_of_ne hm ..⟩) hproc
    (by rw [hself]; rfl) (fun q hq => ?_) le_rfl (fun _ => ThreadSystem.setThread_records_self)
    h.start h.index
  rw [ThreadSystem.setThread_records_self] at hq
  cases hq

/-- The new record has the next id. -/
lemma ThreadInv.create (h : ThreadInv s) : ThreadInv (threadCreateInternal s) := by
  have hindex : (if s.threadIndex = 2 ^ 32 - 1 then 0 else s.threadIndex) + 1 =
      threadNumber s.count := by
    cases hcount : s.count with
    | zero => rw [h.start hcount]; rfl
    | succ n =>
        rw [h.index n hcount]
        exact threadNumber_succ n
  have hself : (threadCreateInternal s).control s.count = ⟨.unstarted, 0, false⟩ :=
    Function.update_self ..
  have hnot : (s.control s.count).pos.inProc = false := by
    by_contra hin
    have := ThreadPos.alive_of_hasSysid
      (ThreadPos.hasSysid_of_inProc (Bool.not_eq_false _ ▸ hin))
    rw [(h.fresh _ le_rfl).2] at this
    cases this
  refine h.of_others rfl rfl rfl
    (fun m hm => ⟨Function.update_of_ne hm .., Function.update_of_ne hm ..⟩) hnot
    (by rw [hself]; rfl) (fun q hq => ?_) (Nat.le_succ _)
    (fun hle => absurd hle (Nat.not_succ_le_self _)) (fun hzero => absurd hzero (Nat.succ_ne_zero _))
    fun m hm => ?_
  · obtain rfl := Option.some.inj ((show (threadCreateInternal s).records s.count = some _ from
      Function.update_self ..).symm.trans hq)
    rw [hself]
    exact ⟨hindex, rfl, rfl, nofun, nofun, nofun⟩
  · obtain rfl : s.count = m := Nat.succ.inj hm
    exact hindex

lemma ThreadInv.procStep (h : ThreadInv s) (hr : s.records n = some r) {a : ThreadAct Val}
    (hs : threadProcStep s n r a (s.control n).pos = some s') : ThreadInv s' := by
  have hrec := h.record n r hr
  cases hpos : (s.control n).pos with
  | unstarted | finished | joined => rw [hpos] at hs; cases a <;> cases hs
  | spawned =>
      have halive : (s.control n).pos.alive = true := by rw [hpos]; rfl
      rw [hpos] at hs
      cases a with
      | setRunning =>
          obtain rfl := Option.some.inj hs
          refine h.setThread hr ⟨hrec.id, rfl, ?_, nofun,
            fun _ => hrec.thread halive, fun _ => rfl⟩ (fun _ => .inl ⟨halive, rfl⟩)
            (by rw [hpos]; rfl) nofun
          rw [hrec.retval, hpos]
          rfl
      | _ => cases hs
  | running =>
      have halive : (s.control n).pos.alive = true := by rw [hpos]; rfl
      rw [hpos] at hs
      cases a with
      | setSysid =>
          obtain rfl := Option.some.inj hs
          refine h.setThread hr ⟨hrec.id, ?_, ?_, fun _ => rfl, fun _ => hrec.thread halive,
            fun _ => rfl⟩ (fun _ => .inl ⟨halive, rfl⟩) (by rw [hpos]; rfl) nofun
          · rw [hrec.isrunning, hpos]
            rfl
          · rw [hrec.retval, hpos]
            rfl
      | _ => cases hs
  | identified =>
      rw [hpos] at hs
      cases a with
      | register =>
          have hsize : s.threads.size + 1 < 2 ^ 32 := by
            by_contra hsize
            rw [threadProcStep, threadRegister, if_neg hsize] at hs
            cases hs
          obtain ⟨s₁, hs₁, hinv⟩ := h.register hr hpos hsize
          rw [threadProcStep, hs₁] at hs
          exact Option.some.inj hs ▸ hinv
      | _ => cases hs
  | registered =>
      have halive : (s.control n).pos.alive = true := by rw [hpos]; rfl
      have hhas : (s.control n).pos.hasSysid = true := by rw [hpos]; rfl
      rw [hpos] at hs
      cases a with
      | ret =>
          obtain rfl := Option.some.inj hs
          refine h.setThread hr ⟨hrec.id, ?_, rfl, fun _ => hrec.sysid hhas,
            fun _ => hrec.thread halive, fun _ => rfl⟩ (fun _ => .inl ⟨halive, rfl⟩)
            (by rw [hpos]; rfl) fun _ => rfl
          rw [hrec.isrunning, hpos]
          rfl
      | _ => cases hs
  | returned v =>
      rw [hpos] at hs
      cases a with
      | unregister =>
          obtain ⟨s₁, hs₁, hinv⟩ := h.unregister hr hpos
          rw [threadProcStep, hs₁] at hs
          exact Option.some.inj hs ▸ hinv
      | _ => cases hs
  | unregistered v =>
      have halive : (s.control n).pos.alive = true := by rw [hpos]; rfl
      have hhas : (s.control n).pos.hasSysid = true := by rw [hpos]; rfl
      rw [hpos] at hs
      cases a with
      | finish =>
          obtain rfl := Option.some.inj hs
          refine h.setThread hr ⟨hrec.id, rfl, ?_, fun _ => hrec.sysid hhas,
            fun _ => hrec.thread halive, fun _ => rfl⟩ (fun _ => .inl ⟨halive, rfl⟩)
            (by rw [hpos]; rfl) nofun
          rw [hrec.retval, hpos]
          rfl
      | _ => cases hs

/-- A join is of a thread that ended, or of one that was never started. -/
lemma ThreadInv.join_outcome (h : ThreadInv s) {res : Option Val}
    (hs : threadJoin s n = some (s', res)) :
    ThreadInv s' ∧ s'.records n = none ∧ ((s.control n).pos = .finished res ∨
      (s.control n).pos.alive = false ∧ res = none) := by
  obtain ⟨r, hr, hs⟩ := Option.bind_eq_some_iff.mp hs
  have hrec := h.record n r hr
  dsimp only at hs
  by_cases hthread : r.thread ≠ 0
  · rw [if_pos hthread] at hs
    split at hs
    · next v hpos =>
        split_ifs at hs
        obtain ⟨rfl, rfl⟩ := Prod.mk.inj (Option.some.inj hs)
        refine ⟨h.joined (by rw [hpos]; rfl) _, ThreadSystem.setThread_records_self, .inl ?_⟩
        rw [hrec.retval, hpos]
        rfl
    · cases hs
  · rw [if_neg hthread] at hs
    split_ifs at hs with halive
    obtain ⟨rfl, rfl⟩ := Prod.mk.inj (Option.some.inj hs)
    refine ⟨h.joined ?_ _, ThreadSystem.setThread_records_self, .inr ⟨halive, rfl⟩⟩
    by_contra hin
    rw [ThreadPos.alive_of_hasSysid (ThreadPos.hasSysid_of_inProc (Bool.not_eq_false _ ▸ hin))]
      at halive
    cases halive

/-- Every step keeps the invariant. -/
lemma ThreadInv.step {a : ThreadAct Val} (h : ThreadInv s) (hs : threadStep s a = some s') :
    ThreadInv s' := by
  cases a with
  | create => exact Option.some.inj hs ▸ h.create
  | start n tid =>
      obtain ⟨r, hr, hs⟩ := Option.bind_eq_some_iff.mp hs
      have hrec := h.record n r hr
      split at hs
      · next hpos =>
          split_ifs at hs with hfree
          obtain rfl := Option.some.inj hs
          exact h.setThread hr ⟨hrec.id, by rw [hrec.isrunning, hpos]; rfl,
            by rw [hrec.retval, hpos]; rfl, nofun, nofun, fun _ => rfl⟩ (fun _ => .inr hfree)
            (by rw [hpos]; rfl) nofun
      · cases hs
  | startFailed n handle =>
      obtain ⟨r, hr, hs⟩ := Option.bind_eq_some_iff.mp hs
      have hrec := h.record n r hr
      split at hs
      · next hpos =>
          have hdead : (s.control n).pos.alive = false := by rw [hpos]; rfl
          obtain rfl := Option.some.inj hs
          refine h.setThread hr ⟨hrec.id, hrec.isrunning, hrec.retval, fun hc => ?_,
            fun hc => ?_, hrec.starting⟩ (fun hc => ?_) rfl fun hc => ?_
          · exact absurd (ThreadPos.alive_of_hasSysid hc) (by simp [hdead])
          · exact absurd hc (by simp [hdead])
          · exact absurd hc (by simp [hdead])
          · exact absurd (ThreadPos.alive_of_hasSysid (ThreadPos.hasSysid_of_inProc hc))
              (by simp [hdead])
      · cases hs
  | startReturn n =>
      obtain ⟨r, hr, hs⟩ := Option.bind_eq_some_iff.mp hs
      have hrec := h.record n r hr
      dsimp only at hs
      split_ifs at hs with hstarting
      obtain rfl := Option.some.inj hs
      -- the value that is written is the one that the thread wrote
      exact h.setThread hr ⟨hrec.id, hrec.isrunning, hrec.retval, fun _ => rfl, fun _ _ => rfl,
        nofun⟩ (fun hc => .inl ⟨hc, rfl⟩) rfl
        fun hc => (hrec.sysid (ThreadPos.hasSysid_of_inProc hc)).symm
  | join n =>
      obtain ⟨⟨s₁, res⟩, hjoin, rfl⟩ := Option.map_eq_some_iff.mp hs
      exact (h.join_outcome hjoin).1
  | setRunning n | setSysid n | register n | ret n v | unregister n | finish n =>
      obtain ⟨r, hr, hs⟩ := Option.bind_eq_some_iff.mp hs
      exact h.procStep hr hs

lemma threadInit_inv (mainSysid : ℕ) : ThreadInv (threadInit mainSysid : ThreadSystem Val) where
  fresh _ _ := ⟨rfl, rfl⟩
  record _ _ h := nomatch h
  alive _ h := nomatch h
  distinct _ _ h := nomatch h
  foreign _ h := nomatch h
  start _ := rfl
  index _ h := nomatch h
  registered := ⟨[], SortedBy.create 10 _ false, fun p => by simp [threadInit, ThreadPos.inProc]⟩
  size := show 0 < 2 ^ 32 by decide
  clashes := rfl

lemma threadSystem_inv {mainSysid : ℕ} (h : (threadSystem mainSysid).Reachable s) : ThreadInv s :=
  h.invariant (fun _ hs => hs ▸ threadInit_inv mainSysid) fun _ _ _ hinv hs => hinv.step hs

/-! ### A thread finds itself -/

/-- The search in the array. -/
lemma ThreadInv.find (h : ThreadInv s) (caller : ℕ) :
    ∃ r, arrayFind s.registry (.query caller) = some r ∧
      ((∃ n i, r = some (.record n, i) ∧ (s.control n).pos.inProc = true ∧
          (s.control n).tid = caller) ∨
        r = none ∧ ∀ n, (s.control n).pos.inProc = true → (s.control n).tid ≠ caller) := by
  obtain ⟨l, hl⟩ := h.registered
  have hlen : s.threads.size = l.length := hl.1.holds.size_eq
  obtain ⟨r, hr, hspec⟩ := hl.1.find (isComparator_thread s) (hlen ▸ h.size) (.query caller)
  refine ⟨r, hr, ?_⟩
  cases hspec with
  | hit pre post y hlist hzero =>
      obtain ⟨n, rfl, hn⟩ := (hl.2 y).mp (by simp [hlist])
      refine .inl ⟨n, _, rfl, hn, ?_⟩
      rw [← h.sysid_record (ThreadPos.hasSysid_of_inProc hn)]
      exact (threadComparator_eq_zero.mp hzero).symm
  | miss hne =>
      refine .inr ⟨rfl, fun n hn heq => hne (.record n) ((hl.2 _).mpr ⟨n, rfl, hn⟩) ?_⟩
      rw [threadComparator_eq_zero, h.sysid_record (ThreadPos.hasSysid_of_inProc hn), heq]
      rfl

/-- The threads in their procedure have different ids. -/
lemma ThreadInv.inProc_inj (h : ThreadInv s) {m : ℕ} (hn : (s.control n).pos.inProc = true)
    (hm : (s.control m).pos.inProc = true) (heq : (s.control n).tid = (s.control m).tid) :
    n = m :=
  h.distinct n m (ThreadPos.alive_of_hasSysid (ThreadPos.hasSysid_of_inProc hn))
    (ThreadPos.alive_of_hasSysid (ThreadPos.hasSysid_of_inProc hm)) heq

end Steps

section Results

variable {mainSysid : ℕ} {s : ThreadSystem Val}

/-- **Each thread finds itself**: whatever the order in which threads are created, started, run
and joined, the array holds the records of the threads that are in their procedure and no freed
one, in the order of their ids, and adding a thread never finds another with its id. A thread in
its procedure gets its own record and the number it was created with, any other caller nothing
and zero. The two locked sections always go through. The join of a thread that ended returns what
its procedure returned, and no join returns earlier. -/
theorem thread_registry (h : (threadSystem mainSysid).Reachable s) :
    (s.clashes = 0 ∧ ∃ l, Holds s.threads l ∧ (l.map s.sysid).Pairwise (· < ·) ∧
      ∀ p, p ∈ l ↔ ∃ n r, p = .record n ∧ s.records n = some r ∧
        (s.control n).pos.inProc = true) ∧
    (∀ n, (s.control n).pos.inProc = true →
      threadSelf s (s.control n).tid = some (some (.record n)) ∧
        threadSelfId s (s.control n).tid = some (threadNumber n)) ∧
    (∀ caller, (∀ n, (s.control n).pos.inProc = true → (s.control n).tid ≠ caller) →
      threadSelf s caller = some (if caller = s.mainSysid then some .main else none) ∧
        threadSelfId s caller = some 0) ∧
    (∀ n, (s.control n).pos = .identified → s.threads.size + 1 < 2 ^ 32 →
      (threadStep s (.register n)).isSome) ∧
    (∀ n v, (s.control n).pos = .returned v → (threadStep s (.unregister n)).isSome) ∧
    (∀ n v, (s.control n).pos = .finished v → (s.control n).starting = false →
      ∃ s', threadJoin s n = some (s', v) ∧ s'.records n = none) ∧
    (∀ n s' v, threadJoin s n = some (s', v) →
      (s.control n).pos = .finished v ∨ (s.control n).pos.alive = false ∧ v = none) ∧
    (∀ n running, threadIsRunning s n = some running →
      running = (s.control n).pos.isrunning) := by
  have hinv := threadSystem_inv h
  obtain ⟨l, hl⟩ := hinv.registered
  have hsome : ∀ n, (s.control n).pos.alive = true → ∃ r, s.records n = some r := fun n hn =>
    Option.isSome_iff_exists.mp (hinv.alive n hn)
  refine ⟨⟨hinv.clashes, l, ⟨hl.1.holds.prefix_data, hl.1.holds.size_eq⟩, ?_, fun p => ?_⟩,
    fun n hn => ?_, fun caller hnone => ?_, fun n hpos hsize => ?_, fun n v hpos => ?_,
    fun n v hpos hstarted => ?_,
    fun n s' v hjoin => (hinv.join_outcome hjoin).2.2, fun n running hrunning => ?_⟩
  · rw [List.pairwise_map]
    exact hl.1.sorted.imp threadComparator_neg.mp
  · rw [hl.2]
    constructor
    · rintro ⟨n, rfl, hn⟩
      obtain ⟨r, hr⟩ := hsome n (ThreadPos.alive_of_hasSysid (ThreadPos.hasSysid_of_inProc hn))
      exact ⟨n, r, rfl, hr, hn⟩
    · rintro ⟨n, _, rfl, _, hn⟩
      exact ⟨n, rfl, hn⟩
  · have halive := ThreadPos.alive_of_hasSysid (ThreadPos.hasSysid_of_inProc hn)
    obtain ⟨r, hr⟩ := hsome n halive
    obtain ⟨found, hfind, ⟨m, i, rfl, hm, htid⟩ | ⟨_, hne⟩⟩ := hinv.find (s.control n).tid
    · obtain rfl := hinv.inProc_inj hm hn htid
      rw [threadSelf, if_neg (hinv.foreign m halive).2, threadSelfId, hfind]
      refine ⟨rfl, ?_⟩
      simp [ThreadSystem.id, hr, (hinv.record m r hr).id]
    · exact absurd rfl (hne n hn)
  · obtain ⟨found, hfind, ⟨m, i, rfl, hm, htid⟩ | ⟨rfl, _⟩⟩ := hinv.find caller
    · exact absurd htid (hnone m hm)
    · rw [threadSelf, threadSelfId, hfind]
      split_ifs <;> exact ⟨rfl, rfl⟩
  · obtain ⟨r, hr⟩ := hsome n (by rw [hpos]; rfl)
    obtain ⟨s', hs', -⟩ := hinv.register hr hpos hsize
    simp [threadStep, hr, hpos, threadProcStep, hs']
  · obtain ⟨r, hr⟩ := hsome n (by rw [hpos]; rfl)
    obtain ⟨s', hs', -⟩ := hinv.unregister hr hpos
    simp [threadStep, hr, hpos, threadProcStep, hs']
  · have halive : (s.control n).pos.alive = true := by rw [hpos]; rfl
    obtain ⟨r, hr⟩ := hsome n halive
    have hrec := hinv.record n r hr
    have hthread := hrec.thread halive hstarted
    have hne : r.thread ≠ 0 := hthread ▸ (hinv.foreign n halive).1
    have hretval : r.retval = v := by rw [hrec.retval, hpos]; rfl
    refine ⟨s.setThread n none ⟨.joined, (s.control n).tid, false⟩, ?_,
      ThreadSystem.setThread_records_self⟩
    simp only [threadJoin, hr, Option.bind_some, if_pos hne, hpos]
    rw [if_pos ⟨hstarted, hthread⟩, hretval]
  · obtain ⟨r, hr, rfl⟩ := Option.map_eq_some_iff.mp hrunning
    exact (hinv.record n r hr).isrunning

/-- Two threads; the second is in its procedure before the first has entered. -/
def twoThreads : List (ThreadAct ℕ) :=
  [.create, .create, .start 0 20, .start 1 10, .startReturn 1, .setRunning 1, .setSysid 1,
    .register 1, .setRunning 0, .setSysid 0, .register 0, .startReturn 0, .ret 1 (some 7),
    .unregister 1, .finish 1]

theorem thread_registry_twoThreads :
    ∃ s : ThreadSystem ℕ, (threadSystem 5).run (threadInit 5) twoThreads = some s ∧
      threadSelf s 20 = some (some (.record 0)) ∧ threadSelfId s 20 = some 1 ∧
      ∃ s', threadJoin s 1 = some (s', some 7) ∧ s'.records 1 = none := by
  obtain ⟨s, hrun⟩ := Option.isSome_iff_exists.mp
    (show ((threadSystem 5).run (threadInit 5) twoThreads).isSome from rfl)
  have hat : ∀ {β : Type} (f : ThreadSystem ℕ → β),
      ((threadSystem 5).run (threadInit 5) twoThreads).map f = some (f s) := fun f => by
    rw [hrun, Option.map_some]
  obtain ⟨-, hself, -, -, -, hjoin, -, -⟩ := thread_registry (.run (.start rfl) hrun)
  have htid : (s.control 0).tid = 20 := (Option.some.inj (hat fun s => (s.control 0).tid)).symm
  have hfirst := hself 0 (Option.some.inj (hat fun s => (s.control 0).pos.inProc)).symm
  rw [htid] at hfirst
  exact ⟨s, hrun, hfirst.1, hfirst.2, hjoin 1 (some 7)
    (Option.some.inj (hat fun s => (s.control 1).pos)).symm
    (Option.some.inj (hat fun s => (s.control 1).starting)).symm⟩

end Results

end LibCmutils
