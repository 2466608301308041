import LibCmutils.Memory.Soundness
import Mathlib.Algebra.BigOperators.Group.List.Basic
import Mathlib.Algebra.Ring.Nat

/-!
What the recycling allocator knows of the bytes in use.

* `memDebugClear`: the report of `CMUTIL_MemDebugClear`, one line for each class that is
  not empty. `MemRcyAccounted`: `usedsize` and the totals of the report are the bytes of
  the live blocks.
* `MemRcyState.gap`: by how much `usedsize` is off. `MemRcyInv.gap_step`: a step widens it
  by the bytes it gives up, since `CMUTIL_MemRcyFree` leaves `usedsize` alone.
* `memRcy_accounted_iff`: the runs in which the counters are right.
-/

namespace LibCmutils

/-- A line of the report with the sizes that are listed below it. -/
structure MemLeak where
  index : ℕ
  count : ℤ
  total : UInt64
  sizes : List ℕ
  deriving DecidableEq

/-- What `CMUTIL_MemDebugClear` logs and returns before it releases everything. The sizes
are listed in the mode `CMMemDebug`. -/
def memDebugClear (debug : Bool) (s : MemRcy) : List MemLeak × Bool :=
  let lines := (List.range memBlockSz).filterMap fun i =>
    let list := s.blocks i
    if 0 < list.used.length then
      some { index := i, count := list.cnt - list.avlcnt, total := list.usedsize,
             sizes := if debug then list.used.map fun p => ((s.heap p).map MemNode.size).getD 0
               else [] }
    else none
  (lines, lines.isEmpty)

/-- A block of class `i` that the program holds. -/
def MemRcyState.LiveIn (s : MemRcyState) (i p : ℕ) : Prop :=
  (s.live p).isSome ∧ (s.mem.heap p).map MemNode.index = some i

/-- `total` is the sum of the sizes that were requested for the live blocks of class `i`. -/
def MemRcyState.Holds (s : MemRcyState) (i : ℕ) (total : UInt64) : Prop :=
  ∃ blocks : List ℕ, blocks.Nodup ∧ (∀ p, p ∈ blocks ↔ s.LiveIn i p) ∧
    total = UInt64.ofNat (blocks.map fun p => (s.live p).getD 0).sum

/-- The counters of all classes are right, and so are the totals of the report. -/
structure MemRcyAccounted (s : MemRcyState) : Prop where
  usedsize : ∀ i, s.Holds i (s.mem.blocks i).usedsize
  report : ∀ debug, ∀ line ∈ (memDebugClear debug s.mem).1, s.Holds line.index line.total

/-- The block that an action gives up: it is freed, or moves to another class. -/
def MemRcyAct.givesUp (s : MemRcyState) : MemRcyAct → Option ℕ
  | .free ptr => ptr
  | .realloc (some p) size fresh =>
      let nidx := memRcyIndex size
      if (s.mem.heap p).map MemNode.index ≠ some nidx ∧ nidx < memBlockSz ∧
          ((s.mem.blocks nidx).head.isSome ∨ fresh.isSome) then some p
      else none
  | _ => none

/-- No live bytes are given up. -/
def MemRcyAct.Keeps (s : MemRcyState) (a : MemRcyAct) : Prop :=
  ∀ p n, a.givesUp s = some p → s.live p = some n → n = 0

/-! ### The bytes of a class -/

/-- The bytes of the live blocks of class `i`. -/
def MemRcyState.bytes (s : MemRcyState) (i : ℕ) : ℕ :=
  ((s.mem.blocks i).used.map fun p => (s.live p).getD 0).sum

/-- What `usedsize` of class `i` counts too much. -/
def MemRcyState.gap (s : MemRcyState) (i : ℕ) : UInt64 :=
  (s.mem.blocks i).usedsize - UInt64.ofNat (s.bytes i)

/-- The bytes of class `i` that an action gives up. -/
def MemRcyAct.lost (s : MemRcyState) (a : MemRcyAct) (i : ℕ) : ℕ :=
  (a.givesUp s).elim 0 fun p =>
    if (s.mem.heap p).map MemNode.index = some i then (s.live p).getD 0 else 0

namespace MemRcyInv

variable {s s' : MemRcyState} {free : ℕ → List ℕ} {i j n p size : ℕ} {node : MemNode}
  {m : MemRcy} {total : UInt64} {fresh : Option (ℕ × List UInt8)}

/-- The array of a class has its live blocks. -/
lemma mem_used_iff (h : MemRcyInv s free) : p ∈ (s.mem.blocks i).used ↔ s.LiveIn i p := by
  constructor
  · intro hp
    obtain ⟨node, n, hnode, hlive, hh⟩ := (h.lists i).held p hp
    simp [MemRcyState.LiveIn, hnode, hlive, hh.index]
  · rintro ⟨hlive, hidx⟩
    obtain ⟨n, hn⟩ := Option.isSome_iff_exists.mp hlive
    obtain ⟨node, hnode, -, -, hu⟩ := h.live_block hn
    rw [hnode, Option.map_some, Option.some.injEq] at hidx
    exact hidx ▸ hu

lemma holds_iff (h : MemRcyInv s free) : s.Holds i total ↔ total = UInt64.ofNat (s.bytes i) := by
  have hnd := (List.nodup_append'.mp (h.lists i).nodup).1
  constructor
  · rintro ⟨blocks, hblocks, hmem, rfl⟩
    have hperm : blocks.Perm (s.mem.blocks i).used :=
      (List.perm_ext_iff_of_nodup hblocks hnd).mpr fun p => by rw [hmem, h.mem_used_iff]
    rw [(hperm.map _).sum_eq, MemRcyState.bytes]
  · rintro rfl
    exact ⟨_, hnd, fun p => h.mem_used_iff, rfl⟩

/-- The counters are right when no class counts too much. -/
lemma accounted_iff (h : MemRcyInv s free) : MemRcyAccounted s ↔ ∀ i, s.gap i = 0 := by
  have hgap : ∀ i, s.gap i = 0 ↔ s.Holds i (s.mem.blocks i).usedsize := fun i => by
    rw [h.holds_iff, MemRcyState.gap]
    constructor <;> intro heq <;> grind
  constructor
  · exact fun hs i => (hgap i).mpr (hs.usedsize i)
  · intro hs
    refine ⟨fun i => (hgap i).mp (hs i), fun debug line hline => ?_⟩
    simp only [memDebugClear, List.mem_filterMap, Option.ite_none_right_eq_some,
      Option.some.injEq] at hline
    obtain ⟨i, -, -, rfl⟩ := hline
    exact (hgap i).mp (hs i)

/-! ### The operations -/

/-- The sum over blocks does not see another block. -/
lemma sum_update_of_notMem {used : List ℕ} {live : ℕ → Option ℕ} (hp : p ∉ used) (v : Option ℕ) :
    (used.map fun q => (Function.update live p v q).getD 0).sum =
      (used.map fun q => (live q).getD 0).sum := by
  congr 1
  refine List.map_congr_left fun q hq => ?_
  rw [Function.update_of_ne (ne_of_mem_of_not_mem hq hp)]

lemma notMem_used (h : MemRcyInv s free) (hp : s.live p = none) (i : ℕ) :
    p ∉ (s.mem.blocks i).used := by
  rw [h.mem_used_iff, MemRcyState.LiveIn, hp]
  simp

/-- What `CMUTIL_MemRcyAlloc` does to the classes. -/
lemma alloc_blocks {mem : MemRcy} (heq : memRcyAlloc mem fresh size = (m, some p)) :
    ∃ list, m.blocks = Function.update mem.blocks (memRcyIndex size) list ∧
      list.used = memUsedAdd (mem.blocks (memRcyIndex size)).used p ∧
      list.usedsize = (mem.blocks (memRcyIndex size)).usedsize + UInt64.ofNat size := by
  by_cases hbig : memBlockSz ≤ memRcyIndex size
  · simp [memRcyAlloc, hbig] at heq
  cases hhead : (mem.blocks (memRcyIndex size)).head with
  | some node =>
      simp only [memRcyAlloc, if_neg hbig, hhead, Prod.mk.injEq, Option.some.injEq] at heq
      obtain ⟨rfl, rfl⟩ := heq
      exact ⟨_, rfl, rfl, rfl⟩
  | none =>
      cases fresh with
      | none => simp [memRcyAlloc, hbig, hhead] at heq
      | some r =>
          simp only [memRcyAlloc, if_neg hbig, hhead, Prod.mk.injEq, Option.some.injEq] at heq
          obtain ⟨rfl, rfl⟩ := heq
          exact ⟨_, rfl, rfl, rfl⟩

/-- A block that is handed out is counted. -/
lemma gap_alloc (h : MemRcyInv s free) (heq : memRcyAlloc s.mem fresh size = (m, some p))
    (hp : s.live p = none) (j : ℕ) :
    MemRcyState.gap { mem := m, live := Function.update s.live p (some size) } j = s.gap j := by
  obtain ⟨list, hblocks, hused, hsize⟩ := alloc_blocks heq
  have hout := h.notMem_used hp
  unfold MemRcyState.gap MemRcyState.bytes
  rw [hblocks]
  by_cases hj : j = memRcyIndex size
  · subst hj
    simp only [Function.update_self, hused, hsize]
    rw [((memUsedAdd_perm (hout _)).map _).sum_eq, List.map_cons, List.sum_cons,
      sum_update_of_notMem (hout _), Function.update_self, Option.getD_some, UInt64.ofNat_add]
    grind
  · simp only [Function.update_of_ne hj]
    rw [sum_update_of_notMem (hout j)]

/-- The answer to a request for bytes. -/
lemma gap_answer (h : MemRcyInv s free) (hfresh : MallocOk s.mem size fresh) (bytes : List UInt8)
    (j : ℕ) :
    (s.gain (memRcyAlloc s.mem fresh size) size).gap j = s.gap j ∧
    (s.gain (match memRcyAlloc s.mem fresh size with
      | (m, none) => (m, none)
      | (m, some res) => (m.fill res bytes, some res)) size).gap j = s.gap j := by
  rcases h.alloc hfresh with heq | ⟨m, q, free', heq, hidle, -, -⟩
  · rw [heq]
    exact ⟨rfl, rfl⟩
  · rw [heq]
    exact ⟨h.gap_alloc heq hidle j, h.gap_alloc heq hidle j⟩

/-- A block that is freed is still counted. -/
lemma gap_free (h : MemRcyInv s free) (hp : s.live p = some n) (hnode : s.mem.heap p = some node)
    (j : ℕ) :
    MemRcyState.gap
        { mem := memRcyFree s.mem (some p), live := Function.update s.live p none } j =
      s.gap j + UInt64.ofNat (if node.index = j then n else 0) := by
  obtain ⟨node', hnode', hh, hlt, hu⟩ := h.live_block hp
  obtain rfl : node = node' := Option.some.inj (hnode.symm.trans hnode')
  have hfree : (memRcyFree s.mem (some p)).blocks = Function.update s.mem.blocks node.index
      { s.mem.blocks node.index with
        used := (s.mem.blocks node.index).used.erase p, head := some p,
        avlcnt := (s.mem.blocks node.index).avlcnt + 1 } := by
    simp only [memRcyFree, hnode, if_neg (not_le.mpr hlt), not_not.mpr hu, if_false,
      hh.checkFlow, Bool.not_true, Bool.false_eq_true, MemRcy.setList, MemRcy.setNode]
  unfold MemRcyState.gap MemRcyState.bytes
  rw [hfree]
  by_cases hj : node.index = j
  · subst hj
    have hnd := (List.nodup_append'.mp (h.lists node.index).nodup).1
    have hsum := ((List.perm_cons_erase hu).map fun q => (s.live q).getD 0).sum_eq
    rw [List.map_cons, List.sum_cons, hp, Option.getD_some] at hsum
    simp only [Function.update_self, if_true]
    rw [sum_update_of_notMem hnd.not_mem_erase, hsum, UInt64.ofNat_add]
    grind
  · have hout : p ∉ (s.mem.blocks j).used := fun hm =>
      hj (h.class_unique (List.mem_append_left _ hu) (List.mem_append_left _ hm))
    simp only [Function.update_of_ne (Ne.symm hj), if_neg hj]
    rw [sum_update_of_notMem hout]
    grind

/-- Allocation succeeds when the class has a free block, or `malloc` gives one. -/
lemma alloc_isSome (mem : MemRcy) (fresh : Option (ℕ × List UInt8))
    (hlt : memRcyIndex size < memBlockSz) :
    (memRcyAlloc mem fresh size).2.isSome =
      ((mem.blocks (memRcyIndex size)).head.isSome || fresh.isSome) := by
  cases hhead : (mem.blocks (memRcyIndex size)).head with
  | some node => simp [memRcyAlloc, not_le.mpr hlt, hhead]
  | none => cases fresh <;> simp [memRcyAlloc, not_le.mpr hlt, hhead]

/-- A block that takes another size is counted with it, except that the old block of a
move is still counted. -/
lemma gap_realloc (h : MemRcyInv s free) (hp : s.live p = some n)
    (hfresh : MallocOk s.mem size fresh) (j : ℕ) :
    ((if (memRcyRealloc s.mem fresh (some p) size).2.isSome then s.lose (some p) else s).gain
        (memRcyRealloc s.mem fresh (some p) size) size).gap j =
      s.gap j + UInt64.ofNat ((MemRcyAct.realloc (some p) size fresh).lost s j) := by
  obtain ⟨node, hnode, hh, hlt, hu⟩ := h.live_block hp
  have hnone : MemRcyAct.givesUp s (.realloc (some p) size fresh) = none →
      (MemRcyAct.realloc (some p) size fresh).lost s j = 0 := fun hg => by
    rw [MemRcyAct.lost, hg, Option.elim_none]
  have hreq := h.realloc_eq hp hnode size fresh
  by_cases hbig : memBlockSz ≤ memRcyIndex size
  · rw [if_pos hbig] at hreq
    rw [hreq, hnone (by simp [MemRcyAct.givesUp, hbig])]
    exact (UInt64.add_zero _).symm
  rw [if_neg hbig] at hreq
  by_cases hclass : node.index = memRcyIndex size
  · -- the counter moves by the difference of the sizes
    rw [if_pos hclass] at hreq
    rw [hreq, hnone (by simp [MemRcyAct.givesUp, hnode, hclass])]
    have hnd := (List.nodup_append'.mp (h.lists node.index).nodup).1
    simp only [MemRcyState.gain, MemRcyState.lose, MemRcyState.gap, MemRcyState.bytes,
      MemRcy.setList, MemRcy.setNode, Option.isSome_some, if_true, Option.elim_some,
      Function.update_idem]
    by_cases hj : j = node.index
    · subst hj
      have hperm := List.perm_cons_erase hu
      have hsum := (hperm.map fun q => (s.live q).getD 0).sum_eq
      have hsum' := (hperm.map fun q => (Function.update s.live p (some size) q).getD 0).sum_eq
      rw [List.map_cons, List.sum_cons, hp, Option.getD_some] at hsum
      rw [List.map_cons, List.sum_cons, Function.update_self, Option.getD_some,
        sum_update_of_notMem hnd.not_mem_erase] at hsum'
      rw [Function.update_self, hsum, hsum', hh.size, UInt64.ofNat_add, UInt64.ofNat_add]
      grind
    · have hout : p ∉ (s.mem.blocks j).used := fun hm =>
        hj (h.class_unique (List.mem_append_left _ hm) (List.mem_append_left _ hu))
      rw [Function.update_of_ne hj, sum_update_of_notMem hout]
      exact (UInt64.add_zero _).symm
  · -- the new block is counted, and the old one still is
    rw [if_neg hclass] at hreq
    have hsome := alloc_isSome s.mem fresh (not_le.mp hbig)
    rcases h.alloc hfresh with heq | ⟨m, q, free', heq, hidle, hsame, hinv⟩
    · rw [heq, Option.elim_none] at hreq
      rw [heq] at hsome
      rw [hreq, hnone (by simpa [MemRcyAct.givesUp, hnode, hclass, not_le.mp hbig] using hsome)]
      exact (UInt64.add_zero _).symm
    · rw [heq, Option.elim_some] at hreq
      rw [heq] at hsome
      have hqp : q ≠ p := by
        rintro rfl
        rw [hp] at hidle
        cases hidle
      have hlost : (MemRcyAct.realloc (some p) size fresh).lost s j =
          if node.index = j then n else 0 := by
        have hg : MemRcyAct.givesUp s (.realloc (some p) size fresh) = some p := by
          have hor : (s.mem.blocks (memRcyIndex size)).head.isSome ∨ fresh.isSome := by
            simpa using hsome
          simp only [MemRcyAct.givesUp, hnode, Option.map_some, ne_eq, Option.some.injEq, hclass,
            not_false_eq_true, not_le.mp hbig, hor, and_self, if_true]
        rw [MemRcyAct.lost, hg, Option.elim_some, hnode, hp]
        simp
      have hp' : Function.update s.live q (some size) p = some n := by
        rw [Function.update_of_ne hqp.symm, hp]
      have hfits : ((m.heap p).elim [] fun n => n.data.take (min size n.size)).length ≤ size := by
        rw [hsame p hqp.symm, hnode, Option.elim_some, List.length_take]
        omega
      have hfill := hinv.fill (Function.update_self ..) hfits
      obtain ⟨qnode, hqnode, -⟩ := hinv.live_block (p := q) (Function.update_self ..)
      have hnode' : (m.fill q ((m.heap p).elim [] fun n =>
          n.data.take (min size n.size))).heap p = some node := by
        rw [MemRcy.fill, mapNode_eq hqnode]
        simp only [Function.update_of_ne hqp.symm, hsame p hqp.symm, hnode]
      have hfree := hfill.gap_free hp' hnode' j
      rw [hlost, hreq, ← h.gap_alloc heq hidle j]
      simp only [MemRcyState.gain, MemRcyState.lose, Option.isSome_some, if_true,
        Option.elim_some]
      rw [Function.update_comm hqp.symm]
      exact hfree

/-- **What a step loses.** The gap of a class widens by the live bytes that are given up. -/
lemma gap_step (h : MemRcyInv s free) (a : MemRcyAct) (hs : memRcyStep s a = some s') (j : ℕ) :
    s'.gap j = s.gap j + UInt64.ofNat (a.lost s j) := by
  cases a with
  | alloc size fresh =>
      simp only [memRcyStep, Option.ite_none_right_eq_some, Option.some.injEq] at hs
      obtain ⟨hfresh, rfl⟩ := hs
      exact (h.gap_answer hfresh [] j).1.trans (UInt64.add_zero _).symm
  | calloc nmem size fresh =>
      simp only [memRcyStep, Option.ite_none_right_eq_some, Option.some.injEq] at hs
      obtain ⟨hfresh, rfl⟩ := hs
      refine Eq.trans ?_ (UInt64.add_zero _).symm
      unfold memRcyCalloc
      split
      · rfl
      · exact (h.gap_answer hfresh _ j).2
  | strdup str fresh =>
      simp only [memRcyStep, Option.ite_none_right_eq_some, Option.some.injEq] at hs
      obtain ⟨hfresh, rfl⟩ := hs
      refine Eq.trans ?_ (UInt64.add_zero _).symm
      cases str with
      | none => rfl
      | some str => exact (h.gap_answer hfresh _ j).2
  | realloc ptr size fresh =>
      simp only [memRcyStep, Option.ite_none_right_eq_some, Option.some.injEq] at hs
      obtain ⟨⟨hfresh, hlive⟩, rfl⟩ := hs
      cases ptr with
      | none =>
          have hsame : (if (memRcyRealloc s.mem fresh none size).2.isSome then s.lose none else s) =
              s := by split <;> rfl
          rw [hsame]
          exact (h.gap_answer hfresh [] j).1.trans (UInt64.add_zero _).symm
      | some p =>
          obtain ⟨n, hp⟩ := Option.isSome_iff_exists.mp hlive
          exact h.gap_realloc hp hfresh j
  | free ptr =>
      simp only [memRcyStep, Option.ite_none_right_eq_some, Option.some.injEq] at hs
      obtain ⟨-, rfl⟩ := hs
      cases ptr with
      | none => exact (UInt64.add_zero _).symm
      | some p =>
          cases hp : s.live p with
          | some n =>
              obtain ⟨node, hnode, -⟩ := h.live_block hp
              have hgap := h.gap_free hp hnode j
              have hlost : (MemRcyAct.free (some p)).lost s j =
                  if node.index = j then n else 0 := by
                simp [MemRcyAct.lost, MemRcyAct.givesUp, hnode, hp]
              rw [hlost]
              exact hgap
          | none =>
              have hsame : Function.update s.live p none = s.live := by
                rw [← hp, Function.update_eq_self]
              simp only [MemRcyState.lose, Option.elim_some, hsame, h.free_idle hp]
              simp [MemRcyAct.lost, MemRcyAct.givesUp, hp]
  | write ptr offset byte =>
      simp only [memRcyStep] at hs
      split at hs
      next => cases hs
      next size hp =>
        simp only [Option.ite_none_right_eq_some, Option.some.injEq] at hs
        obtain ⟨-, rfl⟩ := hs
        exact (UInt64.add_zero _).symm

/-- A step that gives up live bytes loses them in some class. -/
lemma keeps_iff (h : MemRcyInv s free) (a : MemRcyAct) :
    a.Keeps s ↔ ∀ j, UInt64.ofNat (a.lost s j) = 0 := by
  unfold MemRcyAct.Keeps MemRcyAct.lost
  cases hg : a.givesUp s with
  | none => simp
  | some p =>
      simp only [Option.some.injEq, Option.elim_some]
      cases hp : s.live p with
      | none =>
          refine iff_of_true ?_ fun j => by simp
          rintro p' n rfl hn
          rw [hp] at hn
          cases hn
      | some n =>
          obtain ⟨node, hnode, hh, hlt, -⟩ := h.live_block hp
          have hbound : n < 2 ^ 64 :=
            lt_of_le_of_lt hh.fits (Nat.pow_lt_pow_right (by decide) (by
              have : memBlockSz = 45 := rfl
              omega))
          have hzero : UInt64.ofNat n = 0 ↔ n = 0 := by
            rw [← UInt64.toNat_inj, UInt64.toNat_ofNat_of_lt' hbound]
            rfl
          simp only [hnode, Option.map_some, Option.some.injEq, Option.getD_some]
          constructor
          · intro hk j
            rw [hk p n rfl hp]
            simp
          · rintro hj p' n' rfl hp'
            obtain rfl : n = n' := Option.some.inj (hp.symm.trans hp')
            have := hj node.index
            rwa [if_pos rfl, hzero] at this

end MemRcyInv

/-! ### Runs -/

/-- The state after `CMUTIL_MemRcyInit`. -/
def memRcyStart : MemRcyState where
  mem := memRcyInit
  live := fun _ => none

lemma memRcyStart_accounted : MemRcyAccounted memRcyStart :=
  MemRcyInv.start.accounted_iff.mpr fun _ => by
    simp [MemRcyState.gap, MemRcyState.bytes, memRcyInit]

/-- **The leak account.** The counters are right in every state of a run exactly when no
step of it gives up live bytes: what is freed or moved is counted on. -/
theorem memRcy_accounted_iff (actions : List MemRcyAct) (s : MemRcyState)
    (hrun : memRcySystem.run memRcyStart actions = some s) :
    memRcySystem.Throughout MemRcyAccounted memRcyStart actions ↔
      memRcySystem.Meets (fun s a => a.Keeps s) memRcyStart actions := by
  have hgood : ∀ s, memRcySystem.ReachableBy (fun s a => a.Keeps s) s → MemRcyAccounted s := by
    intro s h
    refine (h.invariant (P := fun s => (∃ free, MemRcyInv s free) ∧ MemRcyAccounted s) ?_ ?_).2
    · rintro s rfl
      exact ⟨⟨_, MemRcyInv.start⟩, memRcyStart_accounted⟩
    · rintro s a s' ⟨⟨free, hinv⟩, hacc⟩ hkeep hs
      obtain ⟨free', hinv'⟩ := memRcyStep_inv a hinv hs
      refine ⟨⟨free', hinv'⟩, hinv'.accounted_iff.mpr fun j => ?_⟩
      rw [hinv.gap_step a hs j, hinv.accounted_iff.mp hacc j, (hinv.keeps_iff a).mp hkeep j]
      rfl
  refine TransitionSystem.throughout_iff_meets rfl hgood ?_ hrun
  intro s a s' h hs hkeep hacc
  obtain ⟨free, hinv⟩ := memRcy_inv h.reachable
  obtain ⟨free', hinv'⟩ := memRcyStep_inv a hinv hs
  refine hkeep ((hinv.keeps_iff a).mpr fun j => ?_)
  have hgap := hinv.gap_step a hs j
  rw [hinv.accounted_iff.mp (hgood s h) j, hinv'.accounted_iff.mp hacc j] at hgap
  exact (hgap.trans (UInt64.zero_add _)).symm

/-- A block that grows in its class is counted right. -/
theorem memRcy_accounted_iff_grow :
    ∃ s, memRcySystem.run memRcyStart
        [.alloc 5 (some (0, List.replicate 9 7)), .realloc (some 0) 7 none] = some s ∧
      (memDebugClear true s.mem).1 = [⟨3, 1, 7, [7]⟩] ∧ MemRcyAccounted s := by
  have hfirst := Option.some_get (show (memRcySystem.run memRcyStart
    [.alloc 5 (some (0, List.replicate 9 7))]).isSome from by decide)
  have hrun := Option.some_get (show (memRcySystem.run memRcyStart
    [.alloc 5 (some (0, List.replicate 9 7)), .realloc (some 0) 7 none]).isSome from by decide)
  have hstart := TransitionSystem.meets_concat (C := fun s a => a.Keeps s)
    (a := .alloc 5 (some (0, List.replicate 9 7))) (show memRcySystem.run memRcyStart [] = some _
      from rfl)
  refine ⟨_, hrun.symm, by decide, (memRcy_accounted_iff _ _ hrun.symm).mpr ?_ _ _
    List.prefix_rfl hrun.symm⟩
  refine (TransitionSystem.meets_concat hfirst.symm).mpr
    ⟨hstart.mpr ⟨?_, ?_⟩, ?_⟩
  · intro pre a s hpre
    exact absurd (List.prefix_nil.mp hpre) (by simp)
  · intro p n hg
    cases hg
  · intro p n hg
    revert hg
    rw [show MemRcyAct.givesUp _ (.realloc (some 0) 7 none) = none from by decide]
    nofun

/-- Two blocks of a class are taken and one is freed: the report says 16 bytes. -/
theorem memRcy_leak_overstated :
    ∃ s, memRcySystem.run memRcyStart
        [.alloc 8 (some (0, List.replicate 9 7)), .alloc 8 (some (1, List.replicate 9 7)),
          .free (some 0)] = some s ∧
      (memDebugClear false s.mem).1 = [⟨3, 1, 16, []⟩] ∧ s.live 0 = none ∧ s.live 1 = some 8 ∧
      ¬ MemRcyAccounted s := by
  have hrun := Option.some_get (show (memRcySystem.run memRcyStart
    [.alloc 8 (some (0, List.replicate 9 7)), .alloc 8 (some (1, List.replicate 9 7)),
      .free (some 0)]).isSome from by decide)
  refine ⟨_, hrun.symm, by decide, by decide, by decide, fun hacc => ?_⟩
  obtain ⟨free, hinv⟩ := memRcy_inv (.run (.start rfl) hrun.symm)
  exact absurd (hinv.accounted_iff.mp hacc 3) (by decide)

/-- **The count of leaks** in a line of the report is right in every state. -/
theorem memDebugClear_count (s : MemRcyState) (h : memRcySystem.Reachable s) (debug : Bool) :
    ∀ line ∈ (memDebugClear debug s.mem).1,
      line.count = (s.mem.blocks line.index).used.length := by
  obtain ⟨free, hinv⟩ := memRcy_inv h
  intro line hline
  simp only [memDebugClear, List.mem_filterMap, Option.ite_none_right_eq_some,
    Option.some.injEq] at hline
  obtain ⟨i, -, -, rfl⟩ := hline
  have hcnt := (hinv.lists i).cnt
  show (s.mem.blocks i).cnt - (s.mem.blocks i).avlcnt = (s.mem.blocks i).used.length
  omega

end LibCmutils
