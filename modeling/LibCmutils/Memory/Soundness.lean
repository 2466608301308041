import LibCmutils.Memory.Invariant

/-!
What holds in every state of the recycling allocator.

* `MemRcyState.Answer`: the answer to a request for bytes. `MemRcyInv.realloc`: a block
  takes another size where it is, or moves.
* `memRcy_inv`: every step keeps the invariant, hence every run.
* `memRcy_sound`: the classes are counted right, live blocks have room, no live block is
  handed out, and a block is freed once.
-/

namespace LibCmutils

/-- The answer `r` to a request of `size` bytes: `NULL` and nothing changed, or a block
that was not live. -/
def MemRcyState.Answer (s : MemRcyState) (size : ℕ) (r : MemRcy × Option ℕ) : Prop :=
  r = (s.mem, none) ∨ ∃ m q free, r = (m, some q) ∧ s.live q = none ∧
    MemRcyInv { mem := m, live := Function.update s.live q (some size) } free

namespace MemRcyState.Answer

variable {s : MemRcyState} {size : ℕ} {r : MemRcy × Option ℕ} {free : ℕ → List ℕ}

/-- The program gets what it asked for. -/
lemma gain (h : s.Answer size r) (hinv : MemRcyInv s free) :
    ∃ free', MemRcyInv (s.gain r size) free' := by
  rcases h with rfl | ⟨m, q, free', rfl, -, hinv'⟩
  · exact ⟨free, hinv⟩
  · exact ⟨free', hinv'⟩

lemma idle (h : s.Answer size r) {q : ℕ} (hq : r.2 = some q) : s.live q = none := by
  rcases h with rfl | ⟨m, q', free', rfl, hidle, -⟩
  · cases hq
  · obtain rfl : q' = q := Option.some.inj hq
    exact hidle

end MemRcyState.Answer

namespace MemRcyInv

variable {s : MemRcyState} {free : ℕ → List ℕ} {n p size : ℕ} {fresh : Option (ℕ × List UInt8)}

lemma answer_alloc (h : MemRcyInv s free) (hfresh : MallocOk s.mem size fresh) :
    s.Answer size (memRcyAlloc s.mem fresh size) := by
  rcases h.alloc hfresh with heq | ⟨m, q, free', heq, hidle, -, hinv⟩
  · exact .inl heq
  · exact .inr ⟨m, q, free', heq, hidle, hinv⟩

/-- A block that is filled right after it was handed out. -/
lemma answer_fill (h : MemRcyInv s free) (hfresh : MallocOk s.mem size fresh)
    {bytes : List UInt8} (hb : bytes.length ≤ size) :
    s.Answer size (match memRcyAlloc s.mem fresh size with
      | (m, none) => (m, none)
      | (m, some res) => (m.fill res bytes, some res)) := by
  rcases h.alloc hfresh with heq | ⟨m, q, free', heq, hidle, -, hinv⟩
  · rw [heq]
    exact .inl rfl
  · rw [heq]
    exact .inr ⟨_, q, free', rfl, hidle, hinv.fill (Function.update_self ..) hb⟩

lemma answer_calloc {nmem : ℕ} (h : MemRcyInv s free)
    (hfresh : MallocOk s.mem (nmem * size) fresh) :
    s.Answer (nmem * size) (memRcyCalloc s.mem fresh nmem size) := by
  unfold memRcyCalloc
  split
  · exact .inl rfl
  · exact h.answer_fill hfresh (by simp)

lemma answer_strdup {str : Option (List UInt8)} (h : MemRcyInv s free)
    (hfresh : MallocOk s.mem ((str.getD []).length + 1) fresh) :
    s.Answer ((str.getD []).length + 1) (memRcyStrdup s.mem fresh str) := by
  cases str with
  | none => exact .inl rfl
  | some str => exact h.answer_fill hfresh (by simp)

/-- What `CMUTIL_MemRcyRealloc` computes for a live block: nothing for a size without a
class, the block itself in its class, and a move otherwise. -/
lemma realloc_eq (h : MemRcyInv s free) (hp : s.live p = some n) {node : MemNode}
    (hnode : s.mem.heap p = some node) (size : ℕ) (fresh : Option (ℕ × List UInt8)) :
    memRcyRealloc s.mem fresh (some p) size =
      if memBlockSz ≤ memRcyIndex size then (s.mem, none)
      else if node.index = memRcyIndex size then
        ((s.mem.setList node.index { s.mem.blocks node.index with
            usedsize := (s.mem.blocks node.index).usedsize +
              (UInt64.ofNat size - UInt64.ofNat node.size) }).setNode p
          { node with size := size, data := node.data.set size 0xFF }, some p)
      else (memRcyAlloc s.mem fresh size).2.elim ((memRcyAlloc s.mem fresh size).1, none) fun q =>
        (memRcyFree ((memRcyAlloc s.mem fresh size).1.fill q
          (((memRcyAlloc s.mem fresh size).1.heap p).elim [] fun n => n.data.take (min size n.size)))
          (some p), some q) := by
  obtain ⟨node', hnode', hh, hlt, -⟩ := h.live_block hp
  obtain rfl : node = node' := Option.some.inj (hnode.symm.trans hnode')
  simp only [memRcyRealloc, hnode, if_neg (not_le.mpr hlt), hh.checkFlow, Bool.not_true,
    Bool.false_eq_true, if_false]
  split_ifs with hbig hclass
  · rfl
  · rw [hclass]
  · cases heq : memRcyAlloc s.mem fresh size with
    | mk m r => cases r <;> rfl

/-- **Reallocation** of a live block fails and changes nothing, or gives the block or one
that was not live, with the bytes that fit in both. -/
lemma realloc (h : MemRcyInv s free) (hp : s.live p = some n)
    (hfresh : MallocOk s.mem size fresh) :
    memRcyRealloc s.mem fresh (some p) size = (s.mem, none) ∨
    ∃ m q free', memRcyRealloc s.mem fresh (some p) size = (m, some q) ∧
      (q = p ∨ s.live q = none) ∧
      MemRcyInv
        { mem := m, live := Function.update (Function.update s.live p none) q (some size) } free' ∧
      (m.heap q).map (fun node => node.data.take (min n size)) =
        (s.mem.heap p).map fun node => node.data.take (min n size) := by
  obtain ⟨node, hnode, hh, hlt, hu⟩ := h.live_block hp
  have hroom := le_two_pow_memRcyIndex size
  by_cases hbig : memBlockSz ≤ memRcyIndex size
  · exact .inl (by rw [h.realloc_eq hp hnode size fresh, if_pos hbig])
  by_cases hclass : node.index = memRcyIndex size
  · -- the class stays, and so does the block
    have hl := (h.lists node.index).rewrite hu (hh.toInClass.resize hh.flag (hclass ▸ hroom))
      ((s.mem.blocks node.index).usedsize + (UInt64.ofNat size - UInt64.ofNat node.size))
    have hrep := h.replace hlt (.inr (List.mem_append_left _ hu)) hl (List.mem_append_left _ hu)
      fun q hq => hq
    have hreq := h.realloc_eq hp hnode size fresh
    rw [if_neg hbig, if_pos hclass] at hreq
    refine .inr ⟨_, p, Function.update free node.index (free node.index), hreq, .inl rfl, ?_, ?_⟩
    · rw [Function.update_idem]
      exact hrep
    · simp only [MemRcy.setNode, Function.update_self, hnode, Option.map_some]
      rw [List.take_set_of_le (min_le_right n size)]
  · -- a block of the other class, the bytes, and the old block is freed
    have hreq := h.realloc_eq hp hnode size fresh
    rw [if_neg hbig, if_neg hclass] at hreq
    rcases h.alloc hfresh with heq | ⟨m, q, free₁, heq, hidle, hsame, hinv⟩
    · exact .inl (by rw [hreq, heq, Option.elim_none])
    have hqp : q ≠ p := by
      rintro rfl
      rw [hp] at hidle
      cases hidle
    have hbytes : (m.heap p).elim [] (fun n => n.data.take (min size n.size)) =
        node.data.take (min size n) := by
      rw [hsame p hqp.symm, hnode, Option.elim_some, hh.size]
    have hlen : (node.data.take (min size n)).length = min n size := by
      have := hh.room
      have := hh.fits
      rw [List.length_take]
      omega
    have hfits : (node.data.take (min size n)).length ≤ size := by omega
    have hfill := hinv.fill (Function.update_self ..) hfits
    have hp' : Function.update s.live q (some size) p = some n := by
      rw [Function.update_of_ne hqp.symm, hp]
    obtain ⟨free', hfree, hkeep⟩ := hfill.free_live hp'
    have hres : memRcyRealloc s.mem fresh (some p) size =
        (memRcyFree (m.fill q (node.data.take (min size n))) (some p), some q) := by
      rw [hreq, heq, Option.elim_some, ← hbytes]
    refine .inr ⟨_, q, free', hres, .inr hidle, ?_, ?_⟩
    · rw [Function.update_comm hqp.symm]
      exact hfree
    · obtain ⟨qnode, hqnode, -⟩ := hinv.live_block (p := q) (Function.update_self ..)
      rw [hkeep q hqp, MemRcy.fill, mapNode_eq hqnode]
      simp only [Function.update_self, hnode, Option.map_some]
      rw [List.take_left' hlen, min_comm size n]

end MemRcyInv

/-! ### Runs -/

/-- One step keeps the invariant. -/
lemma memRcyStep_inv {s s' : MemRcyState} {free : ℕ → List ℕ} (a : MemRcyAct)
    (h : MemRcyInv s free) (hs : memRcyStep s a = some s') : ∃ free', MemRcyInv s' free' := by
  cases a with
  | alloc size fresh =>
      simp only [memRcyStep, Option.ite_none_right_eq_some, Option.some.injEq] at hs
      obtain ⟨hfresh, rfl⟩ := hs
      exact (h.answer_alloc hfresh).gain h
  | calloc nmem size fresh =>
      simp only [memRcyStep, Option.ite_none_right_eq_some, Option.some.injEq] at hs
      obtain ⟨hfresh, rfl⟩ := hs
      exact (h.answer_calloc hfresh).gain h
  | strdup str fresh =>
      simp only [memRcyStep, Option.ite_none_right_eq_some, Option.some.injEq] at hs
      obtain ⟨hfresh, rfl⟩ := hs
      exact (h.answer_strdup hfresh).gain h
  | realloc ptr size fresh =>
      simp only [memRcyStep, Option.ite_none_right_eq_some, Option.some.injEq] at hs
      obtain ⟨⟨hfresh, hlive⟩, rfl⟩ := hs
      cases ptr with
      | none =>
          have hanswer := h.answer_alloc hfresh
          have hsame : (if (memRcyRealloc s.mem fresh none size).2.isSome then s.lose none else s) =
              s := by split <;> rfl
          rw [hsame]
          exact hanswer.gain h
      | some p =>
          obtain ⟨n, hp⟩ := Option.isSome_iff_exists.mp hlive
          rcases h.realloc hp hfresh with heq | ⟨m, q, free', heq, -, hinv, -⟩
          · rw [heq]
            exact ⟨free, h⟩
          · rw [heq]
            exact ⟨free', hinv⟩
  | free ptr =>
      simp only [memRcyStep, Option.ite_none_right_eq_some, Option.some.injEq] at hs
      obtain ⟨-, rfl⟩ := hs
      cases ptr with
      | none => exact ⟨free, h⟩
      | some p =>
          cases hp : s.live p with
          | some n =>
              obtain ⟨free', hinv, -⟩ := h.free_live hp
              exact ⟨free', hinv⟩
          | none =>
              refine ⟨free, ?_⟩
              have hsame : Function.update s.live p none = s.live := by
                rw [← hp, Function.update_eq_self]
              simp only [MemRcyState.lose, Option.elim_some, hsame, h.free_idle hp]
              exact h
  | write ptr offset byte =>
      simp only [memRcyStep] at hs
      split at hs
      next => cases hs
      next size hp =>
        simp only [Option.ite_none_right_eq_some, Option.some.injEq] at hs
        obtain ⟨ho, rfl⟩ := hs
        exact ⟨free, h.rewrite hp fun _ _ _ hh => hh.write ho byte⟩

lemma memRcy_inv {s : MemRcyState} (h : memRcySystem.Reachable s) : ∃ free, MemRcyInv s free := by
  refine h.invariant (P := fun s => ∃ free, MemRcyInv s free) ?_ ?_
  · rintro s rfl
    exact ⟨_, MemRcyInv.start⟩
  · intro s a s' ⟨free, hinv⟩ hs
    exact memRcyStep_inv a hinv hs

/-- **What a program may rely on.** -/
structure MemRcySound (s : MemRcyState) : Prop where
  /-- The blocks of a class are in use or on its free list, once, and counted. -/
  classes : ∀ i, ∃ free,
    Linked (fun p => (s.mem.heap p).bind MemNode.next) (s.mem.blocks i).head free ∧
    (s.mem.blocks i).used.Nodup ∧ free.Nodup ∧ (s.mem.blocks i).used.Disjoint free ∧
    (s.mem.blocks i).avlcnt = free.length ∧
    (s.mem.blocks i).cnt = (s.mem.blocks i).used.length + (s.mem.blocks i).avlcnt
  /-- A live block is in use in one class, on no free list, and has room. -/
  live : ∀ p n, s.live p = some n → (∃! i, p ∈ (s.mem.blocks i).used) ∧
    (∀ i free, Linked (fun p => (s.mem.heap p).bind MemNode.next) (s.mem.blocks i).head free →
      p ∉ free) ∧
    ∃ node, s.mem.heap p = some node ∧ node.size = n ∧ n + 1 ≤ node.data.length
  /-- What is handed out was not live. -/
  alloc : ∀ size fresh p, MallocOk s.mem size fresh →
    (memRcyAlloc s.mem fresh size).2 = some p → s.live p = none
  calloc : ∀ nmem size fresh p, MallocOk s.mem (nmem * size) fresh →
    (memRcyCalloc s.mem fresh nmem size).2 = some p → s.live p = none
  strdup : ∀ str fresh p, MallocOk s.mem ((str.getD []).length + 1) fresh →
    (memRcyStrdup s.mem fresh str).2 = some p → s.live p = none
  realloc : ∀ ptr size fresh q, MallocOk s.mem size fresh → (∀ p, ptr = some p → s.live p ≠ none) →
    (memRcyRealloc s.mem fresh ptr size).2 = some q → ptr = some q ∨ s.live q = none
  /-- The bytes that fit in both blocks are kept. -/
  realloc_keeps : ∀ p n size fresh m q, MallocOk s.mem size fresh → s.live p = some n →
    memRcyRealloc s.mem fresh (some p) size = (m, some q) →
    (m.heap q).map (fun node => node.data.take (min n size)) =
      (s.mem.heap p).map fun node => node.data.take (min n size)
  /-- A block that is not live is not freed again. -/
  free : ∀ p, s.live p = none → memRcyFree s.mem (some p) = s.mem
  free_twice : ∀ ptr, memRcyFree (memRcyFree s.mem ptr) ptr = memRcyFree s.mem ptr

lemma MemRcyInv.sound {s : MemRcyState} {free : ℕ → List ℕ} (h : MemRcyInv s free) :
    MemRcySound s where
  classes i := by
    have hnd := List.nodup_append'.mp (h.lists i).nodup
    exact ⟨free i, (h.lists i).linked, hnd.1, hnd.2.1, hnd.2.2, (h.lists i).avlcnt, (h.lists i).cnt⟩
  live p n hp := by
    obtain ⟨node, hnode, hh, -, hu⟩ := h.live_block hp
    refine ⟨⟨node.index, hu, fun j hj => ?_⟩, fun i l hl hm => ?_, node, hnode, hh.size, ?_⟩
    · exact h.class_unique (List.mem_append_left _ hj) (List.mem_append_left _ hu)
    · rw [hl.unique (h.lists i).linked] at hm
      rw [((h.lists i).idle p hm).1] at hp
      cases hp
    · rw [hh.room]
      exact Nat.succ_le_succ hh.fits
  alloc size fresh p hfresh hr := (h.answer_alloc hfresh).idle hr
  calloc nmem size fresh p hfresh hr := (h.answer_calloc hfresh).idle hr
  strdup str fresh p hfresh hr := (h.answer_strdup hfresh).idle hr
  realloc ptr size fresh q hfresh hlive hr := by
    cases ptr with
    | none => exact .inr ((h.answer_alloc hfresh).idle hr)
    | some p =>
        obtain ⟨n, hp⟩ := Option.ne_none_iff_exists'.mp (hlive p rfl)
        rcases h.realloc hp hfresh with heq | ⟨m, q', free', heq, hq, -⟩
        · rw [heq] at hr
          cases hr
        · rw [heq] at hr
          obtain rfl : q' = q := Option.some.inj hr
          exact hq.imp (fun heq => by rw [heq]) id
  realloc_keeps p n size fresh m q hfresh hp hr := by
    rcases h.realloc hp hfresh with heq | ⟨m', q', free', heq, -, -, hkeep⟩
    · rw [heq] at hr
      cases hr
    · rw [heq] at hr
      obtain ⟨rfl, hq⟩ := Prod.mk.inj hr
      obtain rfl : q' = q := Option.some.inj hq
      exact hkeep
  free p hp := h.free_idle hp
  free_twice ptr := by
    cases ptr with
    | none => rfl
    | some p =>
        cases hp : s.live p with
        | none => rw [h.free_idle hp, h.free_idle hp]
        | some n =>
            obtain ⟨free', hinv, -⟩ := h.free_live hp
            exact hinv.free_idle (Function.update_self ..)

end LibCmutils
