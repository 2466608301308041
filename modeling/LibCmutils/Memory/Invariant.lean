import LibCmutils.Memory.Recycle

/-!
The invariant of the recycling allocator.

* `MemRcyList.Inv`: what holds of one class, given the nodes `free` of its free list.
  Its lemmas take a block from the free list, put one in use, release one and push one.
* `MemRcyInv`: all classes, and no block outside of them. `MemRcyInv.replace` is the
  frame rule: an operation changes one class and one block of it.
* `MemRcyInv.alloc`, `MemRcyInv.fill`, `MemRcyInv.free_live`, `MemRcyInv.realloc`: one
  lemma for each operation. `memRcy_sound`: what holds in every reachable state.
-/

namespace LibCmutils

/-- A block of class `i`. -/
structure MemNode.InClass (node : MemNode) (i : ℕ) : Prop where
  index : node.index = i
  room : node.data.length = 2 ^ i + 1

/-- A block of class `i` that is held with `n` bytes: the guard bytes are there. -/
structure MemNode.Holds (node : MemNode) (i n : ℕ) : Prop extends node.InClass i where
  size : node.size = n
  fits : n ≤ 2 ^ i
  flag : node.flag = 0xFF
  guard : node.data[n]? = some 0xFF

namespace MemNode

variable {node : MemNode} {i n : ℕ}

lemma InClass.handOut (h : node.InClass i) (hn : n ≤ 2 ^ i) : (node.handOut n).Holds i n where
  index := h.index
  room := by simp [MemNode.handOut, h.room]
  size := rfl
  fits := hn
  flag := rfl
  guard := by
    have hlt : n < node.data.length := by have := h.room; omega
    simp [MemNode.handOut, List.getElem?_set_self hlt]

lemma Holds.checkFlow (h : node.Holds i n) : memCheckFlow node = true := by
  simp [memCheckFlow, h.flag, h.size, h.guard]

/-- Other bytes leave the guard bytes alone. -/
lemma Holds.withData (h : node.Holds i n) {data : List UInt8}
    (hlen : data.length = node.data.length) (hg : data[n]? = node.data[n]?) :
    { node with data := data }.Holds i n where
  index := h.index
  room := hlen.trans h.room
  size := h.size
  fits := h.fits
  flag := h.flag
  guard := hg.trans h.guard

/-- Bytes written to the beginning of a block. -/
lemma Holds.fill (h : node.Holds i n) {bytes : List UInt8} (hb : bytes.length ≤ n) :
    { node with data := bytes ++ node.data.drop bytes.length }.Holds i n := by
  have hroom := h.room
  have hfits := h.fits
  refine h.withData ?_ ?_
  · simp only [List.length_append, List.length_drop]
    omega
  · rw [List.getElem?_append_right hb, List.getElem?_drop]
    congr 1
    omega

/-- A byte written inside a block. -/
lemma Holds.write (h : node.Holds i n) {offset : ℕ} (ho : offset < n) (byte : UInt8) :
    { node with data := node.data.set offset byte }.Holds i n :=
  h.withData (by simp) (List.getElem?_set_ne (by omega))

/-- A block of the right class takes another size. -/
lemma InClass.resize (h : node.InClass i) (hflag : node.flag = 0xFF) (hn : n ≤ 2 ^ i) :
    { node with size := n, data := node.data.set n 0xFF }.Holds i n where
  index := h.index
  room := by simp [h.room]
  size := rfl
  fits := hn
  flag := hflag
  guard := by
    have hlt : n < node.data.length := by have := h.room; omega
    simp [List.getElem?_set_self hlt]

end MemNode

/-! ### One class -/

lemma mem_memUsedAdd {used : List ℕ} {node p : ℕ} :
    p ∈ memUsedAdd used node ↔ p = node ∨ p ∈ used := by
  unfold memUsedAdd
  split
  next h =>
    constructor
    · exact Or.inr
    · rintro (rfl | hp)
      · exact h
      · exact hp
  next => exact List.mem_orderedInsert _

lemma memUsedAdd_perm {used : List ℕ} {node : ℕ} (h : node ∉ used) :
    (memUsedAdd used node).Perm (node :: used) := by
  rw [memUsedAdd, if_neg h]
  exact List.perm_orderedInsert _ _ _

/-- **The invariant of a class** with the blocks `free` on its free list. -/
structure MemRcyList.Inv (i : ℕ) (heap : ℕ → Option MemNode) (live : ℕ → Option ℕ)
    (list : MemRcyList) (free : List ℕ) : Prop where
  linked : Linked (fun p => (heap p).bind MemNode.next) list.head free
  nodup : (list.used ++ free).Nodup
  held : ∀ p ∈ list.used, ∃ node n, heap p = some node ∧ live p = some n ∧ node.Holds i n
  idle : ∀ p ∈ free, live p = none ∧ ∃ node, heap p = some node ∧ node.InClass i
  avlcnt : list.avlcnt = free.length
  cnt : list.cnt = list.used.length + list.avlcnt

namespace MemRcyList.Inv

variable {i n p : ℕ} {heap : ℕ → Option MemNode} {live : ℕ → Option ℕ} {list : MemRcyList}
  {free : List ℕ} {node : MemNode}

lemma start (i : ℕ) : (memRcyInit.blocks i).Inv i memRcyInit.heap (fun _ => none) [] where
  linked := .nil
  nodup := List.nodup_nil
  held := fun _ h => nomatch h
  idle := fun _ h => nomatch h
  avlcnt := rfl
  cnt := rfl

lemma inClass (h : list.Inv i heap live free) (hp : p ∈ list.used ++ free) :
    ∃ node, heap p = some node ∧ node.InClass i := by
  rcases List.mem_append.mp hp with hp | hp
  · obtain ⟨node, n, hnode, -, hh⟩ := h.held p hp
    exact ⟨node, hnode, hh.toInClass⟩
  · exact (h.idle p hp).2

/-- A block of another class changes. -/
lemma frame (h : list.Inv i heap live free) (hp : p ∉ list.used ++ free) (node : Option MemNode)
    (v : Option ℕ) :
    list.Inv i (Function.update heap p node) (Function.update live p v) free := by
  have hne : ∀ q ∈ list.used ++ free, q ≠ p := fun q hq heq => hp (heq ▸ hq)
  refine ⟨?_, h.nodup, fun q hq => ?_, fun q hq => ?_, h.avlcnt, h.cnt⟩
  · refine h.linked.congr fun q hq => ?_
    rw [Function.update_of_ne (hne q (List.mem_append_right _ hq))]
  · rw [Function.update_of_ne (hne q (List.mem_append_left _ hq)),
      Function.update_of_ne (hne q (List.mem_append_left _ hq))]
    exact h.held q hq
  · rw [Function.update_of_ne (hne q (List.mem_append_right _ hq)),
      Function.update_of_ne (hne q (List.mem_append_right _ hq))]
    exact h.idle q hq

/-- The class without the first block of its free list. -/
lemma pop (h : list.Inv i heap live (p :: free)) :
    { list with head := (heap p).bind MemNode.next, avlcnt := list.avlcnt - 1,
                cnt := list.cnt - 1 }.Inv i heap live free := by
  have hsub : (list.used ++ free).Sublist (list.used ++ p :: free) :=
    (List.Sublist.refl _).append (List.sublist_cons_self _ _)
  have havl := h.avlcnt
  have hcnt := h.cnt
  refine ⟨h.linked.tail.2, h.nodup.sublist hsub, h.held,
    fun q hq => h.idle q (List.mem_cons_of_mem _ hq), ?_, ?_⟩
  · simp only [List.length_cons] at havl
    push_cast at havl
    show list.avlcnt - 1 = free.length
    omega
  · show list.cnt - 1 = list.used.length + (list.avlcnt - 1)
    omega

/-- A block from outside is in use from now on. -/
lemma use (h : list.Inv i heap live free) (hp : p ∉ list.used ++ free) (hnode : node.Holds i n)
    (usedsize : UInt64) :
    { list with cnt := list.cnt + 1, used := memUsedAdd list.used p,
                usedsize := usedsize }.Inv i (Function.update heap p (some node))
      (Function.update live p (some n)) free := by
  have hf := h.frame hp (some node) (some n)
  have hpu : p ∉ list.used := fun hm => hp (List.mem_append_left _ hm)
  have hperm := memUsedAdd_perm hpu
  have hcnt := h.cnt
  refine ⟨hf.linked, ?_, fun q hq => ?_, hf.idle, h.avlcnt, ?_⟩
  · refine (hperm.append_right free).nodup_iff.mpr ?_
    exact List.nodup_cons.mpr ⟨hp, h.nodup⟩
  · rcases mem_memUsedAdd.mp hq with rfl | hq
    · exact ⟨node, n, Function.update_self .., Function.update_self .., hnode⟩
    · exact hf.held q hq
  · show list.cnt + 1 = (memUsedAdd list.used p).length + list.avlcnt
    rw [hperm.length_eq, List.length_cons]
    push_cast
    omega

/-- The class without one of the blocks in use. -/
lemma release (h : list.Inv i heap live free) (hp : p ∈ list.used) :
    { list with cnt := list.cnt - 1, used := list.used.erase p }.Inv i heap live free ∧
      p ∉ list.used.erase p ++ free := by
  have hcnt := h.cnt
  have hnd := List.nodup_append'.mp h.nodup
  have hlen := List.length_erase_of_mem hp
  have hpos : 0 < list.used.length := List.length_pos_of_mem hp
  refine ⟨⟨h.linked, ?_, fun q hq => h.held q (List.mem_of_mem_erase hq), h.idle, h.avlcnt, ?_⟩, ?_⟩
  · exact h.nodup.sublist ((List.erase_sublist ..).append (List.Sublist.refl _))
  · show list.cnt - 1 = (list.used.erase p).length + list.avlcnt
    omega
  · rw [List.mem_append, not_or]
    exact ⟨hnd.1.not_mem_erase, fun hm => hnd.2.2 hp hm⟩

/-- A block from outside is the first of the free list from now on. -/
lemma push (h : list.Inv i heap live free) (hp : p ∉ list.used ++ free) (hnode : node.InClass i)
    (hnext : node.next = list.head) :
    { list with cnt := list.cnt + 1, head := some p, avlcnt := list.avlcnt + 1 }.Inv i
      (Function.update heap p (some node)) (Function.update live p none) (p :: free) := by
  have hf := h.frame hp (some node) none
  have havl := h.avlcnt
  have hcnt := h.cnt
  refine ⟨?_, ?_, hf.held, fun q hq => ?_, ?_, ?_⟩
  · refine .cons ?_
    rw [Function.update_self, Option.bind_some, hnext]
    exact hf.linked
  · exact (List.perm_middle.nodup_iff).mpr (List.nodup_cons.mpr ⟨hp, h.nodup⟩)
  · rcases List.mem_cons.mp hq with rfl | hq
    · exact ⟨Function.update_self .., node, Function.update_self .., hnode⟩
    · exact hf.idle q hq
  · show list.avlcnt + 1 = ((p :: free).length : ℤ)
    simp only [List.length_cons]
    push_cast
    omega
  · show list.cnt + 1 = list.used.length + (list.avlcnt + 1)
    omega

/-- A block in use changes. -/
lemma rewrite (h : list.Inv i heap live free) (hp : p ∈ list.used) (hnode : node.Holds i n)
    (usedsize : UInt64) :
    { list with usedsize := usedsize }.Inv i (Function.update heap p (some node))
      (Function.update live p (some n)) free := by
  obtain ⟨hrel, hout⟩ := h.release hp
  have hf := hrel.frame hout (some node) (some n)
  refine ⟨hf.linked, h.nodup, fun q hq => ?_, hf.idle, h.avlcnt, h.cnt⟩
  by_cases heq : q = p
  · subst heq
    exact ⟨node, n, Function.update_self .., Function.update_self .., hnode⟩
  · exact hf.held q ((List.mem_erase_of_ne heq).mpr hq)

end MemRcyList.Inv

/-! ### All classes -/

/-- **The invariant of the allocator** with the blocks `free i` on the free list of
class `i`. -/
structure MemRcyInv (s : MemRcyState) (free : ℕ → List ℕ) : Prop where
  lists : ∀ i, (s.mem.blocks i).Inv i s.mem.heap s.live (free i)
  home : ∀ p node, s.mem.heap p = some node →
    node.index < memBlockSz ∧ p ∈ (s.mem.blocks node.index).used ++ free node.index
  gone : ∀ p, s.mem.heap p = none → s.live p = none

namespace MemRcyInv

variable {s : MemRcyState} {free : ℕ → List ℕ} {i n p size : ℕ} {node : MemNode}
  {fresh : Option (ℕ × List UInt8)}

lemma start : MemRcyInv { mem := memRcyInit, live := fun _ => none } fun _ => [] where
  lists := MemRcyList.Inv.start
  home := fun _ _ h => nomatch h
  gone := fun _ _ => rfl

/-- A block is in one class. -/
lemma class_unique (h : MemRcyInv s free) {j : ℕ} (hi : p ∈ (s.mem.blocks i).used ++ free i)
    (hj : p ∈ (s.mem.blocks j).used ++ free j) : i = j := by
  obtain ⟨node, hnode, hin⟩ := (h.lists i).inClass hi
  obtain ⟨node', hnode', hin'⟩ := (h.lists j).inClass hj
  obtain rfl : node = node' := Option.some.inj (hnode.symm.trans hnode')
  exact hin.index.symm.trans hin'.index

/-- What a live block is. -/
lemma live_block (h : MemRcyInv s free) (hp : s.live p = some n) :
    ∃ node, s.mem.heap p = some node ∧ node.Holds node.index n ∧
      node.index < memBlockSz ∧ p ∈ (s.mem.blocks node.index).used := by
  obtain ⟨node, hnode⟩ : ∃ node, s.mem.heap p = some node := by
    refine Option.ne_none_iff_exists'.mp fun hnone => ?_
    rw [h.gone p hnone] at hp
    cases hp
  obtain ⟨hlt, hmem⟩ := h.home p node hnode
  rcases List.mem_append.mp hmem with hu | hf
  · obtain ⟨node', n', hnode', hlive, hh⟩ := (h.lists _).held p hu
    obtain rfl : node = node' := Option.some.inj (hnode.symm.trans hnode')
    obtain rfl : n = n' := Option.some.inj (hp.symm.trans hlive)
    exact ⟨node, hnode, hh, hlt, hu⟩
  · rw [((h.lists _).idle p hf).1] at hp
    cases hp

/-- **The frame rule.** An operation changes one class and one block, which is new or
belongs to that class and stays there. -/
lemma replace (h : MemRcyInv s free) {list : MemRcyList} {v : Option ℕ} {l : List ℕ}
    (hi : i < memBlockSz) (hp : s.mem.heap p = none ∨ p ∈ (s.mem.blocks i).used ++ free i)
    (hlist : list.Inv i (Function.update s.mem.heap p (some node)) (Function.update s.live p v) l)
    (hin : p ∈ list.used ++ l)
    (hkeep : ∀ q ∈ (s.mem.blocks i).used ++ free i, q ∈ list.used ++ l) :
    MemRcyInv
      { mem := { blocks := Function.update s.mem.blocks i list,
                 heap := Function.update s.mem.heap p (some node) },
        live := Function.update s.live p v }
      (Function.update free i l) := by
  have hidx : node.index = i := by
    obtain ⟨node', hnode', hin'⟩ := hlist.inClass hin
    rw [Function.update_self] at hnode'
    obtain rfl : node = node' := Option.some.inj hnode'
    exact hin'.index
  refine ⟨fun j => ?_, fun q qnode hq => ?_, fun q hq => ?_⟩
  · by_cases hj : j = i
    · subst hj
      simpa only [Function.update_self] using hlist
    · simp only [Function.update_of_ne hj]
      refine (h.lists j).frame (fun hm => ?_) _ _
      rcases hp with hp | hp
      · obtain ⟨node', hnode', -⟩ := (h.lists j).inClass hm
        rw [hp] at hnode'
        cases hnode'
      · exact hj (h.class_unique hm hp)
  · by_cases hqp : q = p
    · subst hqp
      simp only [Function.update_self, Option.some.injEq] at hq
      subst hq
      rw [hidx]
      simpa only [Function.update_self] using ⟨hi, hin⟩
    · simp only [Function.update_of_ne hqp] at hq
      obtain ⟨hlt, hmem⟩ := h.home q qnode hq
      refine ⟨hlt, ?_⟩
      by_cases hj : qnode.index = i
      · simp only [hj, Function.update_self]
        exact hkeep q (hj ▸ hmem)
      · simpa only [Function.update_of_ne hj] using hmem
  · by_cases hqp : q = p
    · subst hqp
      simp only [Function.update_self] at hq
      cases hq
    · simp only [Function.update_of_ne hqp] at hq ⊢
      exact h.gone q hq

/-! ### The operations -/

lemma handOut_eq {m : MemRcy} {idx : ℕ} (hnode : m.heap p = some node) (list : MemRcyList) :
    m.handOut idx p list size =
      { blocks := Function.update m.blocks idx { list with
          used := memUsedAdd list.used p, usedsize := list.usedsize + UInt64.ofNat size },
        heap := Function.update m.heap p (some (node.handOut size)) } := by
  simp only [MemRcy.handOut, MemRcy.mapNode, MemRcy.setList, hnode, Option.map_some]

lemma mapNode_eq {m : MemRcy} {f : MemNode → MemNode} (hnode : m.heap p = some node) :
    m.mapNode p f = { m with heap := Function.update m.heap p (some (f node)) } := by
  simp only [MemRcy.mapNode, hnode, Option.map_some]

/-- The class of a size has room for it. -/
lemma le_two_pow_memRcyIndex (size : ℕ) : size ≤ 2 ^ memRcyIndex size :=
  Nat.le_pow_clog (by decide) size

/-- **Allocation** fails and changes nothing, or hands out a block that was not live. -/
lemma alloc (h : MemRcyInv s free) (hfresh : MallocOk s.mem size fresh) :
    memRcyAlloc s.mem fresh size = (s.mem, none) ∨
    ∃ m p free', memRcyAlloc s.mem fresh size = (m, some p) ∧ s.live p = none ∧
      (∀ q, q ≠ p → m.heap q = s.mem.heap q) ∧
      MemRcyInv { mem := m, live := Function.update s.live p (some size) } free' := by
  have hroom := le_two_pow_memRcyIndex size
  set i := memRcyIndex size with hi
  by_cases hbig : memBlockSz ≤ i
  · exact .inl (by simp only [memRcyAlloc, ← hi, if_pos hbig])
  have hlt : i < memBlockSz := not_le.mp hbig
  have hl := h.lists i
  cases hhead : (s.mem.blocks i).head with
  | some p =>
      -- the first block of the free list
      have hlinked := hl.linked
      rw [hhead] at hlinked
      obtain ⟨rest, hfree, -⟩ := hlinked.eq_cons
      rw [hfree] at hl
      obtain ⟨hlive, node, hnode, hin⟩ := hl.idle p (List.mem_cons_self ..)
      have hout : p ∉ (s.mem.blocks i).used ++ rest :=
        (List.nodup_cons.mp (List.perm_middle.nodup_iff.mp hl.nodup)).1
      have huse := hl.pop.use hout (hin.handOut hroom)
        ((s.mem.blocks i).usedsize + UInt64.ofNat size)
      refine .inr ⟨_, p, Function.update free i rest, ?_, hlive, fun q hq => ?_,
        h.replace hlt (.inr (by simp [hfree])) huse ?_ fun q hq => ?_⟩
      · simp only [memRcyAlloc, ← hi, if_neg hbig, hhead, handOut_eq hnode, Int.sub_add_cancel]
      · exact Function.update_of_ne hq ..
      · simp [mem_memUsedAdd]
      · simp only [hfree, List.mem_append, List.mem_cons, mem_memUsedAdd] at hq ⊢
        tauto
  | none =>
      have hlinked := hl.linked
      rw [hhead] at hlinked
      have hfree : free i = [] := hlinked.eq_nil
      cases fresh with
      | none => exact .inl (by simp only [memRcyAlloc, ← hi, if_neg hbig, hhead])
      | some r =>
          obtain ⟨p, data⟩ := r
          obtain ⟨hnone, hlen⟩ := hfresh _ rfl
          have hout : p ∉ (s.mem.blocks i).used ++ free i := by
            intro hm
            obtain ⟨node, hnode, -⟩ := hl.inClass hm
            rw [hnone] at hnode
            cases hnode
          have hin : MemNode.InClass
              { size := 0, next := none, index := i, flag := 0, data := data } i := ⟨rfl, hlen⟩
          have huse := hl.use hout (hin.handOut hroom)
            ((s.mem.blocks i).usedsize + UInt64.ofNat size)
          refine .inr ⟨_, p, Function.update free i (free i), ?_, h.gone p hnone, fun q hq => ?_,
            h.replace hlt (.inl hnone) huse ?_ fun q hq => ?_⟩
          · simp only [memRcyAlloc, ← hi, if_neg hbig, hhead]
            rw [handOut_eq (Function.update_self ..)]
            simp only [MemRcy.setNode, Function.update_idem]
          · exact Function.update_of_ne hq ..
          · simp [mem_memUsedAdd]
          · simp only [List.mem_append, mem_memUsedAdd] at hq ⊢
            tauto

/-- A live block is written, and its guard bytes stay. -/
lemma rewrite (h : MemRcyInv s free) (hp : s.live p = some n) {f : MemNode → MemNode}
    (hf : ∀ i node, s.mem.heap p = some node → node.Holds i n → (f node).Holds i n) :
    MemRcyInv { s with mem := s.mem.mapNode p f } free := by
  obtain ⟨node, hnode, hh, hlt, hu⟩ := h.live_block hp
  have hl := (h.lists node.index).rewrite hu (hf _ _ hnode hh) (s.mem.blocks node.index).usedsize
  have hrep := h.replace hlt (.inr (List.mem_append_left _ hu)) hl (List.mem_append_left _ hu)
    fun q hq => hq
  simp only [← hp, Function.update_eq_self] at hrep
  rw [mapNode_eq hnode]
  exact hrep

/-- Bytes are written to the beginning of a live block. -/
lemma fill (h : MemRcyInv s free) (hp : s.live p = some n) {bytes : List UInt8}
    (hb : bytes.length ≤ n) : MemRcyInv { s with mem := s.mem.fill p bytes } free :=
  h.rewrite hp fun _ _ _ hh => hh.fill hb

/-- **Freeing** a live block puts it on the free list of its class. -/
lemma free_live (h : MemRcyInv s free) (hp : s.live p = some n) :
    ∃ free', MemRcyInv { mem := memRcyFree s.mem (some p), live := Function.update s.live p none }
        free' ∧
      ∀ q, q ≠ p → (memRcyFree s.mem (some p)).heap q = s.mem.heap q := by
  obtain ⟨node, hnode, hh, hlt, hu⟩ := h.live_block hp
  obtain ⟨hrel, hout⟩ := (h.lists node.index).release hu
  have hin : MemNode.InClass { node with next := (s.mem.blocks node.index).head } node.index :=
    ⟨rfl, hh.room⟩
  have hpush := hrel.push hout hin rfl
  have hrep := h.replace hlt (.inr (List.mem_append_left _ hu)) hpush (by simp) fun q hq => by
    simp only [List.mem_append, List.mem_cons] at hq ⊢
    by_cases heq : q = p
    · exact .inr (.inl heq)
    · rw [List.mem_erase_of_ne heq]
      tauto
  have hfree : memRcyFree s.mem (some p) =
      (s.mem.setNode p { node with next := (s.mem.blocks node.index).head }).setList node.index
        { s.mem.blocks node.index with
          used := (s.mem.blocks node.index).used.erase p, head := some p,
          avlcnt := (s.mem.blocks node.index).avlcnt + 1 } := by
    simp only [memRcyFree, hnode, if_neg (not_le.mpr hlt), not_not.mpr hu, if_false,
      hh.checkFlow, Bool.not_true, Bool.false_eq_true]
  rw [hfree]
  simp only [Int.sub_add_cancel] at hrep
  exact ⟨_, hrep, fun q hq => Function.update_of_ne hq ..⟩

/-- Freeing a block that is not live changes nothing. -/
lemma free_idle (h : MemRcyInv s free) (hp : s.live p = none) :
    memRcyFree s.mem (some p) = s.mem := by
  cases hnode : s.mem.heap p with
  | none => simp only [memRcyFree, hnode]
  | some node =>
      obtain ⟨hlt, -⟩ := h.home p node hnode
      have hu : p ∉ (s.mem.blocks node.index).used := by
        intro hm
        obtain ⟨_, _, -, hlive, -⟩ := (h.lists _).held p hm
        rw [hp] at hlive
        cases hlive
      simp only [memRcyFree, hnode, if_neg (not_le.mpr hlt), hu, not_false_eq_true, if_true]

end MemRcyInv

end LibCmutils
