import LibCmutils.List.Basic

/-!
The layout of one list object.

* `ListStore.next`, `ListStore.prev`, `ListStore.data`: what a node holds, and what a
  write changes of it.
* `ListAt`: the record of a list and its nodes fit together. `ListFrame`: what an
  operation on one list leaves alone.
* `listAddFront_spec` to `listMoveAll_spec`: each operation in these terms.
-/

namespace LibCmutils

variable {ι α : Type}

/-! ### Reading and writing nodes -/

namespace ListStore

/-- The node that a node names as the next one. -/
def next (s : ListStore ι α) (item : ℕ) : Option ℕ := (s.items item).bind ListItem.next

/-- The node that a node names as the one before. -/
def prev (s : ListStore ι α) (item : ℕ) : Option ℕ := (s.items item).bind ListItem.prev

/-- The data pointer of a node, `none` where there is no node. -/
def data (s : ListStore ι α) (item : ℕ) : Option (Option α) := (s.items item).map ListItem.data

variable {s : ListStore ι α} {item : ℕ} {node : ListItem α}

lemma next_eq (h : s.items item = some node) : s.next item = node.next := by simp [next, h]

lemma prev_eq (h : s.items item = some node) : s.prev item = node.prev := by simp [prev, h]

@[simp] lemma next_put : (s.put item node).next = Function.update s.next item node.next := by
  funext a
  by_cases h : a = item <;> simp [next, put, h]

@[simp] lemma prev_put : (s.put item node).prev = Function.update s.prev item node.prev := by
  funext a
  by_cases h : a = item <;> simp [prev, put, h]

@[simp] lemma data_put : (s.put item node).data = Function.update s.data item (some node.data) := by
  funext a
  by_cases h : a = item <;> simp [data, put, h]

@[simp] lemma next_free : (s.free item).next = Function.update s.next item none := by
  funext a
  by_cases h : a = item <;> simp [next, free, h]

@[simp] lemma prev_free : (s.free item).prev = Function.update s.prev item none := by
  funext a
  by_cases h : a = item <;> simp [prev, free, h]

@[simp] lemma data_free : (s.free item).data = Function.update s.data item none := by
  funext a
  by_cases h : a = item <;> simp [data, free, h]

lemma items_put (a : ℕ) : (s.put item node).items a = if a = item then some node else s.items a := by
  simp [put, Function.update_apply]

lemma items_free (a : ℕ) : (s.free item).items a = if a = item then none else s.items a := by
  simp [free, Function.update_apply]

@[simp] lemma lists_put : (s.put item node).lists = s.lists := rfl

@[simp] lemma lists_free : (s.free item).lists = s.lists := rfl

section SetList

variable [DecidableEq ι] {list j : ι} {l : ListInternal}

@[simp] lemma items_setList : (s.setList list l).items = s.items := rfl

@[simp] lemma next_setList : (s.setList list l).next = s.next := rfl

@[simp] lemma prev_setList : (s.setList list l).prev = s.prev := rfl

@[simp] lemma data_setList : (s.setList list l).data = s.data := rfl

@[simp] lemma lists_setList : (s.setList list l).lists list = l := by simp [setList]

lemma lists_setList_ne (hj : j ≠ list) : (s.setList list l).lists j = s.lists j := by
  simp [setList, hj]

end SetList

/-- A written link keeps the other link and the data pointer. -/
lemma setNext_eq (h : s.items item = some node) (value : Option ℕ) :
    ∃ s', s.setNext (some item) value = some s' ∧ s'.next = Function.update s.next item value ∧
      s'.prev = s.prev ∧ s'.data = s.data ∧ s'.lists = s.lists ∧
      ∀ a, a ≠ item → s'.items a = s.items a := by
  refine ⟨s.put item { node with next := value }, by simp [setNext, h], next_put, ?_, ?_, rfl, ?_⟩
  · rw [prev_put, ← prev_eq h, Function.update_eq_self]
  · have hdata : s.data item = some node.data := by simp [data, h]
    rw [data_put, ← hdata, Function.update_eq_self]
  · exact fun a ha => by simp [items_put, ha]

lemma setPrev_eq (h : s.items item = some node) (value : Option ℕ) :
    ∃ s', s.setPrev (some item) value = some s' ∧ s'.next = s.next ∧
      s'.prev = Function.update s.prev item value ∧ s'.data = s.data ∧ s'.lists = s.lists ∧
      ∀ a, a ≠ item → s'.items a = s.items a := by
  refine ⟨s.put item { node with prev := value }, by simp [setPrev, h], ?_, prev_put, ?_, rfl, ?_⟩
  · rw [next_put, ← next_eq h, Function.update_eq_self]
  · have hdata : s.data item = some node.data := by simp [data, h]
    rw [data_put, ← hdata, Function.update_eq_self]
  · exact fun a ha => by simp [items_put, ha]

end ListStore

/-! ### One list -/

/-- The record of `list` and the nodes of `ns`, each with its data pointer, are the two
ends and the links of one list. -/
structure ListAt (s : ListStore ι α) (list : ι) (ns : List (ℕ × Option α)) : Prop where
  links : Links s.next s.prev none (ns.map Prod.fst) none
  head : (s.lists list).head = (ns.map Prod.fst).head?
  tail : (s.lists list).tail = (ns.map Prod.fst).getLast?
  size : (s.lists list).size = ns.length
  data : ∀ n ∈ ns, s.data n.1 = some n.2

/-- Nodes outside `nodes` and lists other than `list` are left alone. -/
structure ListFrame (s s' : ListStore ι α) (list : ι) (nodes : List ℕ) : Prop where
  items : ∀ a, a ∉ nodes → s'.items a = s.items a
  lists : ∀ j, j ≠ list → s'.lists j = s.lists j

section One

variable {s s' : ListStore ι α} {list : ι} {ns ms : List (ℕ × Option α)} {n : ℕ × Option α}

lemma ListAt.node (h : ListAt s list ns) (hn : n ∈ ns) :
    ∃ node, s.items n.1 = some node ∧ node.data = n.2 :=
  Option.map_eq_some_iff.mp (h.data n hn)

lemma ListAt.nodup (h : ListAt s list ns) : (ns.map Prod.fst).Nodup := h.links.forward.nodup

lemma ListAt.ne_of_free (h : ListAt s list ns) {item : ℕ} (hitem : s.items item = none) :
    item ∉ ns.map Prod.fst := by
  intro hmem
  obtain ⟨n, hn, rfl⟩ := List.mem_map.mp hmem
  obtain ⟨node, hnode, -⟩ := h.node hn
  rw [hitem] at hnode
  cases hnode

/-- A list does not see changes of other nodes and other lists. -/
lemma ListAt.congr (h : ListAt s list ns) (hitems : ∀ a ∈ ns.map Prod.fst, s'.items a = s.items a)
    (hlist : s'.lists list = s.lists list) : ListAt s' list ns where
  links := h.links.congr (fun a ha => by rw [ListStore.next, hitems a ha]; rfl)
    fun a ha => by rw [ListStore.prev, hitems a ha]; rfl
  head := hlist ▸ h.head
  tail := hlist ▸ h.tail
  size := hlist ▸ h.size
  data n hn := by rw [ListStore.data, hitems n.1 (List.mem_map_of_mem hn)]; exact h.data n hn

variable [DecidableEq ι]

lemma ListFrame.setList {nodes : List ℕ} (hitems : ∀ a, a ∉ nodes → s'.items a = s.items a)
    (hlists : s'.lists = s.lists) (l : ListInternal) :
    ListFrame s (s'.setList list l) list nodes where
  items := hitems
  lists j hj := by rw [ListStore.lists_setList_ne hj, hlists]

/-- A node put as the only one of a list. -/
lemma listAt_singleton (s : ListStore ι α) (list : ι) (item : ℕ) (data : Option α) :
    let s' := (s.put item { prev := none, next := none, data := data }).setList list
      { head := some item, tail := some item, size := 0 + 1 }
    ListAt s' list [(item, data)] ∧ ListFrame s s' list [item] := by
  refine ⟨?_, ?_⟩
  · exact
      { links := by simp [Links]
        head := by simp
        tail := by simp
        size := by simp
        data := by simp }
  · refine ListFrame.setList ?_ ListStore.lists_put _
    exact fun a ha => by simp_all [ListStore.items_put]

/-- The only node of a list taken out. -/
lemma listAt_nil (s : ListStore ι α) (list : ι) (item : ℕ) :
    let s' := (s.free item).setList list { head := none, tail := none, size := 0 }
    ListAt s' list [] ∧ s'.items item = none ∧ ListFrame s s' list [item] := by
  refine ⟨?_, by simp [ListStore.items_free], ?_⟩
  · exact
      { links := trivial
        head := by simp
        tail := by simp
        size := by simp
        data := by simp }
  · refine ListFrame.setList ?_ ListStore.lists_free _
    exact fun a ha => by simp_all [ListStore.items_free]

/-- A new node in front. -/
lemma listAddFront_spec (h : ListAt s list ns) {item : ℕ} (hitem : s.items item = none)
    (data : Option α) :
    ∃ s', listAddFront s list data (some item) = some s' ∧ ListAt s' list ((item, data) :: ns) ∧
      ListFrame s s' list (item :: ns.map Prod.fst) := by
  have hnotin := h.ne_of_free hitem
  cases ns with
  | nil =>
      have hhead : (s.lists list).head = none := h.head
      have htail : (s.lists list).tail = none := h.tail
      have hsize : (s.lists list).size = 0 := h.size
      exact ⟨_, by simp only [listAddFront, hhead, htail, hsize]; rfl,
        listAt_singleton s list item data⟩
  | cons n ns =>
      obtain ⟨node, hnode, -⟩ := h.node (n := n) (by simp)
      have hhead : (s.lists list).head = some n.1 := h.head
      obtain ⟨last, hlast⟩ : ∃ a, ((n :: ns).map Prod.fst).getLast? = some a :=
        ⟨_, List.getLast?_eq_some_getLast (by simp)⟩
      have htail := h.tail.trans hlast
      have hne : n.1 ≠ item := fun heq => hnotin (by simp [heq])
      have hput : (s.put item { prev := none, next := some n.1, data := data }).items n.1 =
          some node := by simp [ListStore.items_put, hne, hnode]
      obtain ⟨s', hset, hnext, hprev, hdata, hlists, hitems⟩ :=
        ListStore.setPrev_eq hput (some item)
      refine ⟨s'.setList list _, by simp [listAddFront, hhead, htail, hset]; rfl, ?_, ?_⟩
      · have hmem : ∀ a ∈ (n :: ns).map Prod.fst, a ≠ item := fun a ha heq => hnotin (heq ▸ ha)
        have hnodup := h.nodup
        refine
          { links := ⟨?_, ?_, h.links.first ?_ ?_ ?_⟩
            head := by simp
            tail := ?_
            size := by simp [h.size]
            data := ?_ }
        · simp [hprev, hne.symm]
        · simp [hnext]
        · exact fun a ha => by simp [hnext, hmem a ha]
        · intro a ha
          have hane : a ≠ n.1 := by
            rintro rfl
            exact (List.nodup_cons.mp hnodup).1 ha
          have hai : a ≠ item := hmem a (List.mem_cons_of_mem _ ha)
          simp [hprev, hane, hai]
        · simp [hprev]
        · simp only [ListStore.lists_setList, List.map_cons, List.getLast?_cons_cons]
          exact hlast.symm
        · intro m hm
          rcases List.mem_cons.mp hm with rfl | hm
          · simp [hdata]
          · have hmi : m.1 ≠ item := hmem m.1 (List.mem_map_of_mem hm)
            simpa [hdata, hmi] using h.data m hm
      · refine ListFrame.setList (fun a ha => ?_) (hlists.trans ListStore.lists_put) _
        simp only [List.map_cons, List.mem_cons, not_or] at ha
        rw [hitems a ha.2.1, ListStore.items_put, if_neg ha.1]

/-- A new node at the end. -/
lemma listAddTail_spec (h : ListAt s list ns) {item : ℕ} (hitem : s.items item = none)
    (data : Option α) :
    ∃ s', listAddTail s list data (some item) = some s' ∧ ListAt s' list (ns ++ [(item, data)]) ∧
      ListFrame s s' list (item :: ns.map Prod.fst) := by
  have hnotin := h.ne_of_free hitem
  cases ns using List.reverseRecOn with
  | nil =>
      have hhead : (s.lists list).head = none := h.head
      have htail : (s.lists list).tail = none := h.tail
      have hsize : (s.lists list).size = 0 := h.size
      exact ⟨_, by simp only [listAddTail, hhead, htail, hsize]; rfl,
        listAt_singleton s list item data⟩
  | append_singleton ns n =>
      obtain ⟨node, hnode, -⟩ := h.node (n := n) (by simp)
      have htail : (s.lists list).tail = some n.1 := by simpa using h.tail
      obtain ⟨first, hfirst⟩ : ∃ a, ((ns ++ [n]).map Prod.fst).head? = some a :=
        ⟨_, List.head?_eq_some_head (by simp)⟩
      have hhead := h.head.trans hfirst
      have hne : n.1 ≠ item := fun heq => hnotin (by simp [heq])
      have hput : (s.put item { prev := some n.1, next := none, data := data }).items n.1 =
          some node := by simp [ListStore.items_put, hne, hnode]
      obtain ⟨s', hset, hnext, hprev, hdata, hlists, hitems⟩ :=
        ListStore.setNext_eq hput (some item)
      refine ⟨s'.setList list _, by simp [listAddTail, hhead, htail, hset]; rfl, ?_, ?_⟩
      · have hmem : ∀ a ∈ (ns ++ [n]).map Prod.fst, a ≠ item := fun a ha heq => hnotin (heq ▸ ha)
        have hnodup := h.nodup
        refine
          { links := ?_
            head := ?_
            tail := by simp
            size := by simp [h.size]
            data := ?_ }
        · rw [List.map_append, links_append]
          refine ⟨h.links.last ?_ ?_ ?_, ?_, ?_, trivial⟩
          · exact fun a ha => by simp [hprev, hmem a ha]
          · intro a ha
            have hane : a ≠ n.1 := by
              rintro rfl
              rw [List.map_append, List.nodup_append] at hnodup
              exact hnodup.2.2 n.1 (by simpa using ha) n.1 (by simp) rfl
            have hai : a ≠ item := hmem a (List.dropLast_subset _ ha)
            simp [hnext, hane, hai]
          · simp [hnext]
          · simp [hprev]
          · simp [hnext, hne.symm]
        · rw [List.map_append, List.head?_append, hfirst]
          simp
        · intro m hm
          rcases List.mem_append.mp hm with hm | hm
          · have hmi : m.1 ≠ item := hmem m.1 (List.mem_map_of_mem hm)
            simpa [hdata, hmi] using h.data m hm
          · obtain rfl := List.mem_singleton.mp hm
            simp [hdata]
      · refine ListFrame.setList (fun a ha => ?_) (hlists.trans ListStore.lists_put) _
        simp only [List.map_append, List.map_cons, List.map_nil, List.mem_cons, List.mem_append,
          List.not_mem_nil, or_false, not_or] at ha
        rw [hitems a ha.2.2, ListStore.items_put, if_neg ha.1]

/-- The first node is taken out. -/
lemma listRemoveFront_spec (h : ListAt s list (n :: ns)) :
    ∃ s', listRemoveFront s list = some (s', n.2) ∧ ListAt s' list ns ∧ s'.items n.1 = none ∧
      ListFrame s s' list ((n :: ns).map Prod.fst) := by
  obtain ⟨node, hnode, hdata⟩ := h.node (n := n) (by simp)
  have hhead : (s.lists list).head = some n.1 := h.head
  have hsize : (s.lists list).size = ns.length + 1 := h.size
  obtain ⟨-, hn, hlinks⟩ := h.links
  rw [ListStore.next_eq hnode, Option.or_none] at hn
  cases ns with
  | nil =>
      have hnone : node.next = none := hn
      exact ⟨_, by simp [listRemoveFront, hhead, hnode, hnone, hsize, hdata], listAt_nil s list n.1⟩
  | cons m ns =>
      have hsome : node.next = some m.1 := hn
      obtain ⟨mnode, hmnode, -⟩ := h.node (n := m) (by simp)
      have hnodup := h.nodup
      have hnm : n.1 ≠ m.1 := fun heq => (List.nodup_cons.mp hnodup).1 (by simp [heq])
      obtain ⟨s', hset, hnext, hprev, hdata', hlists, hitems⟩ :=
        ListStore.setPrev_eq hmnode none
      refine ⟨_, by simp [listRemoveFront, hhead, hnode, hsome, hsize, hdata, hset]; rfl, ?_, ?_, ?_⟩
      · have hmem : ∀ a ∈ (m :: ns).map Prod.fst, a ≠ n.1 := by
          rintro a ha rfl
          exact (List.nodup_cons.mp hnodup).1 ha
        have hnodup' := (List.nodup_cons.mp hnodup).2
        refine
          { links := hlinks.first ?_ ?_ ?_
            head := by simp
            tail := ?_
            size := by simp
            data := ?_ }
        · exact fun a ha => by simp [hnext, hmem a ha]
        · intro a ha
          have ham : a ≠ m.1 := by
            rintro rfl
            exact (List.nodup_cons.mp hnodup').1 ha
          have han : a ≠ n.1 := hmem a (List.mem_cons_of_mem _ ha)
          simp [hprev, ham, han]
        · simp [hprev, hnm.symm]
        · have htail := h.tail
          rw [List.map_cons, List.map_cons, List.getLast?_cons_cons] at htail
          simpa using htail
        · intro k hk
          have hkn : k.1 ≠ n.1 := hmem k.1 (List.mem_map_of_mem hk)
          simpa [hdata', hkn] using h.data k (List.mem_cons_of_mem _ hk)
      · simp [ListStore.items_free]
      · refine ListFrame.setList (fun a ha => ?_) (ListStore.lists_free.trans hlists) _
        simp only [List.map_cons, List.mem_cons, not_or] at ha
        rw [ListStore.items_free, if_neg ha.1, hitems a ha.2.1]

/-- The last node is taken out. -/
lemma listRemoveTail_spec (h : ListAt s list (ns ++ [n])) :
    ∃ s', listRemoveTail s list = some (s', n.2) ∧ ListAt s' list ns ∧ s'.items n.1 = none ∧
      ListFrame s s' list ((ns ++ [n]).map Prod.fst) := by
  obtain ⟨node, hnode, hdata⟩ := h.node (n := n) (by simp)
  have htail : (s.lists list).tail = some n.1 := by simpa using h.tail
  have hsize : (s.lists list).size = ns.length + 1 := by simpa using h.size
  have hlinks := h.links
  rw [List.map_append, links_append] at hlinks
  obtain ⟨hlinks, hp, -⟩ := hlinks
  rw [ListStore.prev_eq hnode, Option.or_none] at hp
  cases ns using List.reverseRecOn with
  | nil =>
      have hnone : node.prev = none := hp
      exact ⟨_, by simp [listRemoveTail, htail, hnode, hnone, hsize, hdata], listAt_nil s list n.1⟩
  | append_singleton ns m =>
      have hsome : node.prev = some m.1 := by simpa using hp
      obtain ⟨mnode, hmnode, -⟩ := h.node (n := m) (by simp)
      have hnodup := h.nodup
      rw [List.map_append, List.nodup_append] at hnodup
      obtain ⟨hnodup', -, hdisj⟩ := hnodup
      have hmem : ∀ a ∈ (ns ++ [m]).map Prod.fst, a ≠ n.1 := fun a ha => hdisj a ha n.1 (by simp)
      have hmn : m.1 ≠ n.1 := hmem m.1 (by simp)
      obtain ⟨s', hset, hnext, hprev, hdata', hlists, hitems⟩ :=
        ListStore.setNext_eq hmnode none
      refine ⟨_, by simp [listRemoveTail, htail, hnode, hsome, hsize, hdata, hset]; rfl, ?_, ?_, ?_⟩
      · refine
          { links := hlinks.last ?_ ?_ ?_
            head := ?_
            tail := by simp
            size := by simp
            data := ?_ }
        · exact fun a ha => by simp [hprev, hmem a ha]
        · intro a ha
          have ham : a ≠ m.1 := by
            rintro rfl
            rw [List.map_append, List.nodup_append] at hnodup'
            exact hnodup'.2.2 m.1 (by simpa using ha) m.1 (by simp) rfl
          have han : a ≠ n.1 := hmem a (List.dropLast_subset _ ha)
          simp [hnext, ham, han]
        · simp [hnext, hmn]
        · have hhead := h.head
          rw [List.map_append, List.head?_append_of_ne_nil _ (by simp)] at hhead
          simpa using hhead
        · intro k hk
          have hkn : k.1 ≠ n.1 := hmem k.1 (List.mem_map_of_mem hk)
          simpa [hdata', hkn] using h.data k (List.mem_append_left _ hk)
      · simp [ListStore.items_free]
      · refine ListFrame.setList (fun a ha => ?_) (ListStore.lists_free.trans hlists) _
        simp only [List.map_append, List.map_cons, List.map_nil, List.mem_append, List.mem_cons,
          List.not_mem_nil, or_false, not_or] at ha
        rw [ListStore.items_free, if_neg ha.2, hitems a ha.1.2]

/-- The splice in the middle of `CMUTIL_ListRemove`: `n` goes, between `b` and `c`. -/
lemma listUnlink_spec {ls rs : List (ℕ × Option α)} {b c : ℕ × Option α} {node : ListItem α}
    (h : ListAt s list ((ls ++ [b]) ++ n :: c :: rs)) (hnode : s.items n.1 = some node) :
    ∃ s₁ s₂, s.setNext node.prev node.next = some s₁ ∧ s₁.items n.1 = some node ∧
      s₁.setPrev node.next node.prev = some s₂ ∧
      ListAt ((s₂.free n.1).setList list
        { s.lists list with size := (s.lists list).size - 1 }) list ((ls ++ [b]) ++ c :: rs) ∧
      ListFrame s ((s₂.free n.1).setList list
        { s.lists list with size := (s.lists list).size - 1 }) list
        (((ls ++ [b]) ++ n :: c :: rs).map Prod.fst) := by
  obtain ⟨bnode, hbnode, -⟩ := h.node (n := b) (by simp)
  obtain ⟨cnode, hcnode, -⟩ := h.node (n := c) (by simp)
  have hnodup := h.nodup
  have hlinks := h.links
  rw [List.map_append, links_append] at hlinks
  obtain ⟨hleft, hp, hn, hright⟩ := hlinks
  rw [List.map_append, List.nodup_append] at hnodup
  obtain ⟨hnodupl, hnodupr, hdisj⟩ := hnodup
  have hprevn : node.prev = some b.1 := by
    rw [← ListStore.prev_eq hnode]
    simpa using hp
  have hnextn : node.next = some c.1 := by
    rw [← ListStore.next_eq hnode]
    simpa using hn
  have hbn : n.1 ≠ b.1 := (hdisj b.1 (by simp) n.1 (by simp)).symm
  have hbc : c.1 ≠ b.1 := (hdisj b.1 (by simp) c.1 (by simp)).symm
  have hnotin := (List.nodup_cons.mp hnodupr).1
  have hcn : c.1 ≠ n.1 := fun heq => hnotin (by simp [heq])
  have hcrs := (List.nodup_cons.mp (List.nodup_cons.mp hnodupr).2).1
  obtain ⟨s₁, hset₁, hnext₁, hprev₁, hdata₁, hlists₁, hitems₁⟩ :=
    ListStore.setNext_eq hbnode (some c.1)
  obtain ⟨s₂, hset₂, hnext₂, hprev₂, hdata₂, hlists₂, hitems₂⟩ :=
    ListStore.setPrev_eq ((hitems₁ c.1 hbc).trans hcnode) (some b.1)
  refine ⟨s₁, s₂, by rw [hprevn, hnextn, hset₁], (hitems₁ n.1 hbn).trans hnode,
    by rw [hprevn, hnextn, hset₂], ?_, ?_⟩
  · have hmeml : ∀ a ∈ (ls ++ [b]).map Prod.fst, a ≠ n.1 ∧ a ≠ c.1 := fun a ha =>
      ⟨hdisj a ha n.1 (by simp), hdisj a ha c.1 (by simp)⟩
    have hmemr : ∀ a ∈ (c :: rs).map Prod.fst, a ≠ n.1 ∧ a ≠ b.1 := by
      refine fun a ha => ⟨?_, (hdisj b.1 (by simp) a (List.mem_cons_of_mem _ ha)).symm⟩
      rintro rfl
      exact hnotin ha
    refine
      { links := ?_
        head := ?_
        tail := ?_
        size := ?_
        data := ?_ }
    · rw [List.map_append, links_append]
      refine ⟨hleft.last ?_ ?_ ?_, hright.first ?_ ?_ ?_⟩
      · exact fun a ha => by simp [hprev₂, hprev₁, hmeml a ha]
      · intro a ha
        have hab : a ≠ b.1 := by
          rintro rfl
          rw [List.map_append, List.nodup_append] at hnodupl
          exact hnodupl.2.2 b.1 (by simpa using ha) b.1 (by simp) rfl
        simp [hnext₂, hnext₁, hab, hmeml a (List.dropLast_subset _ ha)]
      · simp [hnext₂, hnext₁, hbn.symm]
      · exact fun a ha => by simp [hnext₂, hnext₁, hmemr a ha]
      · intro a ha
        have hac : a ≠ c.1 := by
          rintro rfl
          exact hcrs ha
        simp [hprev₂, hprev₁, hac, hmemr a (List.mem_cons_of_mem _ ha)]
      · simp [hprev₂, hcn]
    · have hhead := h.head
      rw [List.map_append, List.head?_append_of_ne_nil _ (by simp)] at hhead ⊢
      simpa using hhead
    · have htail := h.tail
      rw [List.map_append, List.getLast?_append_of_ne_nil _ (by simp)] at htail ⊢
      simpa using htail
    · simp [h.size]
    · intro k hk
      have hkn : k.1 ≠ n.1 := by
        rcases List.mem_append.mp hk with hk | hk
        · exact (hmeml k.1 (List.mem_map_of_mem hk)).1
        · exact (hmemr k.1 (List.mem_map_of_mem hk)).1
      have hkdata := h.data k (by
        rcases List.mem_append.mp hk with hk | hk
        · exact List.mem_append_left _ hk
        · exact List.mem_append_right _ (List.mem_cons_of_mem _ hk))
      simpa [hdata₂, hdata₁, hkn] using hkdata
  · refine ListFrame.setList (fun a ha => ?_)
      (ListStore.lists_free.trans (hlists₂.trans hlists₁)) _
    simp only [List.map_append, List.map_cons, List.map_nil, List.mem_append, List.mem_cons,
      List.not_mem_nil, or_false, not_or] at ha
    obtain ⟨⟨-, hab⟩, han, hac, -⟩ := ha
    rw [ListStore.items_free, if_neg han, hitems₂ a hac, hitems₁ a hab]

variable [DecidableEq α] {data : Option α}

/-- The loop of `CMUTIL_ListRemove` runs up to the first node that holds `data`. -/
lemma listRemoveLoop_skip (list : ι) {ls : List (ℕ × Option α)} (rs : List (ℕ × Option α))
    (fuel : ℕ) {p : Option ℕ}
    (hlinks : Links s.next s.prev p ((ls ++ rs).map Prod.fst) none)
    (hdata : ∀ n ∈ ls, s.data n.1 = some n.2) (hls : ∀ n ∈ ls, n.2 ≠ data) :
    listRemoveLoop s list data (ls.length + fuel) ((ls ++ rs).map Prod.fst).head? =
      listRemoveLoop s list data fuel (rs.map Prod.fst).head? := by
  induction ls generalizing p with
  | nil => simp
  | cons n ls ih =>
      obtain ⟨node, hnode, hnodedata⟩ := Option.map_eq_some_iff.mp (hdata n (by simp))
      obtain ⟨-, hnext, hlinks⟩ := hlinks
      rw [ListStore.next_eq hnode, Option.or_none] at hnext
      have hne : node.data ≠ data := hnodedata ▸ hls n (by simp)
      have hrest := ih hlinks (fun k hk => hdata k (List.mem_cons_of_mem _ hk))
        fun k hk => hls k (List.mem_cons_of_mem _ hk)
      rw [List.length_cons, Nat.add_right_comm]
      simp only [List.cons_append, List.map_cons, List.head?_cons, listRemoveLoop, hnode]
      rw [← hrest]
      exact (if_neg hne).trans (by rw [hnext]; rfl)

/-- Nothing is taken out where no node holds `data`. -/
lemma listRemove_of_notMem (h : ListAt s list ns) (hns : ∀ n ∈ ns, n.2 ≠ data) :
    listRemove s list data = some (s, none) := by
  have hskip := listRemoveLoop_skip (s := s) list [] 0 (by simpa using h.links) h.data hns
  rw [listRemove, h.size, h.head]
  simpa [listRemoveLoop] using hskip

/-- The first node that holds `data` is taken out. -/
lemma listRemove_spec {ls rs : List (ℕ × Option α)} (h : ListAt s list (ls ++ n :: rs))
    (hls : ∀ m ∈ ls, m.2 ≠ data) (hn : n.2 = data) :
    ∃ s', listRemove s list data = some (s', data) ∧ ListAt s' list (ls ++ rs) ∧
      s'.items n.1 = none ∧ ListFrame s s' list ((ls ++ n :: rs).map Prod.fst) := by
  subst hn
  obtain ⟨node, hnode, hdata⟩ := h.node (n := n) (by simp)
  have hskip : listRemove s list n.2 =
      listRemoveLoop s list n.2 (rs.length + 1) (some n.1) := by
    rw [listRemove, h.size, h.head, List.length_append]
    exact listRemoveLoop_skip list _ _ h.links (fun m hm => h.data m (List.mem_append_left _ hm)) hls
  have hfound : listRemove s list n.2 =
      if (s.lists list).head = some n.1 then listRemoveFront s list
      else if (s.lists list).tail = some n.1 then listRemoveTail s list
      else do
        let s₁ ← s.setNext node.prev node.next
        let node ← s₁.items n.1
        let s₂ ← s₁.setPrev node.next node.prev
        return ((s₂.free n.1).setList list
          { head := (s.lists list).head, tail := (s.lists list).tail,
            size := (s.lists list).size - 1 }, n.2) := by
    rw [hskip]
    simp only [listRemoveLoop, hnode]
    exact if_pos hdata
  have hnodup := h.nodup
  rw [List.map_append, List.nodup_append] at hnodup
  obtain ⟨-, hnodupr, hdisj⟩ := hnodup
  rw [hfound]
  rcases List.eq_nil_or_concat ls with rfl | ⟨ls, b, rfl⟩
  · have hhead : (s.lists list).head = some n.1 := h.head
    rw [if_pos hhead]
    exact listRemoveFront_spec h
  · rw [List.concat_eq_append] at h hdisj ⊢
    have hhead : (s.lists list).head ≠ some n.1 := by
      rw [h.head, List.map_append, List.head?_append_of_ne_nil _ (by simp)]
      exact fun heq => hdisj n.1 (List.mem_of_mem_head? heq) n.1 (by simp) rfl
    rw [if_neg hhead]
    cases rs with
    | nil =>
        have htail : (s.lists list).tail = some n.1 := by simp [h.tail]
        rw [if_pos htail, List.append_nil]
        exact listRemoveTail_spec h
    | cons c rs =>
        have htail : (s.lists list).tail ≠ some n.1 := by
          rw [h.tail, List.map_append, List.getLast?_append_of_ne_nil _ (by simp), List.map_cons,
            List.map_cons, List.getLast?_cons_cons]
          exact fun heq => (List.nodup_cons.mp hnodupr).1 (List.mem_of_mem_getLast? heq)
        rw [if_neg htail]
        obtain ⟨s₁, s₂, hset₁, hnode₁, hset₂, hat, hframe⟩ := listUnlink_spec h hnode
        refine ⟨_, ?_, hat, by simp [ListStore.items_free], hframe⟩
        rw [hset₁, Option.bind_eq_bind, Option.bind_some, hnode₁, Option.bind_eq_bind,
          Option.bind_some, hset₂]
        rfl

omit [DecidableEq α] in
/-- The nodes of `src` follow those of `dest`. -/
lemma listMoveAll_spec {dest src : ι} (hne : dest ≠ src) (hdest : ListAt s dest ns)
    (hsrc : ListAt s src ms) (hdisj : ∀ a ∈ ns.map Prod.fst, a ∉ ms.map Prod.fst) :
    ∃ s', listMoveAll s dest src = some s' ∧ ListAt s' dest (ns ++ ms) ∧ ListAt s' src [] ∧
      (∀ a, a ∉ (ns ++ ms).map Prod.fst → s'.items a = s.items a) ∧
      ∀ j, j ≠ dest → j ≠ src → s'.lists j = s.lists j := by
  cases ms with
  | nil =>
      have hhead : (s.lists src).head = none := hsrc.head
      refine ⟨s, by simp [listMoveAll, hhead], by rwa [List.append_nil], hsrc, ?_, ?_⟩
      · exact fun a _ => rfl
      · exact fun j _ _ => rfl
  | cons m ms =>
      have hhead : (s.lists src).head = some m.1 := hsrc.head
      obtain ⟨last, hlast⟩ : ∃ a, ((m :: ms).map Prod.fst).getLast? = some a :=
        ⟨_, List.getLast?_eq_some_getLast (by simp)⟩
      have hsrctail := hsrc.tail.trans hlast
      -- both branches end with the same two records
      suffices hbody : ∃ s₂ : ListStore ι α, s₂.lists = s.lists ∧
          (listMoveAll s dest src =
            some ((s₂.setList dest
              { head := ((ns ++ m :: ms).map Prod.fst).head?, tail := some last,
                size := (s.lists dest).size + (s.lists src).size }).setList src
              { head := none, tail := none, size := 0 })) ∧
          Links s₂.next s₂.prev none ((ns ++ m :: ms).map Prod.fst) none ∧ s₂.data = s.data ∧
          ∀ a, a ∉ (ns ++ m :: ms).map Prod.fst → s₂.items a = s.items a by
        obtain ⟨s₂, hlists, hmove, hlinks, hdata, hitems⟩ := hbody
        refine ⟨_, hmove, ?_, ?_, hitems, ?_⟩
        · refine
            { links := hlinks
              head := ?_
              tail := ?_
              size := ?_
              data := ?_ }
          · simp [ListStore.lists_setList_ne hne]
          · rw [ListStore.lists_setList_ne hne, ListStore.lists_setList, List.map_append,
              List.getLast?_append_of_ne_nil _ (by simp), hlast]
          · simp [ListStore.lists_setList_ne hne, hdest.size, hsrc.size]
          · intro n hn
            simp only [ListStore.data_setList, hdata]
            rcases List.mem_append.mp hn with hn | hn
            · exact hdest.data n hn
            · exact hsrc.data n hn
        · exact
            { links := trivial
              head := by simp
              tail := by simp
              size := by simp
              data := by simp }
        · intro j hjd hjs
          rw [ListStore.lists_setList_ne hjs, ListStore.lists_setList_ne hjd, hlists]
      rcases List.eq_nil_or_concat ns with rfl | ⟨ns, n, rfl⟩
      · have htail : (s.lists dest).tail = none := hdest.tail
        exact ⟨s, rfl, by simp [listMoveAll, hhead, htail, hsrctail], hsrc.links, rfl,
          fun a _ => rfl⟩
      · rw [List.concat_eq_append] at hdest hdisj ⊢
        have htail : (s.lists dest).tail = some n.1 := by simp [hdest.tail]
        have hmap : (ns ++ [n] ++ m :: ms).map Prod.fst =
            (ns ++ [n]).map Prod.fst ++ (m :: ms).map Prod.fst := List.map_append
        have hdesthead : (s.lists dest).head = ((ns ++ [n] ++ m :: ms).map Prod.fst).head? := by
          rw [hdest.head, hmap, List.head?_append_of_ne_nil _ (by simp)]
        obtain ⟨nnode, hnnode, -⟩ := hdest.node (n := n) (by simp)
        obtain ⟨mnode, hmnode, -⟩ := hsrc.node (n := m) (by simp)
        have hne' : ∀ a ∈ (ns ++ [n]).map Prod.fst, ∀ b ∈ (m :: ms).map Prod.fst, a ≠ b := by
          rintro a ha b hb rfl
          exact hdisj a ha hb
        have hmn : m.1 ≠ n.1 := (hne' n.1 (by simp) m.1 (by simp)).symm
        obtain ⟨s₁, hset₁, hnext₁, hprev₁, hdata₁, hlists₁, hitems₁⟩ :=
          ListStore.setNext_eq hnnode (some m.1)
        obtain ⟨s₂, hset₂, hnext₂, hprev₂, hdata₂, hlists₂, hitems₂⟩ :=
          ListStore.setPrev_eq ((hitems₁ m.1 hmn).trans hmnode) (some n.1)
        refine ⟨s₂, hlists₂.trans hlists₁, ?_, ?_, hdata₂.trans hdata₁, ?_⟩
        · simp [listMoveAll, hhead, htail, hsrctail, hset₁, hset₂, hdesthead]
        · rw [hmap, links_append]
          refine ⟨hdest.links.last ?_ ?_ ?_, hsrc.links.first ?_ ?_ ?_⟩
          · intro a ha
            simp [hprev₂, hprev₁, hne' a ha m.1 (by simp)]
          · intro a ha
            have han : a ≠ n.1 := by
              rintro rfl
              have hnodup := hdest.nodup
              rw [List.map_append, List.nodup_append] at hnodup
              exact hnodup.2.2 n.1 (by simpa using ha) n.1 (by simp) rfl
            simp [hnext₂, hnext₁, han]
          · simp [hnext₂, hnext₁]
          · intro a ha
            simp [hnext₂, hnext₁, (hne' n.1 (by simp) a ha).symm]
          · intro a ha
            have ham : a ≠ m.1 := by
              rintro rfl
              exact (List.nodup_cons.mp hsrc.nodup).1 ha
            simp [hprev₂, hprev₁, ham]
          · simp [hprev₂]
        · intro a ha
          simp only [List.map_append, List.map_cons, List.map_nil, List.mem_append, List.mem_cons,
            List.not_mem_nil, or_false, not_or] at ha
          rw [hitems₂ a ha.2.1, hitems₁ a ha.1.2]

end One

end LibCmutils
