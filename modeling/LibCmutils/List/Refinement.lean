import LibCmutils.List.Layout

/-!
List objects are sequences of nodes.

* `seqStep`: what a call means for sequences.
* `ListInv`: the layout of all lists at once, kept by every call (`listStep_inv`).
* `ListRepresents`: the same in terms of the two ways through a list.
* `list_refines`: after any sequence of calls every list is the sequence that the
  calls describe.
-/

namespace LibCmutils

variable {ι α : Type}

/-! ### All lists -/

/-- A call on some list object. -/
inductive ListAct (ι α : Type) where
  | addFront (list : ι) (data : Option α) (alloc : Option ℕ)
  | addTail (list : ι) (data : Option α) (alloc : Option ℕ)
  | removeFront (list : ι)
  | removeTail (list : ι)
  | remove (list : ι) (data : Option α)
  | moveAll (dest src : ι)

/-- `Alloc` gives what is not in use, and a list is not moved into itself. -/
def ListAct.Ok (s : ListStore ι α) : ListAct ι α → Prop
  | .addFront _ _ alloc | .addTail _ _ alloc => ∀ item, alloc = some item → s.items item = none
  | .moveAll dest src => dest ≠ src
  | _ => True

section Run

variable [DecidableEq ι] [DecidableEq α]

/-- One call, and the pointer it returns (`none` where it returns nothing). -/
def listStep (s : ListStore ι α) : ListAct ι α → Option (ListStore ι α × Option α)
  | .addFront list data alloc => (listAddFront s list data alloc).map fun s' => (s', none)
  | .addTail list data alloc => (listAddTail s list data alloc).map fun s' => (s', none)
  | .removeFront list => listRemoveFront s list
  | .removeTail list => listRemoveTail s list
  | .remove list data => listRemove s list data
  | .moveAll dest src => (listMoveAll s dest src).map fun s' => (s', none)

/-- What a call means for sequences of nodes, each with its data pointer. -/
def seqStep (m : ι → List (ℕ × Option α)) : ListAct ι α → (ι → List (ℕ × Option α)) × Option α
  | .addFront list data alloc =>
      (Function.update m list (alloc.toList.map (·, data) ++ m list), none)
  | .addTail list data alloc =>
      (Function.update m list (m list ++ alloc.toList.map (·, data)), none)
  | .removeFront list =>
      (Function.update m list (m list).tail, (m list).head?.bind Prod.snd)
  | .removeTail list =>
      (Function.update m list (m list).dropLast, (m list).getLast?.bind Prod.snd)
  | .remove list data =>
      (Function.update m list ((m list).eraseP fun n => n.2 = data),
        if ∃ n ∈ m list, n.2 = data then data else none)
  | .moveAll dest src =>
      (Function.update (Function.update m dest (m dest ++ m src)) src [], none)

/-- A sequence of calls, and what they return. -/
def listRun : ListStore ι α → List (ListAct ι α) → Option (ListStore ι α × List (Option α))
  | s, [] => some (s, [])
  | s, a :: acts => do
      let (s, res) ← listStep s a
      let (s, results) ← listRun s acts
      return (s, res :: results)

/-- The same calls on sequences. -/
def seqRun : (ι → List (ℕ × Option α)) → List (ListAct ι α) →
    (ι → List (ℕ × Option α)) × List (Option α)
  | m, [] => (m, [])
  | m, a :: acts =>
      let r := seqStep m a
      let rest := seqRun r.1 acts
      (rest.1, r.2 :: rest.2)

/-- Every call of the sequence is made in a state that allows it. -/
def ListActsOk : ListStore ι α → List (ListAct ι α) → Prop
  | _, [] => True
  | s, a :: acts => a.Ok s ∧ ∀ r, listStep s a = some r → ListActsOk r.1 acts

end Run

/-- The layout of all lists: each is laid out, no node is in two, and every allocated
node is in one. -/
structure ListInv (s : ListStore ι α) (m : ι → List (ℕ × Option α)) : Prop where
  layout : ∀ i, ListAt s i (m i)
  owner : ∀ i j a, a ∈ (m i).map Prod.fst → a ∈ (m j).map Prod.fst → i = j
  owned : ∀ a, s.items a ≠ none → ∃ i, a ∈ (m i).map Prod.fst

namespace ListInv

variable {s s' : ListStore ι α} {m : ι → List (ℕ × Option α)} {list : ι}
  {ns : List (ℕ × Option α)} {nodes : List ℕ}

lemma create : ListInv (listCreate : ListStore ι α) fun _ => [] where
  layout i := { links := trivial, head := rfl, tail := rfl, size := rfl, data := by simp }
  owner i j a h := by simp at h
  owned a h := (h rfl).elim

variable [DecidableEq ι]

/-- An operation on one list that takes new nodes only and frees what it drops. -/
lemma update (h : ListInv s m) (hat : ListAt s' list ns) (hframe : ListFrame s s' list nodes)
    (hsub : ∀ a ∈ (m list).map Prod.fst, a ∈ nodes)
    (hnodes : ∀ a ∈ nodes, a ∈ (m list).map Prod.fst ∨ s.items a = none)
    (hnew : ∀ a ∈ ns.map Prod.fst, a ∈ nodes)
    (hold : ∀ a ∈ nodes, s'.items a ≠ none → a ∈ ns.map Prod.fst) :
    ListInv s' (Function.update m list ns) := by
  -- the nodes of another list are out of reach
  have hother : ∀ i, i ≠ list → ∀ a ∈ (m i).map Prod.fst, a ∉ nodes := by
    intro i hi a ha hmem
    rcases hnodes a hmem with hmem | hfree
    · exact hi (h.owner i list a ha hmem)
    · exact (h.layout i).ne_of_free hfree ha
  refine ⟨fun i => ?_, fun i j a hi hj => ?_, fun a ha => ?_⟩
  · by_cases hi : i = list
    · subst hi
      rwa [Function.update_self]
    · rw [Function.update_of_ne hi]
      exact (h.layout i).congr (fun a ha => hframe.items a (hother i hi a ha)) (hframe.lists i hi)
  · by_cases hil : i = list <;> by_cases hjl : j = list
    · rw [hil, hjl]
    · rw [hil, Function.update_self] at hi
      rw [Function.update_of_ne hjl] at hj
      exact (hother j hjl a hj (hnew a hi)).elim
    · rw [hjl, Function.update_self] at hj
      rw [Function.update_of_ne hil] at hi
      exact (hother i hil a hi (hnew a hj)).elim
    · rw [Function.update_of_ne hil] at hi
      rw [Function.update_of_ne hjl] at hj
      exact h.owner i j a hi hj
  · by_cases hmem : a ∈ nodes
    · exact ⟨list, by rw [Function.update_self]; exact hold a hmem ha⟩
    · rw [hframe.items a hmem] at ha
      obtain ⟨i, hi⟩ := h.owned a ha
      have hil : i ≠ list := by
        rintro rfl
        exact hmem (hsub a hi)
      exact ⟨i, by rwa [Function.update_of_ne hil]⟩

/-- An operation that adds a new node. -/
lemma add (h : ListInv s m) {item : ℕ} (hitem : s.items item = none)
    (hat : ListAt s' list ns) (hframe : ListFrame s s' list (item :: (m list).map Prod.fst))
    (hns : ∀ a, a ∈ ns.map Prod.fst ↔ a = item ∨ a ∈ (m list).map Prod.fst) :
    ListInv s' (Function.update m list ns) := by
  refine h.update hat hframe (fun a ha => List.mem_cons_of_mem _ ha) ?_ ?_ ?_
  · intro a ha
    rcases List.mem_cons.mp ha with rfl | ha
    · exact .inr hitem
    · exact .inl ha
  · exact fun a ha => List.mem_cons.mpr ((hns a).mp ha)
  · exact fun a ha _ => (hns a).mpr (List.mem_cons.mp ha)

/-- An operation that frees a node. -/
lemma drop (h : ListInv s m) {item : ℕ} (hitem : s'.items item = none) (hat : ListAt s' list ns)
    (hframe : ListFrame s s' list ((m list).map Prod.fst))
    (hns : ∀ a, a ∈ (m list).map Prod.fst ↔ a = item ∨ a ∈ ns.map Prod.fst) :
    ListInv s' (Function.update m list ns) := by
  refine h.update hat hframe (fun _ ha => ha) (fun _ ha => .inl ha) ?_ ?_
  · exact fun a ha => (hns a).mpr (.inr ha)
  · intro a ha hlive
    rcases (hns a).mp ha with rfl | ha
    · exact (hlive hitem).elim
    · exact ha

end ListInv

section Steps

variable [DecidableEq ι] [DecidableEq α] {s s' : ListStore ι α} {m : ι → List (ℕ × Option α)}

/-- `Remove` on sequences of nodes: the first node that holds `data` goes. -/
lemma listRemove_inv (h : ListInv s m) (list : ι) (data : Option α) :
    ∃ s', listRemove s list data =
        some (s', if ∃ n ∈ m list, n.2 = data then data else none) ∧
      ListInv s' (Function.update m list ((m list).eraseP fun n => n.2 = data)) := by
  by_cases hex : ∃ n ∈ m list, n.2 = data
  · obtain ⟨k, hk, hkdata⟩ := hex
    obtain ⟨n, ls, rs, hls, hn, hsplit, herase⟩ :=
      List.exists_of_eraseP (p := fun n : ℕ × Option α => decide (n.2 = data)) hk (by simpa)
    have hat := h.layout list
    rw [hsplit] at hat
    obtain ⟨s', hrem, hat', hfree, hframe⟩ :=
      listRemove_spec hat (fun m hm => by simpa using hls m hm) (by simpa using hn)
    refine ⟨s', by rw [hrem, if_pos ⟨k, hk, hkdata⟩], ?_⟩
    rw [herase]
    refine h.drop hfree hat' (hsplit ▸ hframe) fun a => ?_
    rw [hsplit]
    simp only [List.map_append, List.map_cons, List.mem_append, List.mem_cons]
    tauto
  · refine ⟨s, ?_, ?_⟩
    · rw [if_neg hex]
      exact listRemove_of_notMem (h.layout list) fun n hn hdata => hex ⟨n, hn, hdata⟩
    · rwa [List.eraseP_of_forall_not (fun n hn hdata => hex ⟨n, hn, by simpa using hdata⟩),
        Function.update_eq_self]

omit [DecidableEq α] in
/-- Two lists that are spliced stay one layout. -/
lemma listMoveAll_inv (h : ListInv s m) {dest src : ι} (hne : dest ≠ src) :
    ∃ s', listMoveAll s dest src = some s' ∧
      ListInv s' (Function.update (Function.update m dest (m dest ++ m src)) src []) := by
  obtain ⟨s', hmove, hdest, hsrc, hitems, hlists⟩ :=
    listMoveAll_spec hne (h.layout dest) (h.layout src)
      fun a hd hs => hne (h.owner dest src a hd hs)
  have hmem : ∀ i a, a ∈ ((Function.update (Function.update m dest (m dest ++ m src)) src [] i).map
      Prod.fst) ↔ (i = dest ∧ (a ∈ (m dest).map Prod.fst ∨ a ∈ (m src).map Prod.fst)) ∨
        (i ≠ dest ∧ i ≠ src ∧ a ∈ (m i).map Prod.fst) := by
    intro i a
    by_cases hs : i = src
    · subst hs
      simp [hne.symm]
    · by_cases hd : i = dest
      · subst hd
        simp [hs]
      · simp [hs, hd]
  -- every node keeps its list, or goes from `src` to `dest`
  refine ⟨s', hmove, ⟨fun i => ?_, fun i j a hi hj => ?_, fun a ha => ?_⟩⟩
  · by_cases hs : i = src
    · subst hs
      rwa [Function.update_self]
    · by_cases hd : i = dest
      · subst hd
        rwa [Function.update_of_ne hs, Function.update_self]
      · rw [Function.update_of_ne hs, Function.update_of_ne hd]
        refine (h.layout i).congr (fun a ha => hitems a ?_) (hlists i hd hs)
        rw [List.map_append, List.mem_append]
        rintro (hmem | hmem)
        · exact hd (h.owner i dest a ha hmem)
        · exact hs (h.owner i src a ha hmem)
  · have howner := h.owner
    rw [hmem] at hi hj
    rcases hi with ⟨rfl, hi⟩ | ⟨hid, his, hi⟩ <;> rcases hj with ⟨rfl, hj⟩ | ⟨hjd, hjs, hj⟩
    · rfl
    · rcases hi with hi | hi
      · exact howner _ _ a hi hj
      · exact (hjs (howner _ _ a hj hi)).elim
    · rcases hj with hj | hj
      · exact howner _ _ a hi hj
      · exact (his (howner _ _ a hi hj)).elim
    · exact howner _ _ a hi hj
  · simp only [hmem]
    by_cases hin : a ∈ (m dest ++ m src).map Prod.fst
    · rw [List.map_append, List.mem_append] at hin
      exact ⟨dest, .inl ⟨rfl, hin⟩⟩
    · rw [hitems a hin] at ha
      rw [List.map_append, List.mem_append, not_or] at hin
      obtain ⟨i, hi⟩ := h.owned a ha
      refine ⟨i, .inr ⟨?_, ?_, hi⟩⟩
      · rintro rfl
        exact hin.1 hi
      · rintro rfl
        exact hin.2 hi

/-- **Every call keeps the layout.** It returns, and it does to the sequences what it
should. -/
theorem listStep_inv (h : ListInv s m) {a : ListAct ι α} (ha : a.Ok s) :
    ∃ s', listStep s a = some (s', (seqStep m a).2) ∧ ListInv s' (seqStep m a).1 := by
  cases a with
  | addFront list data alloc =>
      cases alloc with
      | none => exact ⟨s, rfl, by simpa [seqStep] using h⟩
      | some item =>
          obtain ⟨s', hadd, hat, hframe⟩ := listAddFront_spec (h.layout list) (ha item rfl) data
          refine ⟨s', by simp [listStep, hadd, seqStep], h.add (ha item rfl) hat hframe ?_⟩
          exact fun a => by simp
  | addTail list data alloc =>
      cases alloc with
      | none => exact ⟨s, rfl, by simpa [seqStep] using h⟩
      | some item =>
          obtain ⟨s', hadd, hat, hframe⟩ := listAddTail_spec (h.layout list) (ha item rfl) data
          refine ⟨s', by simp [listStep, hadd, seqStep], h.add (ha item rfl) hat hframe ?_⟩
          exact fun a => by simp [or_comm]
  | removeFront list =>
      have hat := h.layout list
      cases hm : m list with
      | nil =>
          rw [hm] at hat
          have hhead : (s.lists list).head = none := hat.head
          refine ⟨s, by simp [listStep, listRemoveFront, hhead, seqStep, hm], ?_⟩
          have hsame : Function.update m list [] = m := by rw [← hm, Function.update_eq_self]
          simpa [seqStep, hm, hsame] using h
      | cons n ns =>
          rw [hm] at hat
          obtain ⟨s', hrem, hat', hfree, hframe⟩ := listRemoveFront_spec hat
          refine ⟨s', by simp [listStep, hrem, seqStep, hm], ?_⟩
          simp only [seqStep, hm, List.tail_cons]
          exact h.drop hfree hat' (hm ▸ hframe) fun a => by simp [hm]
  | removeTail list =>
      have hat := h.layout list
      rcases List.eq_nil_or_concat (m list) with hm | ⟨ns, n, hm⟩
      · rw [hm] at hat
        have htail : (s.lists list).tail = none := hat.tail
        refine ⟨s, by simp [listStep, listRemoveTail, htail, seqStep, hm], ?_⟩
        have hsame : Function.update m list [] = m := by rw [← hm, Function.update_eq_self]
        simpa [seqStep, hm, hsame] using h
      · rw [List.concat_eq_append] at hm
        rw [hm] at hat
        obtain ⟨s', hrem, hat', hfree, hframe⟩ := listRemoveTail_spec hat
        refine ⟨s', by simp [listStep, hrem, seqStep, hm], ?_⟩
        simp only [seqStep, hm, List.dropLast_concat]
        exact h.drop hfree hat' (hm ▸ hframe) fun a => by simp [hm, or_comm]
  | remove list data => exact listRemove_inv h list data
  | moveAll dest src =>
      obtain ⟨s', hmove, hinv⟩ := listMoveAll_inv h ha
      exact ⟨s', by simp [listStep, hmove, seqStep], hinv⟩

/-- A whole sequence of calls. -/
lemma listRun_inv (h : ListInv s m) {acts : List (ListAct ι α)} (hacts : ListActsOk s acts) :
    ∃ s', listRun s acts = some (s', (seqRun m acts).2) ∧ ListInv s' (seqRun m acts).1 := by
  induction acts generalizing s m with
  | nil => exact ⟨s, rfl, h⟩
  | cons a acts ih =>
      obtain ⟨s₁, hstep, h₁⟩ := listStep_inv h hacts.1
      obtain ⟨s₂, hrun, h₂⟩ := ih h₁ (hacts.2 _ hstep)
      exact ⟨s₂, by simp [listRun, hstep, hrun, seqRun], h₂⟩

end Steps

/-! ### The main result -/

/-- The lists of the store are the sequences `m` of nodes, each with its data pointer. -/
structure ListRepresents (s : ListStore ι α) (m : ι → List (ℕ × Option α)) : Prop where
  /-- The links forward lead from the head through the nodes. -/
  forward : ∀ i, Linked s.next (s.lists i).head ((m i).map Prod.fst)
  /-- The links backward lead from the tail through the same nodes. -/
  backward : ∀ i, Linked s.prev (s.lists i).tail ((m i).map Prod.fst).reverse
  /-- The size is the length. -/
  size : ∀ i, (s.lists i).size = (m i).length
  /-- The nodes are allocated and hold the data pointers. -/
  data : ∀ i, ∀ n ∈ m i, s.data n.1 = some n.2
  /-- No list has a node twice, and no two lists share one. -/
  nodup : ∀ i, ((m i).map Prod.fst).Nodup
  owner : ∀ i j a, a ∈ (m i).map Prod.fst → a ∈ (m j).map Prod.fst → i = j
  /-- No node is lost. -/
  owned : ∀ a, s.items a ≠ none → ∃ i, a ∈ (m i).map Prod.fst

lemma ListInv.represents {s : ListStore ι α} {m : ι → List (ℕ × Option α)} (h : ListInv s m) :
    ListRepresents s m where
  forward i := (h.layout i).head ▸ (h.layout i).links.forward
  backward i := (h.layout i).tail ▸ (h.layout i).links.backward
  size i := (h.layout i).size
  data i := (h.layout i).data
  nodup i := (h.layout i).nodup
  owner := h.owner
  owned := h.owned

/-- **Lists are sequences.** Every sequence of calls on list objects that start empty
returns what the same calls return on sequences, and leaves each list as that sequence. -/
theorem list_refines [DecidableEq ι] [DecidableEq α] (acts : List (ListAct ι α))
    (hacts : ListActsOk listCreate acts) :
    ∃ s, listRun listCreate acts = some (s, (seqRun (fun _ => []) acts).2) ∧
      ListRepresents s (seqRun (fun _ => []) acts).1 := by
  obtain ⟨s, hrun, hinv⟩ := listRun_inv ListInv.create hacts
  exact ⟨s, hrun, hinv.represents⟩

/-- Two lists, one moved behind the other. -/
theorem list_refines_moveAll :
    ∃ s, listRun (listCreate : ListStore Bool ℕ)
        [.addTail false (some 7) (some 1), .addFront true (some 8) (some 2), .moveAll true false,
          .remove true (some 8)] = some (s, [none, none, none, some 8]) ∧
      ListRepresents s
        (seqRun (fun _ => []) [.addTail false (some 7) (some 1), .addFront true (some 8) (some 2),
          .moveAll true false, .remove true (some 8)]).1 := by
  refine list_refines _ ⟨?_, ?_⟩
  · rintro item ⟨⟩
    rfl
  · rintro r ⟨⟩
    refine ⟨?_, ?_⟩
    · rintro item ⟨⟩
      rfl
    · rintro r ⟨⟩
      refine ⟨nofun, ?_⟩
      rintro r ⟨⟩
      exact ⟨trivial, fun _ _ => trivial⟩

end LibCmutils
