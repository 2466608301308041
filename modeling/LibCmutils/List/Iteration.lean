import LibCmutils.List.Refinement

/-!
The loop over a list: `Next` while `HasNext`.

* `listIterLoop_of_links`: without a `NULL` among the elements the loop returns them
  all, one for each call of `Next`.
* `listIterLoop_of_null`: `Next` does not get past a `NULL`, and the loop does not end.
* `listIteration_iff`: the loop is right exactly for the lists without `NULL`.
-/

namespace LibCmutils

variable {ι α : Type} {s : ListStore ι α}

/-- The loop over `list` ends after as many calls of `Next` as the list has nodes, and
the calls return `elements`, in this order. -/
def ListIterationOk (s : ListStore ι α) (list : ι) (elements : List (Option α)) : Prop :=
  ∀ fuel, listIterLoop s fuel (listIterator s list) =
    if (s.lists list).size ≤ fuel then some elements else none

/-- One turn of the loop. -/
lemma listIterLoop_succ {item : ℕ} {node : ListItem α} (h : s.items item = some node) (fuel : ℕ) :
    listIterLoop s (fuel + 1) { curr := some item } =
      (listIterLoop s fuel
        (if node.data.isSome then { curr := node.next } else { curr := some item })).map
          (node.data :: ·) := by
  simp only [listIterLoop, listIterHasNext, listIterNext, h, Option.isSome_some, if_true,
    Option.map_eq_bind]
  rfl

/-- The loop over linked nodes without a `NULL`. -/
lemma listIterLoop_of_links {p : Option ℕ} {ns : List (ℕ × Option α)}
    (hlinks : Links s.next s.prev p (ns.map Prod.fst) none)
    (hdata : ∀ n ∈ ns, s.data n.1 = some n.2) (hnull : none ∉ ns.map Prod.snd) (fuel : ℕ) :
    listIterLoop s fuel { curr := (ns.map Prod.fst).head? } =
      if ns.length ≤ fuel then some (ns.map Prod.snd) else none := by
  induction ns generalizing p fuel with
  | nil => cases fuel <;> rfl
  | cons n ns ih =>
      obtain ⟨node, hnode, hnodedata⟩ := Option.map_eq_some_iff.mp (hdata n (by simp))
      obtain ⟨-, hnext, hlinks⟩ := hlinks
      rw [ListStore.next_eq hnode, Option.or_none] at hnext
      have hsome : node.data.isSome := by
        rw [hnodedata, Option.isSome_iff_ne_none]
        exact fun heq => hnull (by simp [heq])
      cases fuel with
      | zero => rfl
      | succ fuel =>
          have hrest := ih hlinks (fun k hk => hdata k (List.mem_cons_of_mem _ hk))
            (fun hmem => hnull (List.mem_cons_of_mem _ hmem)) fuel
          rw [List.map_cons, List.head?_cons, listIterLoop_succ hnode, if_pos hsome, hnext, hrest]
          by_cases hle : ns.length ≤ fuel <;> simp [hle, hnodedata]

/-- `Next` stays at a node that holds `NULL`. -/
lemma listIterLoop_stuck {item : ℕ} (h : s.data item = some none) (fuel : ℕ) :
    listIterLoop s fuel { curr := some item } = none := by
  obtain ⟨node, hnode, hnull⟩ := Option.map_eq_some_iff.mp h
  induction fuel with
  | zero => rfl
  | succ fuel ih =>
      rw [listIterLoop_succ hnode, if_neg (by simp [hnull]), ih, Option.map_none]

/-- The loop over linked nodes with a `NULL` does not end. -/
lemma listIterLoop_of_null {p : Option ℕ} {ns : List (ℕ × Option α)}
    (hlinks : Links s.next s.prev p (ns.map Prod.fst) none)
    (hdata : ∀ n ∈ ns, s.data n.1 = some n.2) (hnull : none ∈ ns.map Prod.snd) (fuel : ℕ) :
    listIterLoop s fuel { curr := (ns.map Prod.fst).head? } = none := by
  induction ns generalizing p fuel with
  | nil => simp at hnull
  | cons n ns ih =>
      have hn := hdata n (by simp)
      cases hdatan : n.2 with
      | none => exact listIterLoop_stuck (hn.trans (by rw [hdatan])) fuel
      | some data =>
          obtain ⟨node, hnode, hnodedata⟩ := Option.map_eq_some_iff.mp hn
          obtain ⟨-, hnext, hlinks⟩ := hlinks
          rw [ListStore.next_eq hnode, Option.or_none] at hnext
          cases fuel with
          | zero => rfl
          | succ fuel =>
              have hrest := ih hlinks (fun k hk => hdata k (List.mem_cons_of_mem _ hk))
                (by simpa [hdatan] using hnull) fuel
              rw [List.map_cons, List.head?_cons, listIterLoop_succ hnode,
                if_pos (by rw [hnodedata, hdatan]; rfl), hnext, hrest, Option.map_none]

/-- The loop over one list. -/
lemma ListAt.iteration_iff {list : ι} {ns : List (ℕ × Option α)} (h : ListAt s list ns) :
    ListIterationOk s list (ns.map Prod.snd) ↔ none ∉ ns.map Prod.snd := by
  have hcurr : listIterator s list = { curr := (ns.map Prod.fst).head? } :=
    congrArg ListIter.mk h.head
  constructor
  · intro hok hnull
    have hend := hok (s.lists list).size
    rw [if_pos (Nat.le_refl _), hcurr, listIterLoop_of_null h.links h.data hnull] at hend
    cases hend
  · intro hnull fuel
    rw [hcurr, h.size, listIterLoop_of_links h.links h.data hnull]

/-- **The loop over a list.** After any sequence of calls, the loop over a list returns
its elements, each once and in order, in as many calls as its size, exactly when `NULL`
is not one of them. -/
theorem listIteration_iff [DecidableEq ι] [DecidableEq α] (acts : List (ListAct ι α))
    (hacts : ListActsOk listCreate acts) :
    ∃ s results, listRun listCreate acts = some (s, results) ∧ ∀ list,
      ListIterationOk s list (((seqRun (fun _ => []) acts).1 list).map Prod.snd) ↔
        none ∉ ((seqRun (fun _ => []) acts).1 list).map Prod.snd := by
  obtain ⟨s, hrun, hinv⟩ := listRun_inv ListInv.create hacts
  exact ⟨s, _, hrun, fun list => (hinv.layout list).iteration_iff⟩

/-- A list of one element that is not `NULL`. -/
theorem listIteration_iff_addTail :
    ∃ s results, listRun (listCreate : ListStore Unit ℕ) [.addTail () (some 7) (some 1)] =
        some (s, results) ∧ ∀ list,
      ListIterationOk s list (((seqRun (fun _ => [])
        [.addTail () (some 7) (some 1)]).1 list).map Prod.snd) ↔
        none ∉ ((seqRun (fun _ => []) [.addTail () (some 7) (some 1)]).1 list).map Prod.snd := by
  refine listIteration_iff _ ⟨?_, fun _ _ => trivial⟩
  rintro item ⟨⟩
  rfl

/-- The loop over a list of one `NULL` does not end, however often `Next` is called. -/
theorem listIteration_null :
    ∃ s, ListActsOk (listCreate : ListStore Unit ℕ) [.addTail () none (some 1)] ∧
      listRun (listCreate : ListStore Unit ℕ) [.addTail () none (some 1)] = some (s, [none]) ∧
      (s.lists ()).size = 1 ∧ ¬ ListIterationOk s () [none] ∧
      ∀ fuel, listIterLoop s fuel (listIterator s ()) = none := by
  refine ⟨_, ⟨?_, fun _ _ => trivial⟩, rfl, rfl, ?_, ?_⟩
  · rintro item ⟨⟩
    rfl
  · intro hok
    have hend := hok 1
    cases hend
  · exact listIterLoop_stuck rfl

end LibCmutils
