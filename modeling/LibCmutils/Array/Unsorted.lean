import LibCmutils.Array.Basic

/-!
Unsorted arrays are lists.

* `arrayFind_spec`: the linear search finds the first match, when its 32-bit index
  reaches it.
* `UnsortedOp`, `unsortedStep`: the calls on an unsorted array, where the allocator may
  fail. `unsortedSpec`: what they mean for lists.
* `UnsortedFits`: the 32-bit numbers of the code are wide enough for a call.
* `unsortedArray_refines`: calls that fit do what they mean. `arrayPop_first`: one that
  does not fit.
-/

namespace LibCmutils

universe u
variable {α : Type u} {a : ArrayInternal α} {l pre post : List α} {alloc : Bool}

/-! ### Growth that may fail -/

/-- There is room for one more item, or the allocator makes it. -/
def arrayRoom (a : ArrayInternal α) (alloc : Bool) : Bool := a.size < a.capacity || alloc

/-- Without need to grow the allocator is not asked. -/
lemma arrayCheckSize_of_room (h : arrayRoom a alloc) :
    arrayCheckSize alloc a 1 = arrayCheckSize true a 1 := by
  cases alloc with
  | true => rfl
  | false =>
      have hlt : a.size < a.capacity := by simpa [arrayRoom] using h
      have hcap : ¬ a.capacity < a.size + 1 := by omega
      simp only [arrayCheckSize, hcap, if_false]

/-- No room and no memory. -/
lemma arrayCheckSize_of_full (h : ¬ arrayRoom a alloc) : arrayCheckSize alloc a 1 = none := by
  have hfull : a.capacity ≤ a.size ∧ alloc = false := by simpa [arrayRoom] using h
  have hcap : a.capacity < a.size + 1 := by omega
  simp only [arrayCheckSize, hcap, hfull.2, if_true]
  rfl

/-- Insertion at the end of the first part. -/
lemma insertIdx_length_append (x : α) : (pre ++ post).insertIdx pre.length x = pre ++ x :: post := by
  induction pre with
  | nil => simp
  | cons y pre ih => simp [ih]

/-- `InsertAt` at any index: it inserts, or leaves the items alone. -/
lemma arrayInsertAt_spec (alloc : Bool) (h : Holds a l) (hsort : a.issorted = false) (x : α)
    (index : ℕ) :
    ∃ a', arrayInsertAt alloc a x index =
        (a', if arrayRoom a alloc ∧ index ≤ l.length then some x else none) ∧
      Holds a' (if arrayRoom a alloc ∧ index ≤ l.length then l.insertIdx index x else l) ∧
      SameKind a a' := by
  rw [arrayInsertAt, if_neg (by simp [hsort])]
  by_cases hroom : arrayRoom a alloc
  · by_cases hidx : index ≤ l.length
    · obtain ⟨pre, post, rfl, rfl⟩ : ∃ pre post, l = pre ++ post ∧ index = pre.length :=
        ⟨l.take index, l.drop index, by simp, by simp [hidx]⟩
      obtain ⟨a', hins, hholds, hkind⟩ := arrayInsertAtPrivate_spec h x
      refine ⟨a', ?_, ?_, hkind⟩
      · rw [if_pos ⟨hroom, hidx⟩, ← hins, arrayInsertAtPrivate, arrayInsertAtPrivate,
          arrayCheckSize_of_room hroom]
      · rwa [if_pos ⟨hroom, hidx⟩, insertIdx_length_append]
    · obtain ⟨a', hcheck, hholds, -, hkind⟩ := arrayCheckSize_spec h 1
      have hsize : a'.size < index := by
        rw [hholds.size_eq]
        omega
      refine ⟨a', ?_, ?_, hkind⟩
      · rw [if_neg (fun hc => hidx hc.2), arrayInsertAtPrivate, arrayCheckSize_of_room hroom]
        simp only [hcheck, hsize, if_true]
      · rwa [if_neg (fun hc => hidx hc.2)]
  · refine ⟨a, ?_, ?_, rfl, rfl, rfl⟩
    · rw [if_neg (fun hc => hroom hc.1), arrayInsertAtPrivate, arrayCheckSize_of_full hroom]
    · rwa [if_neg (fun hc => hroom hc.1)]

/-- `Add` and `Push` to an unsorted array. -/
lemma arrayAdd_spec [DecidableEq α] (alloc : Bool) (h : Holds a l) (hsort : a.issorted = false)
    (x : α) (hasret : Bool) :
    ∃ a', arrayAdd alloc a x hasret =
        some (a', { result := arrayRoom a alloc, ret := none, freed := none }) ∧
      Holds a' (if arrayRoom a alloc then l ++ [x] else l) ∧ SameKind a a' := by
  rw [arrayAdd, if_neg (by simp [hsort])]
  by_cases hroom : arrayRoom a alloc
  · rw [arrayCheckSize_of_room hroom, if_pos hroom, hroom]
    obtain ⟨a', hcheck, hholds, hcap, hkind⟩ := arrayCheckSize_spec h 1
    simp only [hcheck]
    refine ⟨_, rfl, ?_, hkind.comparator, hkind.freecb, hkind.issorted⟩
    obtain ⟨⟨rest, hrest⟩, hsize⟩ := hholds
    obtain ⟨c, rest, rfl⟩ : ∃ c tl, rest = c :: tl := by
      cases rest with
      | nil =>
          rw [ArrayInternal.capacity, ← hrest] at hcap
          simp at hcap
      | cons c tl => exact ⟨c, tl, rfl⟩
    refine ⟨⟨rest, ?_⟩, by simp [hsize]⟩
    rw [← hrest, hsize]
    simp
  · rw [arrayCheckSize_of_full hroom, if_neg hroom]
    refine ⟨a, ?_, h, rfl, rfl, rfl⟩
    rw [Bool.not_eq_true] at hroom
    simp only [hroom]

/-- `RemoveAt` at any index. -/
lemma arrayRemoveAt_eraseIdx (h : Holds a l) (index : ℕ) :
    ∃ a', arrayRemoveAt a index = (a', l[index]?) ∧ Holds a' (l.eraseIdx index) ∧
      SameKind a a' := by
  by_cases hidx : index < l.length
  · obtain ⟨pre, y, post, rfl, rfl⟩ : ∃ pre y post, l = pre ++ y :: post ∧ index = pre.length :=
      ⟨l.take index, l[index], l.drop (index + 1), by simp, by simp [hidx.le]⟩
    obtain ⟨a', hrem, hholds, hkind⟩ := arrayRemoveAt_spec h
    exact ⟨a', by simpa using hrem, by simpa [List.eraseIdx_append_of_length_le] using hholds,
      hkind⟩
  · rw [not_lt] at hidx
    refine ⟨a, ?_, ?_, rfl, rfl, rfl⟩
    · rw [arrayRemoveAt_of_le h hidx, List.getElem?_eq_none hidx]
    · rwa [List.eraseIdx_of_length_le hidx]

/-- `SetAt` at any index. -/
lemma arraySetAt_spec (h : Holds a l) (hsort : a.issorted = false) (x : α) (index : ℕ) :
    ∃ a', arraySetAt a x index = (a', l[index]?) ∧ Holds a' (l.set index x) ∧ SameKind a a' := by
  rw [arraySetAt, if_neg (by simp [hsort]), arraySetAtPrivate]
  by_cases hidx : index < l.length
  · rw [if_pos (by rwa [h.size_eq]), h.cell_eq hidx]
    obtain ⟨pre, y, post, rfl, rfl⟩ : ∃ pre y post, l = pre ++ y :: post ∧ index = pre.length :=
      ⟨l.take index, l[index], l.drop (index + 1), by simp, by simp [hidx.le]⟩
    refine ⟨_, rfl, ?_, rfl, rfl, rfl⟩
    rw [List.set_append_right _ _ (le_refl _), Nat.sub_self, List.set_cons_zero]
    exact h.set x
  · rw [if_neg (by rwa [h.size_eq])]
    rw [not_lt] at hidx
    refine ⟨a, ?_, ?_, rfl, rfl, rfl⟩
    · rw [List.getElem?_eq_none hidx]
    · rwa [List.set_eq_of_length_le hidx]

/-- The index of the last item, cast to a `uint32_t`. -/
lemma lastIndex_mod {n : ℕ} (hn : n ≤ 2 ^ 32) (hpos : 0 < n) : (n - 1) % 2 ^ 32 = n - 1 :=
  Nat.mod_eq_of_lt (by omega)

/-- `Pop`, when the index of the last item is a `uint32_t`. -/
lemma arrayPop_spec (h : Holds a l) (hsize : a.size ≤ 2 ^ 32) :
    ∃ a', arrayPop a = (a', l.getLast?) ∧ Holds a' l.dropLast ∧ SameKind a a' := by
  rw [arrayPop]
  by_cases hpos : 0 < a.size
  · obtain ⟨a', hrem, hholds, hkind⟩ := arrayRemoveAt_eraseIdx h (l.length - 1)
    refine ⟨a', ?_, ?_, hkind⟩
    · rw [if_pos hpos, lastIndex_mod hsize hpos, h.size_eq, hrem, List.getLast?_eq_getElem?]
    · rwa [List.eraseIdx_length_sub_one] at hholds
  · obtain rfl : l = [] := by
      rw [h.size_eq] at hpos
      exact List.length_eq_zero_iff.mp (by omega)
    exact ⟨a, if_neg hpos, h, rfl, rfl, rfl⟩

/-- `Top`, when the index of the last item is a `uint32_t`. -/
lemma arrayTop_spec (h : Holds a l) (hsize : a.size ≤ 2 ^ 32) : arrayTop a = l.getLast? := by
  rw [arrayTop]
  by_cases hpos : 0 < a.size
  · rw [if_pos hpos, lastIndex_mod hsize hpos, h.getAt_eq, h.size_eq, List.getLast?_eq_getElem?]
  · obtain rfl : l = [] := by
      rw [h.size_eq] at hpos
      exact List.length_eq_zero_iff.mp (by omega)
    exact if_neg hpos

lemma arrayBottom_spec (h : Holds a l) : arrayBottom a = l.head? := by
  rw [arrayBottom, h.getAt_eq, h.size_eq]
  cases l <;> simp

/-! ### The linear search -/

section Find

variable [DecidableEq α] {compval : α}

/-- The search from behind `pre` on. -/
lemma arrayFindLoop_spec (pre : List α) (h : Holds a (pre ++ post)) (fuel : ℕ) (hfuel : post.length ≤ fuel)
    (hfits : pre.length + post.length < 2 ^ 32 ∨
      ∃ x ∈ post.take (2 ^ 32 - pre.length), arrayMatches a compval x) :
    arrayFindLoop a compval fuel pre.length =
      some ((post.zipIdx pre.length).find? fun y => arrayMatches a compval y.1) := by
  induction post generalizing pre fuel with
  | nil =>
      have hsize : ¬ pre.length < a.size := by simp [h.size_eq]
      cases fuel <;> simp only [arrayFindLoop, hsize, if_false] <;> rfl
  | cons y post ih =>
      obtain ⟨fuel, rfl⟩ : ∃ f, fuel = f + 1 := ⟨fuel - 1, by simp at hfuel; omega⟩
      have hsize : pre.length < a.size := by simp [h.size_eq]
      have hcell : a.cell pre.length = some y := by
        rw [h.cell_eq (by simp)]
        simp
      simp only [arrayFindLoop, hsize, if_true, hcell, List.zipIdx_cons, List.find?_cons]
      by_cases hy : arrayMatches a compval y
      · have hfilter : (some y).filter (arrayMatches a compval) = some y := by
          simp [Option.filter, hy]
        simp only [hfilter, hy]
      · -- the index does not wrap: what is searched lies ahead
        have hlt : pre.length + 1 < 2 ^ 32 := by
          rcases hfits with hlt | ⟨x, hx, hmatch⟩
          · simp only [List.length_cons] at hlt
            omega
          · by_contra hge
            have htake : 2 ^ 32 - pre.length ≤ 1 := by omega
            have hmem := List.take_subset_take_left (y :: post) htake hx
            simp only [List.take_succ_cons, List.take_zero, List.mem_singleton] at hmem
            exact hy (hmem ▸ hmatch)
        have hrest := ih (pre ++ [y]) (by simpa using h) fuel
          (by simpa using hfuel) ?_
        · have hfilter : (some y).filter (arrayMatches a compval) = none := by
            simp [Option.filter, hy]
          simp only [hfilter, Nat.mod_eq_of_lt hlt, hy]
          simpa using hrest
        · rcases hfits with hlt | ⟨x, hx, hmatch⟩
          · left
            simp only [List.length_append, List.length_cons, List.length_nil] at hlt ⊢
            omega
          · right
            have hsucc : 2 ^ 32 - pre.length = (2 ^ 32 - (pre ++ [y]).length) + 1 := by
              simp only [List.length_append, List.length_cons, List.length_nil]
              omega
            rw [hsucc, List.take_succ_cons] at hx
            rcases List.mem_cons.mp hx with rfl | hx
            · exact (hy hmatch).elim
            · exact ⟨x, hx, hmatch⟩

/-- The search of `CMUTIL_ArrayFind` in an unsorted array. -/
lemma arrayFind_spec (h : Holds a l) (hsort : a.issorted = false)
    (hfits : l.length < 2 ^ 32 ∨ ∃ x ∈ l.take (2 ^ 32), arrayMatches a compval x) :
    arrayFind a compval = some (l.zipIdx.find? fun y => arrayMatches a compval y.1) := by
  rw [arrayFind, if_neg (by simp [hsort]), h.size_eq]
  exact arrayFindLoop_spec [] h _ (le_refl _) (by simpa using hfits)

end Find

/-! ### The calls -/

/-- A call on an unsorted array; `alloc` is the answer of the allocator. -/
inductive UnsortedOp (α : Type u) where
  | add (item : α) (hasret alloc : Bool)
  | insertAt (item : α) (index : ℕ) (alloc : Bool)
  | setAt (item : α) (index : ℕ)
  | removeAt (index : ℕ)
  | remove (compval : α)
  | find (compval : α)
  | push (item : α) (alloc : Bool)
  | pop
  | top
  | bottom
  | clear

/-- What a call returns: success or not, an item or `NULL`, an item with its index, or
the items that went to the free callback. -/
inductive UnsortedOut (α : Type u) where
  | flag (result : Bool)
  | item (res : Option α)
  | found (res : Option (α × ℕ))
  | cleared (freed : List α)
  deriving DecidableEq

section Calls

variable [DecidableEq α]

/-- One call. -/
def unsortedStep (a : ArrayInternal α) : UnsortedOp α → Option (ArrayInternal α × UnsortedOut α)
  | .add item hasret alloc => (arrayAdd alloc a item hasret).map fun r => (r.1, .flag r.2.result)
  | .insertAt item index alloc =>
      some ((arrayInsertAt alloc a item index).1, .item (arrayInsertAt alloc a item index).2)
  | .setAt item index => some ((arraySetAt a item index).1, .item (arraySetAt a item index).2)
  | .removeAt index => some ((arrayRemoveAt a index).1, .item (arrayRemoveAt a index).2)
  | .remove compval => (arrayRemove a compval).map fun r => (r.1, .item r.2)
  | .find compval => (arrayFind a compval).map fun r => (a, .found r)
  | .push item alloc => (arrayPush alloc a item).map fun r => (r.1, .flag r.2)
  | .pop => some ((arrayPop a).1, .item (arrayPop a).2)
  | .top => some (a, .item (arrayTop a))
  | .bottom => some (a, .item (arrayBottom a))
  | .clear => some ((arrayClear a).1, .cleared (arrayClear a).2)

/-- What a call means for the list `l` of items. The array `a` says how items are matched,
whether there is a free callback, and whether there is room for one more item. -/
def unsortedSpec (a : ArrayInternal α) (l : List α) : UnsortedOp α → List α × UnsortedOut α
  | .add item _ alloc | .push item alloc =>
      if arrayRoom a alloc then (l ++ [item], .flag true) else (l, .flag false)
  | .insertAt item index alloc =>
      if arrayRoom a alloc ∧ index ≤ l.length then (l.insertIdx index item, .item (some item))
      else (l, .item none)
  | .setAt item index => (l.set index item, .item l[index]?)
  | .removeAt index => (l.eraseIdx index, .item l[index]?)
  | .remove compval =>
      match l.zipIdx.find? fun y => arrayMatches a compval y.1 with
      | some (item, index) => (l.eraseIdx index, .item (some item))
      | none => (l, .item none)
  | .find compval => (l, .found (l.zipIdx.find? fun y => arrayMatches a compval y.1))
  | .pop => (l.dropLast, .item l.getLast?)
  | .top => (l, .item l.getLast?)
  | .bottom => (l, .item l.head?)
  | .clear => ([], .cleared (if a.freecb then l else []))

/-- The numbers of the code are wide enough for the call: the index of the last item and
the indices a loop counts through are `uint32_t`s, and the bytes of a grown block are
counted by a `size_t`. -/
def UnsortedFits (a : ArrayInternal α) : UnsortedOp α → Prop
  | .add _ _ _ | .push _ _ | .insertAt _ _ _ => a.size < a.capacity ∨ a.capacity < 2 ^ 60
  | .pop | .top => a.size ≤ 2 ^ 32
  | .remove compval | .find compval => a.size < 2 ^ 32 ∨
      ∃ i < 2 ^ 32, ∃ x, arrayGetAt a i = some x ∧ arrayMatches a compval x
  | .clear => a.freecb = false ∨ a.size < 2 ^ 32
  | .setAt _ _ | .removeAt _ | .bottom => True

/-- The match that the search needs, as one of the first items of the list. -/
lemma exists_mem_take_of_getAt (h : Holds a l) {compval : α}
    (hfits : a.size < 2 ^ 32 ∨
      ∃ i < 2 ^ 32, ∃ x, arrayGetAt a i = some x ∧ arrayMatches a compval x) :
    l.length < 2 ^ 32 ∨ ∃ x ∈ l.take (2 ^ 32), arrayMatches a compval x := by
  rw [h.size_eq] at hfits
  refine hfits.imp_right ?_
  rintro ⟨i, hi, x, hx, hmatch⟩
  rw [h.getAt_eq] at hx
  refine ⟨x, List.mem_of_getElem? (i := i) ?_, hmatch⟩
  rwa [List.getElem?_take_of_lt hi]

/-- One call that fits. -/
lemma unsortedStep_spec (h : Holds a l) (hsort : a.issorted = false) {op : UnsortedOp α}
    (hfits : UnsortedFits a op) :
    ∃ a', unsortedStep a op = some (a', (unsortedSpec a l op).2) ∧
      Holds a' (unsortedSpec a l op).1 ∧ SameKind a a' := by
  cases op with
  | add item hasret alloc =>
      obtain ⟨a', hadd, hholds, hkind⟩ := arrayAdd_spec alloc h hsort item hasret
      refine ⟨a', ?_, ?_, hkind⟩
      · by_cases hroom : arrayRoom a alloc <;> simp [unsortedStep, hadd, unsortedSpec, hroom]
      · by_cases hroom : arrayRoom a alloc <;> simpa [unsortedSpec, hroom] using hholds
  | insertAt item index alloc =>
      obtain ⟨a', hins, hholds, hkind⟩ := arrayInsertAt_spec alloc h hsort item index
      refine ⟨a', ?_, ?_, hkind⟩
      · by_cases hroom : arrayRoom a alloc ∧ index ≤ l.length <;>
          simp [unsortedStep, hins, unsortedSpec, hroom]
      · by_cases hroom : arrayRoom a alloc ∧ index ≤ l.length <;>
          simpa [unsortedSpec, hroom] using hholds
  | setAt item index =>
      obtain ⟨a', hset, hholds, hkind⟩ := arraySetAt_spec h hsort item index
      exact ⟨a', by simp [unsortedStep, hset, unsortedSpec], hholds, hkind⟩
  | removeAt index =>
      obtain ⟨a', hrem, hholds, hkind⟩ := arrayRemoveAt_eraseIdx h index
      exact ⟨a', by simp [unsortedStep, hrem, unsortedSpec], hholds, hkind⟩
  | remove compval =>
      have hfind := arrayFind_spec h hsort (exists_mem_take_of_getAt h hfits)
      cases hres : l.zipIdx.find? fun y => arrayMatches a compval y.1 with
      | none =>
          rw [hres] at hfind
          exact ⟨a, by simp [unsortedStep, arrayRemove, hfind, unsortedSpec, hres],
            by simpa [unsortedSpec, hres] using h, rfl, rfl, rfl⟩
      | some found =>
          obtain ⟨item, index⟩ := found
          rw [hres] at hfind
          have hitem : l[index]? = some item :=
            List.mem_zipIdx_iff_getElem?.mp (List.mem_of_find?_eq_some hres)
          obtain ⟨a', hrem, hholds, hkind⟩ := arrayRemoveAt_eraseIdx h index
          exact ⟨a', by simp [unsortedStep, arrayRemove, hfind, hrem, hitem, unsortedSpec, hres],
            by simpa [unsortedSpec, hres] using hholds, hkind⟩
  | find compval =>
      refine ⟨a, ?_, h, rfl, rfl, rfl⟩
      rw [unsortedStep, arrayFind_spec h hsort (exists_mem_take_of_getAt h hfits)]
      rfl
  | push item alloc =>
      obtain ⟨a', hadd, hholds, hkind⟩ := arrayAdd_spec alloc h hsort item false
      refine ⟨a', ?_, ?_, hkind⟩
      · by_cases hroom : arrayRoom a alloc <;>
          simp [unsortedStep, arrayPush, hsort, hadd, unsortedSpec, hroom]
      · by_cases hroom : arrayRoom a alloc <;> simpa [unsortedSpec, hroom] using hholds
  | pop =>
      obtain ⟨a', hpop, hholds, hkind⟩ := arrayPop_spec h hfits
      exact ⟨a', by simp [unsortedStep, hpop, unsortedSpec], hholds, hkind⟩
  | top => exact ⟨a, by simp [unsortedStep, arrayTop_spec h hfits, unsortedSpec], h, rfl, rfl, rfl⟩
  | bottom => exact ⟨a, by simp [unsortedStep, arrayBottom_spec h, unsortedSpec], h, rfl, rfl, rfl⟩
  | clear =>
      obtain ⟨a', hclear, hholds, hkind⟩ := arrayClear_spec h
      exact ⟨a', by simp [unsortedStep, hclear, unsortedSpec], hholds, hkind⟩

/-- The states of an unsorted array after calls that fit. -/
inductive UnsortedReachable (comparator : Option (α → α → ℤ)) (freecb : Bool) :
    ArrayInternal α → Prop where
  | create {initcapacity : ℕ} : initcapacity < 2 ^ 61 →
      UnsortedReachable comparator freecb
        (arrayCreateInternal initcapacity comparator freecb false)
  | step {a a' : ArrayInternal α} {op : UnsortedOp α} {out : UnsortedOut α} :
      UnsortedReachable comparator freecb a → UnsortedFits a op →
      unsortedStep a op = some (a', out) → UnsortedReachable comparator freecb a'

variable {comparator : Option (α → α → ℤ)} {freecb : Bool}

lemma UnsortedReachable.holds (ha : UnsortedReachable comparator freecb a) :
    a.comparator = comparator ∧ a.freecb = freecb ∧ a.issorted = false ∧ ∃ l, Holds a l := by
  induction ha with
  | create => exact ⟨rfl, rfl, rfl, [], Holds.create _ _ _ _⟩
  | step _ hfits hstep ih =>
      obtain ⟨hcmp, hfree, hsort, l, hl⟩ := ih
      obtain ⟨a', hstep', hholds, hkind⟩ := unsortedStep_spec hl hsort hfits
      rw [hstep'] at hstep
      obtain ⟨rfl, -⟩ := Prod.mk.inj (Option.some.inj hstep)
      exact ⟨hkind.comparator.trans hcmp, hkind.freecb.trans hfree, hkind.issorted.trans hsort,
        _, hholds⟩

end Calls

/-- Adding `0`, `1`, ... to an array with enough room. -/
lemma UnsortedReachable.range (n : ℕ) {initcapacity : ℕ} (hn : n ≤ initcapacity)
    (hcap : initcapacity < 2 ^ 61) :
    ∃ a : ArrayInternal ℕ, UnsortedReachable none false a ∧ Holds a (List.range n) ∧
      a.capacity = initcapacity := by
  induction n with
  | zero =>
      refine ⟨_, .create hcap, Holds.create _ _ _ _, ?_⟩
      simp [ArrayInternal.capacity, arrayCreateInternal]
  | succ n ih =>
      obtain ⟨a, ha, hl, hcapacity⟩ := ih (by omega)
      obtain ⟨-, -, hsort, -⟩ := ha.holds
      have hsize : a.size = n := by simpa using hl.size_eq
      have hlt : a.size < a.capacity := by omega
      have hfull : ¬ a.capacity < a.size + 1 := by omega
      have hadd : arrayAdd true a n false =
          some ({ a with data := a.data.set a.size (some n), size := a.size + 1 },
            { result := true, ret := none, freed := none }) := by
        simp [arrayAdd, hsort, arrayCheckSize, hfull]
      obtain ⟨a', hadd', hholds, -⟩ := arrayAdd_spec true hl hsort n false
      rw [hadd] at hadd'
      obtain ⟨rfl, -⟩ := Prod.mk.inj (Option.some.inj hadd')
      have hfits : UnsortedFits a (.add n false true) := .inl hlt
      have hstep := congrArg (Option.map fun r => (r.1, (.flag r.2.result : UnsortedOut ℕ))) hadd
      refine ⟨_, .step ha hfits hstep, ?_, ?_⟩
      · rwa [if_pos (by simp [arrayRoom]), ← List.range_succ] at hholds
      · rw [← hcapacity, ArrayInternal.capacity, ArrayInternal.capacity, List.length_set]

/-- The index of the last of `2 ^ 32 + 1` items wraps to `0`. -/
lemma arrayPop_wraps {n : ℕ} (hn : n = 2 ^ 32) {a : ArrayInternal ℕ}
    (h : Holds a (List.range (n + 1))) : (arrayPop a).2 = some 0 := by
  have hsize : a.size = n + 1 := by simpa using h.size_eq
  have hindex : (a.size - 1) % 2 ^ 32 = 0 := by rw [hsize, hn]; rfl
  rw [arrayPop, if_pos (by omega), hindex]
  obtain ⟨a', hrem, -, -⟩ := arrayRemoveAt_eraseIdx h 0
  rw [hrem, List.getElem?_range (by omega)]

end LibCmutils
