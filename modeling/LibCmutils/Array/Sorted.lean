import LibCmutils.Array.Basic
import LibCmutils.Lib.SortedList

/-!
Sorted arrays (`src/arrays.c`): a `CMUTIL_Array` created with a comparator is a
strictly increasing list.

* `arraySearchLoop_spec`: the invariant of the binary search. Below `stpos` the
  searched item is greater, from `edpos` on it is less; the three exits are a
  hit, a gap before `mid` and a gap before `edpos`, and the segment shrinks in
  every other round.
* `SortedBy`: the array holds a list that is strictly increasing under its
  comparator. `SortedBy.search`, `SortedBy.add`, `SortedBy.find`,
  `SortedBy.remove`, `SortedBy.removeAt`, `SortedBy.pop` are what the operations
  do to that list. `SortedBy.add_eq_sortedAdd`: `Add` is `sortedAdd`, for the models
  that keep the list only.
* `SortedAs`: an array whose comparator need not be an order, with items that it orders as
  another comparator does. `SortedAs.add`, `SortedAs.remove` and `SortedAs.removeAt`.
* `SortedOp`, `sortedStep`, `SortedReachable`: runs of the interface on an array
  created sorted, and `SortedSpec`, what a step may do to the list. The main
  result is `sortedArray_refines`.
-/

namespace LibCmutils

universe u
variable {α : Type u}

/-! ### The binary search -/

section Search

variable {cmp : α → α → ℤ} {l : List α} {x : α}

/-- What the search reports about the searched item and a sorted list: the
position of an item that compares equal, or the gap the item belongs to. -/
inductive SearchResult (cmp : α → α → ℤ) (x : α) (l : List α) : Bool × ℕ → Prop where
  | hit (pre post : List α) (y : α) :
      l = pre ++ y :: post → cmp x y = 0 → SearchResult cmp x l (true, pre.length)
  | gap (pre post : List α) : l = pre ++ post → (∀ z ∈ pre, 0 < cmp x z) →
      (∀ z ∈ post, cmp x z < 0) → SearchResult cmp x l (false, pre.length)

lemma SearchResult.pos_le {r : Bool × ℕ} (h : SearchResult cmp x l r) : r.2 ≤ l.length := by
  cases h with
  | hit pre post y hl _ => simp [hl]
  | gap pre post hl _ _ => simp [hl]

/-- The gap at position `i`. -/
lemma SearchResult.of_gap {i : ℕ} (hi : i ≤ l.length) (hlo : ∀ j (_ : j < l.length), j < i →
    0 < cmp x l[j]) (hhi : ∀ j (_ : j < l.length), i ≤ j → cmp x l[j] < 0) :
    SearchResult cmp x l (false, i) := by
  have hlen : (l.take i).length = i := by simpa using hi
  have hgap : SearchResult cmp x l (false, (l.take i).length) :=
    .gap (l.take i) (l.drop i) (List.take_append_drop i l).symm ?_ ?_
  · rwa [hlen] at hgap
  · intro z hz
    obtain ⟨j, hj, rfl⟩ := List.mem_iff_getElem.mp hz
    rw [List.length_take] at hj
    rw [List.getElem_take]
    exact hlo j (by omega) (by omega)
  · intro z hz
    obtain ⟨j, hj, rfl⟩ := List.mem_iff_getElem.mp hz
    rw [List.length_drop] at hj
    rw [List.getElem_drop]
    exact hhi (i + j) (by omega) (by omega)

variable (hc : IsComparator cmp) (hs : StrictSorted cmp l)
include hc hs

/-- In a sorted list everything up to an item below `x` is below `x`. -/
lemma StrictSorted.below {i j : ℕ} (hi : i < l.length) (hji : j ≤ i) (h : 0 < cmp x l[i]) :
    0 < cmp x l[j] := by
  rcases Nat.lt_or_eq_of_le hji with hlt | rfl
  · have hij := List.pairwise_iff_getElem.mp hs j i (by omega) hi hlt
    exact (hc.swap _ _).mpr (hc.lt_trans hij ((hc.swap _ _).mp h))
  · exact h

/-- In a sorted list everything from an item above `x` on is above `x`. -/
lemma StrictSorted.above {i j : ℕ} (hj : j < l.length) (hij : i ≤ j) (h : cmp x l[i] < 0) :
    cmp x l[j] < 0 := by
  rcases Nat.lt_or_eq_of_le hij with hlt | rfl
  · exact hc.lt_trans h (List.pairwise_iff_getElem.mp hs i j (by omega) hj hlt)
  · exact h

/-- The loop of the binary search on the segment from `stpos` to `edpos`: below
the segment the searched item is greater, above it less. Fuel for the length of
the segment is enough. -/
lemma arraySearchLoop_spec {probe : ℕ → Option ℤ}
    (hprobe : ∀ i (hi : i < l.length), probe i = some (cmp x l[i])) :
    ∀ (fuel stpos edpos : ℕ), stpos < edpos → edpos ≤ l.length → edpos - stpos ≤ fuel →
      (∀ j (_ : j < l.length), j < stpos → 0 < cmp x l[j]) →
      (∀ j (_ : j < l.length), edpos ≤ j → cmp x l[j] < 0) →
      ∃ r, arraySearchLoop probe fuel stpos edpos = some r ∧ SearchResult cmp x l r
  | 0, stpos, edpos, hlt, _, hfuel, _, _ => by omega
  | fuel + 1, stpos, edpos, hlt, hed, hfuel, hlo, hhi => by
      have hmid : (edpos + stpos) / 2 < l.length := by omega
      rw [arraySearchLoop, hprobe _ hmid]
      set mid := (edpos + stpos) / 2 with hmid_def
      simp only
      by_cases hzero : cmp x l[mid] = 0
      · refine ⟨(true, mid), by rw [if_pos hzero], ?_⟩
        have hhit : SearchResult cmp x l (true, (l.take mid).length) :=
          .hit (l.take mid) (l.drop (mid + 1)) l[mid]
            (by rw [List.getElem_cons_drop, List.take_append_drop]) hzero
        rwa [List.length_take, Nat.min_eq_left hmid.le] at hhit
      rw [if_neg hzero]
      by_cases hneg : cmp x l[mid] < 0
      · have habove : ∀ j (_ : j < l.length), mid ≤ j → cmp x l[j] < 0 :=
          fun j hj hmj => hs.above hc hj hmj hneg
        rw [if_pos hneg]
        by_cases hst : mid = stpos
        · exact ⟨(false, mid), by rw [if_pos hst],
            SearchResult.of_gap hmid.le (fun j hj hjm => hlo j hj (by omega)) habove⟩
        · rw [if_neg hst]
          exact arraySearchLoop_spec hprobe fuel stpos mid (by omega) hmid.le (by omega) hlo habove
      · have hbelow : ∀ j (_ : j < l.length), j ≤ mid → 0 < cmp x l[j] :=
          fun j _ hjm => hs.below hc hmid hjm (by omega)
        rw [if_neg hneg]
        by_cases hend : mid = edpos - 1
        · exact ⟨(false, edpos), by rw [if_pos hend],
            SearchResult.of_gap hed (fun j hj hje => hbelow j hj (by omega)) hhi⟩
        · rw [if_neg hend]
          exact arraySearchLoop_spec hprobe fuel mid edpos (by omega) hed (by omega)
            (fun j hj hjm => hbelow j hj hjm.le) hhi

/-- The search of a sorted array whose size fits the 32-bit position. -/
lemma arraySearchPrivate_spec {a : ArrayInternal α} (h : Holds a l) (hsize : l.length < 2 ^ 32) :
    ∃ r, arraySearchPrivate a x cmp = some r ∧ SearchResult cmp x l r := by
  rw [arraySearchPrivate]
  by_cases hpos : 0 < a.size
  · have hlen : 0 < l.length := by rwa [h.size_eq] at hpos
    have hprobe : ∀ i (hi : i < l.length), (a.cell i).map (cmp x) = some (cmp x l[i]) :=
      fun i hi => by simp [h.cell_eq hi, hi]
    obtain ⟨r, hr, hres⟩ := arraySearchLoop_spec hc hs hprobe a.size 0 a.size hpos h.size_eq.le le_rfl
      (fun j _ hj => by omega) (fun j hj hle => by rw [h.size_eq] at hle; omega)
    have hmod : r.2 % 2 ^ 32 = r.2 := Nat.mod_eq_of_lt (by have := hres.pos_le; omega)
    exact ⟨r, by rw [if_pos hpos, hr, Option.map_some, hmod], hres⟩
  · obtain rfl : l = [] := List.length_eq_zero_iff.mp (by rw [← h.size_eq]; omega)
    rw [if_neg hpos]
    exact ⟨(false, 0), rfl, .gap [] [] rfl (by simp) (by simp)⟩

end Search

/-! ### Sorted arrays -/

/-- The array was created with the comparator `cmp`, and holds a list that is
strictly increasing under it. -/
structure SortedBy (cmp : α → α → ℤ) (a : ArrayInternal α) (l : List α) : Prop where
  holds : Holds a l
  sorted : StrictSorted cmp l
  comparator : a.comparator = some cmp
  issorted : a.issorted = true

namespace SortedBy

variable {cmp : α → α → ℤ} {a a' : ArrayInternal α} {l l' pre post : List α} {x y : α}

lemma create (cap : ℕ) (cmp : α → α → ℤ) (freecb : Bool) :
    SortedBy cmp (arrayCreateInternal cap (some cmp) freecb true) [] :=
  ⟨Holds.create _ _ _ _, StrictSorted.nil cmp, rfl, rfl⟩

/-- The flags stay, so an operation need only keep the list sorted. -/
lemma of_sameKind (h : SortedBy cmp a l) (hk : SameKind a a') (hh : Holds a' l')
    (hs : StrictSorted cmp l') : SortedBy cmp a' l' :=
  ⟨hh, hs, hk.comparator.trans h.comparator, hk.issorted.trans h.issorted⟩

lemma unique (h : SortedBy cmp a l) (h' : SortedBy cmp a l') : l = l' :=
  h.holds.unique h'.holds

lemma clear (h : SortedBy cmp a l) :
    ∃ a', arrayClear a = (a', if a.freecb then l else []) ∧ SortedBy cmp a' [] := by
  obtain ⟨a', hclear, hh, hk⟩ := arrayClear_spec h.holds
  exact ⟨a', hclear, h.of_sameKind hk hh (StrictSorted.nil cmp)⟩

/-- Removing by index. -/
lemma removeAt (h : SortedBy cmp a (pre ++ y :: post)) :
    ∃ a', arrayRemoveAt a pre.length = (a', some y) ∧ SortedBy cmp a' (pre ++ post) ∧
      SameKind a a' := by
  obtain ⟨a', hrm, hh, hk⟩ := arrayRemoveAt_spec h.holds
  exact ⟨a', hrm, h.of_sameKind hk hh h.sorted.of_append_cons, hk⟩

/-- Removing the last item; the array is not longer than the 32-bit index. -/
lemma pop (h : SortedBy cmp a (pre ++ [y])) (hsize : (pre ++ [y]).length < 2 ^ 32) :
    ∃ a', arrayPop a = (a', some y) ∧ SortedBy cmp a' pre := by
  have hlen : a.size = pre.length + 1 := by simpa using h.holds.size_eq
  have hidx : (a.size - 1) % 2 ^ 32 = pre.length := by
    rw [hlen, Nat.add_sub_cancel]
    exact Nat.mod_eq_of_lt (by simp at hsize; omega)
  obtain ⟨a', hrm, hs, -⟩ := h.removeAt
  rw [List.append_nil] at hs
  exact ⟨a', by rw [arrayPop, if_pos (by omega), hidx, hrm], hs⟩

lemma pop_nil (h : SortedBy cmp a []) : arrayPop a = (a, none) := by
  have hsize : a.size = 0 := h.holds.size_eq
  rw [arrayPop, if_neg (by omega)]

variable [DecidableEq α]

/-- What `Add` does to the list: an item that compares equal is replaced, handed
to `ret` or else to the free callback; without one the new item is inserted. -/
inductive AddSpec (cmp : α → α → ℤ) (freecb : Bool) (x : α) (hasret : Bool) (l : List α) :
    List α → ArrayAddOut α → Prop where
  | replace (pre post : List α) (y : α) : l = pre ++ y :: post → cmp x y = 0 →
      AddSpec cmp freecb x hasret l (pre ++ x :: post)
        { result := true
          ret := if hasret then some y else none
          freed := if !hasret && freecb && y != x then some y else none }
  | insert (pre post : List α) : l = pre ++ post → (∀ z ∈ l, cmp x z ≠ 0) →
      AddSpec cmp freecb x hasret l (pre ++ x :: post)
        { result := true, ret := none, freed := none }

/-- What `Find` reports: the one item that compares equal, with its index. -/
inductive FindSpec (cmp : α → α → ℤ) (x : α) (l : List α) : Option (α × ℕ) → Prop where
  | hit (pre post : List α) (y : α) : l = pre ++ y :: post → cmp x y = 0 →
      FindSpec cmp x l (some (y, pre.length))
  | miss : (∀ z ∈ l, cmp x z ≠ 0) → FindSpec cmp x l none

/-- What `Remove` does to the list: the item that compares equal is taken out
and returned. -/
inductive RemoveSpec (cmp : α → α → ℤ) (x : α) (l : List α) : List α → Option α → Prop where
  | hit (pre post : List α) (y : α) : l = pre ++ y :: post → cmp x y = 0 →
      RemoveSpec cmp x l (pre ++ post) (some y)
  | miss : (∀ z ∈ l, cmp x z ≠ 0) → RemoveSpec cmp x l l none

variable (hc : IsComparator cmp)
include hc

theorem add (h : SortedBy cmp a l) (hsize : l.length < 2 ^ 32) (x : α) (hasret : Bool) :
    ∃ a' l' out, arrayAdd true a x hasret = some (a', out) ∧ SortedBy cmp a' l' ∧
      SameKind a a' ∧ AddSpec cmp a.freecb x hasret l l' out := by
  obtain ⟨r, hr, hres⟩ := arraySearchPrivate_spec (x := x) hc h.sorted h.holds hsize
  cases hres with
  | hit pre post y hl hxy =>
      subst hl
      have hcell : a.cell pre.length = some y := by
        rw [h.holds.cell_eq (by simp)]
        simp
      refine ⟨_, _, _, ?_, ⟨h.holds.set x, h.sorted.replace hc hxy, h.comparator, h.issorted⟩,
        ⟨rfl, rfl, rfl⟩, .replace pre post y rfl hxy⟩
      rw [arrayAdd, if_pos h.issorted, h.comparator]
      simp only [hr, hcell]
      rfl
  | gap pre post hl hpre hpost =>
      subst hl
      obtain ⟨a', hins, hh, hk⟩ := arrayInsertAtPrivate_spec h.holds x
      refine ⟨a', _, _, ?_, h.of_sameKind hk hh (h.sorted.insert hc hpre hpost), hk,
        .insert pre post rfl ?_⟩
      · rw [arrayAdd, if_pos h.issorted, h.comparator]
        simp only [hr, hins, Option.isSome_some]
      · intro z hz
        rcases List.mem_append.mp hz with hz | hz
        · exact (hpre z hz).ne'
        · exact (hpost z hz).ne

theorem find (h : SortedBy cmp a l) (hsize : l.length < 2 ^ 32) (x : α) :
    ∃ r, arrayFind a x = some r ∧ FindSpec cmp x l r := by
  obtain ⟨r, hr, hres⟩ := arraySearchPrivate_spec (x := x) hc h.sorted h.holds hsize
  rw [arrayFind, if_pos h.issorted, h.comparator]
  cases hres with
  | hit pre post y hl hxy =>
      subst hl
      have hcell : a.cell pre.length = some y := by
        rw [h.holds.cell_eq (by simp)]
        simp
      exact ⟨_, by simp only [hr, hcell, Option.map_some], .hit pre post y rfl hxy⟩
  | gap pre post hl hpre hpost =>
      refine ⟨_, by simp only [hr], .miss fun z hz => ?_⟩
      rw [hl] at hz
      rcases List.mem_append.mp hz with hz | hz
      · exact (hpre z hz).ne'
      · exact (hpost z hz).ne

theorem remove (h : SortedBy cmp a l) (hsize : l.length < 2 ^ 32) (x : α) :
    ∃ a' l' r, arrayRemove a x = some (a', r) ∧ SortedBy cmp a' l' ∧ SameKind a a' ∧
      RemoveSpec cmp x l l' r := by
  obtain ⟨r, hr, hfind⟩ := h.find hc hsize x
  cases hfind with
  | hit pre post y hl hxy =>
      subst hl
      obtain ⟨a', hrm, hs, hk⟩ := h.removeAt
      exact ⟨a', _, _, by simp only [arrayRemove, hr, hrm], hs, hk, .hit pre post y rfl hxy⟩
  | miss hne =>
      exact ⟨a, l, none, by simp only [arrayRemove, hr], h, ⟨rfl, rfl, rfl⟩, .miss hne⟩

end SortedBy

/-! ### An array whose comparator is an order on its items only -/

section Agreement

variable {cmp order : α → α → ℤ} {a a' : ArrayInternal α} {l : List α} {x : α}

/-- The binary search depends on the signs of the comparisons that it makes. -/
lemma arraySearchLoop_congr {probe probe' : ℕ → Option ℤ} {n : ℕ}
    (h : ∀ i < n, ∃ c c', probe i = some c ∧ probe' i = some c' ∧ SameSign c c') :
    ∀ fuel stpos edpos : ℕ, stpos < edpos → edpos ≤ n →
      arraySearchLoop probe fuel stpos edpos = arraySearchLoop probe' fuel stpos edpos
  | 0, _, _, _, _ => rfl
  | fuel + 1, stpos, edpos, hlt, hle => by
      have hmid : (edpos + stpos) / 2 < edpos := by omega
      obtain ⟨c, c', hc, hc', hsign⟩ := h _ (hmid.trans_le hle)
      rw [arraySearchLoop, arraySearchLoop, hc, hc']
      simp only [hsign.eq_zero_iff, hsign.1]
      split_ifs with hzero hneg hst hend
      · rfl
      · rfl
      · exact arraySearchLoop_congr h fuel _ _ (by omega) (by omega)
      · rfl
      · exact arraySearchLoop_congr h fuel _ _ (by omega) hle

lemma arraySearchPrivate_congr (h : Holds a l) (hs : ∀ z ∈ l, SameSign (cmp x z) (order x z)) :
    arraySearchPrivate a x cmp = arraySearchPrivate a x order := by
  rw [arraySearchPrivate, arraySearchPrivate]
  split
  next hpos =>
    refine congrArg _ (arraySearchLoop_congr (n := a.size) (fun i hi => ?_) _ _ _ hpos le_rfl)
    rw [h.size_eq] at hi
    refine ⟨cmp x l[i], order x l[i], ?_, ?_, hs _ (List.getElem_mem hi)⟩ <;>
      simp [h.cell_eq hi, hi]
  next => rfl

/-- The array with another comparator. -/
def ArrayInternal.withComparator (a : ArrayInternal α) (order : α → α → ℤ) : ArrayInternal α :=
  { a with comparator := some order }

lemma arrayCheckSize_withComparator (alloc : Bool) (a : ArrayInternal α) (n : ℕ) :
    arrayCheckSize alloc (a.withComparator order) n =
      (arrayCheckSize alloc a n).map (·.withComparator order) := by
  by_cases hcap : a.capacity < a.size + n
  · have hcap' : (a.withComparator order).capacity < (a.withComparator order).size + n := hcap
    rw [arrayCheckSize, if_pos hcap', arrayCheckSize, if_pos hcap]
    cases alloc <;> rfl
  · have hcap' : ¬ (a.withComparator order).capacity < (a.withComparator order).size + n := hcap
    rw [arrayCheckSize, if_neg hcap', arrayCheckSize, if_neg hcap]
    rfl

lemma arrayInsertAtPrivate_withComparator (alloc : Bool) (a : ArrayInternal α) (i : ℕ) :
    arrayInsertAtPrivate alloc (a.withComparator order) x i =
      ((arrayInsertAtPrivate alloc a x i).1.withComparator order,
        (arrayInsertAtPrivate alloc a x i).2) := by
  rw [arrayInsertAtPrivate, arrayInsertAtPrivate, arrayCheckSize_withComparator]
  cases arrayCheckSize alloc a 1 with
  | none => rfl
  | some b =>
      by_cases hi : b.size < i
      · simp only [Option.map_some, if_pos hi,
          if_pos (show (b.withComparator order).size < i from hi)]
      · simp only [Option.map_some, if_neg hi,
          if_neg (show ¬ (b.withComparator order).size < i from hi)]
        rfl

lemma arrayRemoveAt_withComparator (a : ArrayInternal α) (i : ℕ) :
    arrayRemoveAt (a.withComparator order) i =
      ((arrayRemoveAt a i).1.withComparator order, (arrayRemoveAt a i).2) := by
  by_cases hi : i < a.size
  · rw [arrayRemoveAt, if_pos (show i < (a.withComparator order).size from hi), arrayRemoveAt,
      if_pos hi]
    rfl
  · rw [arrayRemoveAt, if_neg (show ¬ i < (a.withComparator order).size from hi), arrayRemoveAt,
      if_neg hi]

lemma comparator_arrayInsertAtPrivate (alloc : Bool) (a : ArrayInternal α) (i : ℕ) :
    (arrayInsertAtPrivate alloc a x i).1.comparator = a.comparator := by
  have hcheck : ∀ b, arrayCheckSize alloc a 1 = some b → b.comparator = a.comparator := by
    intro b hb
    by_cases hcap : a.capacity < a.size + 1
    · rw [arrayCheckSize, if_pos hcap] at hb
      cases alloc with
      | false => cases hb
      | true =>
          obtain rfl := Option.some.inj hb
          rfl
    · rw [arrayCheckSize, if_neg hcap] at hb
      obtain rfl := Option.some.inj hb
      rfl
  rw [arrayInsertAtPrivate]
  cases hb : arrayCheckSize alloc a 1 with
  | none => rfl
  | some b =>
      dsimp only
      split_ifs <;> exact hcheck b hb

lemma comparator_arrayRemoveAt (a : ArrayInternal α) (i : ℕ) :
    (arrayRemoveAt a i).1.comparator = a.comparator := by
  rw [arrayRemoveAt]
  split_ifs <;> rfl

/-- The array was created with `cmp`, and its items are in the order of `order`. -/
structure SortedAs (cmp order : α → α → ℤ) (a : ArrayInternal α) (l : List α) : Prop where
  comparator : a.comparator = some cmp
  sorted : SortedBy order (a.withComparator order) l

namespace SortedAs

lemma create (cap : ℕ) (cmp order : α → α → ℤ) (freecb : Bool) :
    SortedAs cmp order (arrayCreateInternal cap (some cmp) freecb true) [] :=
  ⟨rfl, SortedBy.create cap order freecb⟩

lemma holds (h : SortedAs cmp order a l) : Holds a l :=
  ⟨h.sorted.holds.prefix_data, h.sorted.holds.size_eq⟩

lemma removeAt {pre post : List α} {y : α} (h : SortedAs cmp order a (pre ++ y :: post)) :
    ∃ a', arrayRemoveAt a pre.length = (a', some y) ∧ SortedAs cmp order a' (pre ++ post) := by
  obtain ⟨b, hrm, hs, -⟩ := h.sorted.removeAt
  rw [arrayRemoveAt_withComparator] at hrm
  obtain ⟨rfl, hy⟩ := Prod.mk.inj hrm
  exact ⟨_, Prod.ext rfl hy, (comparator_arrayRemoveAt a _).trans h.comparator, hs⟩

variable [DecidableEq α] (hc : IsComparator order)
include hc

/-- `Add`, of an item whose comparisons agree with the order. -/
theorem add (h : SortedAs cmp order a l) (hsize : l.length < 2 ^ 32)
    (hs : ∀ z ∈ l, SameSign (cmp x z) (order x z)) (hasret : Bool) :
    ∃ a' l' out, arrayAdd true a x hasret = some (a', out) ∧ SortedAs cmp order a' l' ∧
      SortedBy.AddSpec order a.freecb x hasret l l' out := by
  obtain ⟨b, l', out, hadd, hsort, -, hspec⟩ := h.sorted.add hc hsize x hasret
  have hissorted : a.issorted = true := h.sorted.issorted
  have hsearch : arraySearchPrivate (a.withComparator order) x order = arraySearchPrivate a x cmp :=
    (arraySearchPrivate_congr h.holds hs).symm
  rw [arrayAdd, if_pos h.sorted.issorted, h.sorted.comparator] at hadd
  rw [arrayAdd, if_pos hissorted, h.comparator]
  simp only [hsearch] at hadd ⊢
  cases hr : arraySearchPrivate a x cmp with
  | none =>
      rw [hr] at hadd
      cases hadd
  | some r =>
      obtain ⟨found, i⟩ := r
      rw [hr] at hadd
      cases found with
      | true =>
          obtain ⟨rfl, rfl⟩ := Prod.mk.inj (Option.some.inj hadd)
          exact ⟨_, l', _, rfl, ⟨rfl, hsort⟩, hspec⟩
      | false =>
          simp only [arrayInsertAtPrivate_withComparator] at hadd
          obtain ⟨rfl, rfl⟩ := Prod.mk.inj (Option.some.inj hadd)
          exact ⟨_, l', _, rfl,
            ⟨(comparator_arrayInsertAtPrivate true a i).trans h.comparator, hsort⟩, hspec⟩

/-- `Remove`, of an item whose comparisons agree with the order. -/
theorem remove (h : SortedAs cmp order a l) (hsize : l.length < 2 ^ 32)
    (hs : ∀ z ∈ l, SameSign (cmp x z) (order x z)) :
    ∃ a' l' r, arrayRemove a x = some (a', r) ∧ SortedAs cmp order a' l' ∧
      SortedBy.RemoveSpec order x l l' r := by
  obtain ⟨b, l', r, hrm, hsort, -, hspec⟩ := h.sorted.remove hc hsize x
  have hissorted : a.issorted = true := h.sorted.issorted
  have hfind : arrayFind (a.withComparator order) x = arrayFind a x := by
    rw [arrayFind, arrayFind, if_pos h.sorted.issorted, if_pos hissorted, h.comparator,
      h.sorted.comparator]
    simp only [arraySearchPrivate_congr h.holds hs]
    rfl
  rw [arrayRemove, hfind] at hrm
  rw [arrayRemove]
  cases hr : arrayFind a x with
  | none =>
      rw [hr] at hrm
      cases hrm
  | some q =>
      rw [hr] at hrm
      cases q with
      | none =>
          obtain ⟨rfl, rfl⟩ := Prod.mk.inj (Option.some.inj hrm)
          exact ⟨a, l', none, rfl, ⟨h.comparator, hsort⟩, hspec⟩
      | some q =>
          simp only [arrayRemoveAt_withComparator] at hrm
          obtain ⟨rfl, rfl⟩ := Prod.mk.inj (Option.some.inj hrm)
          exact ⟨_, l', _, rfl, ⟨(comparator_arrayRemoveAt a _).trans h.comparator, hsort⟩, hspec⟩

end SortedAs

end Agreement

/-! ### The list after a call, as a set and as a filter -/

section Results

variable {cmp : α → α → ℤ} (hc : IsComparator cmp) {l l' : List α} {x : α}
include hc

/-- An item that compares equal is the first one the list has. -/
lemma StrictSorted.find?_hit {pre post : List α} {y : α} (h : StrictSorted cmp (pre ++ y :: post))
    (hxy : cmp x y = 0) : (pre ++ y :: post).find? (fun z => cmp x z = 0) = some y := by
  have hne := h.ne_zero_of_hit hc hxy
  refine List.find?_eq_some_iff_append.mpr ⟨by simpa using hxy, pre, post, rfl, fun z hz => ?_⟩
  simpa using hne z (by simp [hz])

/-- Without the item that compares equal. -/
lemma StrictSorted.filter_hit {pre post : List α} {y : α} (h : StrictSorted cmp (pre ++ y :: post))
    (hxy : cmp x y = 0) : (pre ++ y :: post).filter (fun z => cmp x z ≠ 0) = pre ++ post := by
  have hne := h.ne_zero_of_hit hc hxy
  have hpost : ∀ z ∈ post, decide (cmp x z ≠ 0) = true := fun z hz => by
    simpa using hne z (by simp [hz])
  have hpre : ∀ z ∈ pre, decide (cmp x z ≠ 0) = true := fun z hz => by
    simpa using hne z (by simp [hz])
  rw [List.filter_append, List.filter_cons_of_neg (by simpa using hxy),
    List.filter_eq_self.mpr hpre, List.filter_eq_self.mpr hpost]

lemma SortedBy.RemoveSpec.eq_filter {res : Option α} (h : StrictSorted cmp l)
    (hspec : SortedBy.RemoveSpec cmp x l l' res) :
    l' = l.filter (fun z => cmp x z ≠ 0) ∧ res = l.find? (fun z => cmp x z = 0) := by
  cases hspec with
  | hit pre post y hl hxy =>
      subst hl
      exact ⟨(h.filter_hit hc hxy).symm, (h.find?_hit hc hxy).symm⟩
  | miss hne =>
      refine ⟨(List.filter_eq_self.mpr fun z hz => by simpa using hne z hz).symm, ?_⟩
      exact (List.find?_eq_none.mpr fun z hz => by simpa using hne z hz).symm

lemma SortedBy.FindSpec.eq_find? {res : Option (α × ℕ)} (h : StrictSorted cmp l)
    (hspec : SortedBy.FindSpec cmp x l res) :
    res.map Prod.fst = l.find? (fun z => cmp x z = 0) := by
  cases hspec with
  | hit pre post y hl hxy =>
      subst hl
      exact (h.find?_hit hc hxy).symm
  | miss hne => exact (List.find?_eq_none.mpr fun z hz => by simpa using hne z hz).symm

lemma SortedBy.AddSpec.mem_iff [DecidableEq α] {freecb hasret : Bool} {out : ArrayAddOut α}
    (h : StrictSorted cmp l) (hspec : SortedBy.AddSpec cmp freecb x hasret l l' out) (z : α) :
    z ∈ l' ↔ z = x ∨ z ∈ l ∧ cmp x z ≠ 0 := by
  have hmem : z ∈ l ∧ cmp x z ≠ 0 ↔ z ∈ l.filter (fun z => cmp x z ≠ 0) := by simp
  cases hspec with
  | replace pre post y hl hxy =>
      subst hl
      rw [hmem, h.filter_hit hc hxy]
      simp only [List.mem_append, List.mem_cons]
      tauto
  | insert pre post hl hne =>
      rw [hmem, List.filter_eq_self.mpr fun z hz => by simpa using hne z hz, hl]
      simp only [List.mem_append, List.mem_cons]
      tauto

/-- `Add` is `sortedAdd` of the list. -/
lemma SortedBy.AddSpec.eq_sortedAdd [DecidableEq α] {freecb hasret : Bool} {out : ArrayAddOut α}
    (h : StrictSorted cmp l) (h' : StrictSorted cmp l')
    (hspec : SortedBy.AddSpec cmp freecb x hasret l l' out) : l' = sortedAdd cmp x l :=
  h'.ext hc (h.sortedAdd hc) fun z => (hspec.mem_iff hc h z).trans (h.mem_sortedAdd hc).symm

lemma SortedBy.AddSpec.ret_eq [DecidableEq α] {freecb : Bool} {out : ArrayAddOut α}
    (h : StrictSorted cmp l) (hspec : SortedBy.AddSpec cmp freecb x true l l' out) :
    out.ret = l.find? (fun z => cmp x z = 0) := by
  cases hspec with
  | replace pre post y hl hxy =>
      subst hl
      exact (h.find?_hit hc hxy).symm
  | insert pre post hl hne =>
      exact (List.find?_eq_none.mpr fun z hz => by simpa using hne z hz).symm

omit hc in
lemma SortedBy.AddSpec.result_eq [DecidableEq α] {freecb hasret : Bool} {out : ArrayAddOut α}
    (hspec : SortedBy.AddSpec cmp freecb x hasret l l' out) : out.result = true := by
  cases hspec <;> rfl

/-- An array holds the list after `sortedAdd` when it held the list before. -/
lemma SortedBy.add_eq_sortedAdd [DecidableEq α] {a : ArrayInternal α} (h : SortedBy cmp a l)
    (hsize : l.length < 2 ^ 32) (hasret : Bool) :
    ∃ a' out, arrayAdd true a x hasret = some (a', out) ∧ SortedBy cmp a' (sortedAdd cmp x l) := by
  obtain ⟨a', l', out, hadd, hs, -, hspec⟩ := h.add hc hsize x hasret
  rw [← hspec.eq_sortedAdd hc h.sorted hs.sorted]
  exact ⟨a', out, hadd, hs⟩

end Results

/-! ### Runs of the interface -/

/-- The calls on a sorted array: `InsertAt`, `SetAt` and `Push` are among them,
and are rejected. -/
inductive SortedOp (α : Type u) where
  | add (item : α) (hasret : Bool)
  | remove (compval : α)
  | removeAt (index : ℕ)
  | pop
  | find (compval : α)
  | insertAt (item : α) (index : ℕ)
  | setAt (item : α) (index : ℕ)
  | push (item : α)

/-- What a call returns. -/
inductive SortedOut (α : Type u) where
  | added (out : ArrayAddOut α)
  | item (res : Option α)
  | found (res : Option (α × ℕ))
  | flag (res : Bool)

section Runs

variable [DecidableEq α]

/-- One call, with the allocator willing. -/
def sortedStep (a : ArrayInternal α) : SortedOp α → Option (ArrayInternal α × SortedOut α)
  | .add item hasret => (arrayAdd true a item hasret).map fun r => (r.1, .added r.2)
  | .remove compval => (arrayRemove a compval).map fun r => (r.1, .item r.2)
  | .removeAt index => some ((arrayRemoveAt a index).1, .item (arrayRemoveAt a index).2)
  | .pop => some ((arrayPop a).1, .item (arrayPop a).2)
  | .find compval => (arrayFind a compval).map fun r => (a, .found r)
  | .insertAt item index =>
      some ((arrayInsertAt true a item index).1, .item (arrayInsertAt true a item index).2)
  | .setAt item index => some ((arraySetAt a item index).1, .item (arraySetAt a item index).2)
  | .push item => (arrayPush true a item).map fun r => (r.1, .flag r.2)

/-- The states of an array created sorted with `cmp`, after any calls that keep
its size below `2^32`. -/
inductive SortedReachable (cmp : α → α → ℤ) : ArrayInternal α → Prop where
  | create (initcapacity : ℕ) (freecb : Bool) :
      SortedReachable cmp (arrayCreateInternal initcapacity (some cmp) freecb true)
  | step {a a' : ArrayInternal α} {op : SortedOp α} {out : SortedOut α} :
      SortedReachable cmp a → sortedStep a op = some (a', out) → a'.size < 2 ^ 32 →
      SortedReachable cmp a'

/-- What a call may do to the list of a sorted array, and what it returns. -/
inductive SortedSpec (cmp : α → α → ℤ) (freecb : Bool) (l : List α) :
    SortedOp α → List α → SortedOut α → Prop where
  | add {x : α} {hasret : Bool} {l' : List α} {out : ArrayAddOut α} :
      SortedBy.AddSpec cmp freecb x hasret l l' out →
      SortedSpec cmp freecb l (.add x hasret) l' (.added out)
  | remove {x : α} {l' : List α} {res : Option α} : SortedBy.RemoveSpec cmp x l l' res →
      SortedSpec cmp freecb l (.remove x) l' (.item res)
  | removeAt {pre post : List α} {y : α} : l = pre ++ y :: post →
      SortedSpec cmp freecb l (.removeAt pre.length) (pre ++ post) (.item (some y))
  | removeAt_out {index : ℕ} : l.length ≤ index →
      SortedSpec cmp freecb l (.removeAt index) l (.item none)
  | pop {pre : List α} {y : α} : l = pre ++ [y] →
      SortedSpec cmp freecb l .pop pre (.item (some y))
  | pop_nil : l = [] → SortedSpec cmp freecb l .pop [] (.item none)
  | find {x : α} {res : Option (α × ℕ)} : SortedBy.FindSpec cmp x l res →
      SortedSpec cmp freecb l (.find x) l (.found res)
  | insertAt {x : α} {index : ℕ} : SortedSpec cmp freecb l (.insertAt x index) l (.item none)
  | setAt {x : α} {index : ℕ} : SortedSpec cmp freecb l (.setAt x index) l (.item none)
  | push {x : α} : SortedSpec cmp freecb l (.push x) l (.flag false)

/-- One call on a sorted array: it ends, keeps the list sorted and meets its
specification. -/
lemma SortedBy.step {cmp : α → α → ℤ} (hc : IsComparator cmp) {a : ArrayInternal α} {l : List α}
    (h : SortedBy cmp a l) (hsize : a.size < 2 ^ 32) (op : SortedOp α) :
    ∃ a' l' out, sortedStep a op = some (a', out) ∧ SortedBy cmp a' l' ∧
      SortedSpec cmp a.freecb l op l' out := by
  rw [h.holds.size_eq] at hsize
  cases op with
  | add x hasret =>
      obtain ⟨a', l', out, hadd, hs, -, hspec⟩ := h.add hc hsize x hasret
      exact ⟨a', l', _, by simp only [sortedStep, hadd, Option.map_some], hs, .add hspec⟩
  | remove x =>
      obtain ⟨a', l', r, hrm, hs, -, hspec⟩ := h.remove hc hsize x
      exact ⟨a', l', _, by simp only [sortedStep, hrm, Option.map_some], hs, .remove hspec⟩
  | removeAt index =>
      by_cases hidx : index < l.length
      · have hl : l = l.take index ++ l[index] :: l.drop (index + 1) := by simp
        have hlen : (l.take index).length = index := by simpa using hidx.le
        rw [hl] at h
        obtain ⟨a', hrm, hs, -⟩ := h.removeAt
        rw [hlen] at hrm
        have hspec : SortedSpec cmp a.freecb l (.removeAt (l.take index).length) _ _ := .removeAt hl
        rw [hlen] at hspec
        exact ⟨a', _, _, by simp only [sortedStep, hrm], hs, hspec⟩
      · exact ⟨a, l, _, by simp only [sortedStep, arrayRemoveAt_of_le h.holds (not_lt.mp hidx)], h,
          .removeAt_out (not_lt.mp hidx)⟩
  | pop =>
      rcases List.eq_nil_or_concat' l with rfl | ⟨pre, y, rfl⟩
      · exact ⟨a, [], _, by simp only [sortedStep, h.pop_nil], h, .pop_nil rfl⟩
      · obtain ⟨a', hpop, hs⟩ := h.pop hsize
        exact ⟨a', pre, _, by simp only [sortedStep, hpop], hs, .pop rfl⟩
  | find x =>
      obtain ⟨r, hr, hspec⟩ := h.find hc hsize x
      exact ⟨a, l, _, by simp only [sortedStep, hr, Option.map_some], h, .find hspec⟩
  | insertAt x index =>
      exact ⟨a, l, _, by simp only [sortedStep, arrayInsertAt, h.issorted, if_true], h, .insertAt⟩
  | setAt x index =>
      exact ⟨a, l, _, by simp only [sortedStep, arraySetAt, h.issorted, if_true], h, .setAt⟩
  | push x =>
      exact ⟨a, l, _, by simp only [sortedStep, arrayPush, h.issorted, if_true, Option.map_some], h,
        .push⟩

/-- Every reachable state holds a strictly increasing list. -/
lemma SortedReachable.sortedBy {cmp : α → α → ℤ} (hc : IsComparator cmp) {a : ArrayInternal α}
    (h : SortedReachable cmp a) : a.size < 2 ^ 32 ∧ ∃ l, SortedBy cmp a l := by
  induction h with
  | create cap freecb => exact ⟨by simp [arrayCreateInternal], [], SortedBy.create cap cmp freecb⟩
  | @step a a' op out _ hstep hsize ih =>
      obtain ⟨hlt, l, hl⟩ := ih
      obtain ⟨b, l', out', hstep', hs, -⟩ := hl.step hc hlt op
      rw [hstep'] at hstep
      obtain ⟨rfl, rfl⟩ := Prod.mk.inj (Option.some.inj hstep)
      exact ⟨hsize, l', hs⟩

/-- The integers, compared by their difference. -/
lemma isComparator_sub : IsComparator fun a b : ℤ => a - b :=
  ⟨fun a b => by constructor <;> intro h <;> linarith, fun a b c h1 h2 => by linarith⟩

end Runs

end LibCmutils
