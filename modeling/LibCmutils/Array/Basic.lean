import LibCmutils.Lib.Comparator
import LibCmutils.Lib.Block

/-!
`CMUTIL_Array` (`src/arrays.c`): the record and its operations.

* `ArrayInternal`: the block of pointer cells, the number of cells in use, the
  comparator, the free callback and the sorted flag. The capacity is the length
  of the block.
* `arraySearchPrivate`: the binary search of a sorted array, with its loop
  `arraySearchLoop` run on fuel; `none` stands for a read outside the cells in
  use and for a loop that does not end.
* `arrayAdd`, `arrayInsertAt`, `arraySetAt`, `arrayRemoveAt`, `arrayGetAt`,
  `arrayFind`, `arrayRemove`, `arrayPush`, `arrayPop`, `arrayTop`,
  `arrayBottom`, `arrayClear`: the interface. `arrayItems` is the loop over all
  indices that its callers write. Items are non-`NULL` pointers, a
  `NULL` result is `none`.

The argument `alloc` of the operations that may grow the block is the answer of
the allocator: `Realloc` succeeds, or returns `NULL`.
-/

namespace LibCmutils

universe u
variable {α : Type u}

/-- `CMUTIL_Array_Internal`. A cell of the block that was never written, or was
cleared, is `none`. -/
structure ArrayInternal (α : Type u) where
  data : List (Option α)
  size : ℕ
  comparator : Option (α → α → ℤ)
  freecb : Bool
  issorted : Bool

namespace ArrayInternal

/-- The number of cells of the block. -/
def capacity (a : ArrayInternal α) : ℕ := a.data.length

/-- The pointer in cell `i`, `none` outside the block and for a `NULL` cell. -/
def cell (a : ArrayInternal α) (i : ℕ) : Option α := (a.data[i]?).join

end ArrayInternal

/-- `CMUTIL_ArrayCreateInternal`, with the allocations succeeding. -/
def arrayCreateInternal (initcapacity : ℕ) (comparator : Option (α → α → ℤ)) (freecb sorted : Bool) :
    ArrayInternal α where
  data := List.replicate initcapacity none
  size := 0
  comparator := comparator
  freecb := freecb
  issorted := sorted

/-- `CMUTIL_ArrayCheckSize`: room for `insize` more items, `none` if the block
cannot grow. -/
def arrayCheckSize (alloc : Bool) (array : ArrayInternal α) (insize : ℕ) :
    Option (ArrayInternal α) :=
  let reqsz := array.size + insize
  if array.capacity < reqsz then
    let newcap := growCap reqsz reqsz (if array.capacity = 0 then 4 else array.capacity * 2)
    if alloc then
      some { array with data := array.data ++ List.replicate (newcap - array.capacity) none }
    else none
  else some array

/-- The loop of `CMUTIL_ArraySearchPrivate`. `probe mid` is the comparison of
the searched item with the one in cell `mid`. The result is whether the item was
found (`found == 1`) and the position. -/
def arraySearchLoop (probe : ℕ → Option ℤ) : ℕ → ℕ → ℕ → Option (Bool × ℕ)
  | 0, _, _ => none
  | fuel + 1, stpos, edpos =>
      let mid := (edpos + stpos) / 2
      match probe mid with
      | none => none
      | some cmp =>
          if cmp = 0 then some (true, mid)
          else if cmp < 0 then
            if mid = stpos then some (false, mid) else arraySearchLoop probe fuel stpos mid
          else
            if mid = edpos - 1 then some (false, edpos) else arraySearchLoop probe fuel mid edpos

/-- `CMUTIL_ArraySearchPrivate`; the position is stored in a `uint32_t`. -/
def arraySearchPrivate (arr : ArrayInternal α) (obj : α) (cb_cmp : α → α → ℤ) :
    Option (Bool × ℕ) :=
  if 0 < arr.size then
    (arraySearchLoop (fun mid => (arr.cell mid).map (cb_cmp obj)) arr.size 0 arr.size).map
      fun r => (r.1, r.2 % 2 ^ 32)
  else some (false, 0)

/-- `CMUTIL_ArrayInsertAtPrivate`: the array, grown even when the index is
rejected, and the inserted item or `NULL`. -/
def arrayInsertAtPrivate (alloc : Bool) (array : ArrayInternal α) (item : α) (index : ℕ) :
    ArrayInternal α × Option α :=
  match arrayCheckSize alloc array 1 with
  | none => (array, none)
  | some iarray =>
      if iarray.size < index then (iarray, none)
      else
        let data :=
          if index < iarray.size then memmove iarray.data (index + 1) index (iarray.size - index)
          else iarray.data
        ({ iarray with data := data.set index (some item), size := iarray.size + 1 }, some item)

/-- `CMUTIL_ArrayInsertAt`. -/
def arrayInsertAt (alloc : Bool) (array : ArrayInternal α) (item : α) (index : ℕ) :
    ArrayInternal α × Option α :=
  if array.issorted then (array, none) else arrayInsertAtPrivate alloc array item index

/-- `CMUTIL_ArraySetAtPrivate`: the array and the item that was replaced. -/
def arraySetAtPrivate (array : ArrayInternal α) (item : α) (index : ℕ) :
    ArrayInternal α × Option α :=
  if index < array.size then
    ({ array with data := array.data.set index (some item) }, array.cell index)
  else (array, none)

/-- `CMUTIL_ArraySetAt`. -/
def arraySetAt (array : ArrayInternal α) (item : α) (index : ℕ) : ArrayInternal α × Option α :=
  if array.issorted then (array, none) else arraySetAtPrivate array item index

/-- What `CMUTIL_ArrayAdd` returns: its result, the value stored through the
`ret` pointer (`none` when it stores nothing), and the item given to the free
callback. -/
structure ArrayAddOut (α : Type u) where
  result : Bool
  ret : Option α
  freed : Option α
  deriving DecidableEq

/-- `CMUTIL_ArrayAdd`. `hasret` says whether the caller passed a `ret` pointer.
A sorted array has a comparator, a call through a `NULL` one is stuck. -/
def arrayAdd [DecidableEq α] (alloc : Bool) (array : ArrayInternal α) (item : α) (hasret : Bool) :
    Option (ArrayInternal α × ArrayAddOut α) :=
  if array.issorted then
    match array.comparator with
    | none => none
    | some cmp =>
        match arraySearchPrivate array item cmp with
        | none => none
        | some (true, index) =>
            -- found the same data and duplication
            let old := array.cell index
            let freed := if !hasret && array.freecb && old != some item then old else none
            some ({ array with data := array.data.set index (some item) },
              { result := true, ret := if hasret then old else none, freed := freed })
        | some (false, index) =>
            let (iarray, res) := arrayInsertAtPrivate alloc array item index
            some (iarray, { result := res.isSome, ret := none, freed := none })
  else
    match arrayCheckSize alloc array 1 with
    | none => some (array, { result := false, ret := none, freed := none })
    | some iarray =>
        some ({ iarray with data := iarray.data.set iarray.size (some item), size := iarray.size + 1 },
          { result := true, ret := none, freed := none })

/-- `CMUTIL_ArrayRemoveAt`. -/
def arrayRemoveAt (array : ArrayInternal α) (index : ℕ) : ArrayInternal α × Option α :=
  if index < array.size then
    ({ array with
        data := memmove array.data index (index + 1) (array.size - index - 1)
        size := array.size - 1 }, array.cell index)
  else (array, none)

/-- `CMUTIL_ArrayGetAt`. -/
def arrayGetAt (array : ArrayInternal α) (index : ℕ) : Option α :=
  if index < array.size then array.cell index else none

/-- The test of the linear search in an unsorted array: the comparator if there
is one, else pointer equality. -/
def arrayMatches [DecidableEq α] (array : ArrayInternal α) (compval item : α) : Bool :=
  match array.comparator with
  | some cmp => cmp compval item == 0
  | none => item == compval

/-- The linear search of `CMUTIL_ArrayFind` from index `i` on, for at most `fuel` items.
The index is a `uint32_t`. -/
def arrayFindLoop [DecidableEq α] (array : ArrayInternal α) (compval : α) :
    ℕ → ℕ → Option (Option (α × ℕ))
  | 0, i => if i < array.size then none else some none
  | fuel + 1, i =>
      if i < array.size then
        match (array.cell i).filter (arrayMatches array compval) with
        | some x => some (some (x, i))
        | none => arrayFindLoop array compval fuel ((i + 1) % 2 ^ 32)
      else some none

/-- `CMUTIL_ArrayFind`: the item and its index, `some none` when nothing is
found, `none` when the search does not end. -/
def arrayFind [DecidableEq α] (array : ArrayInternal α) (compval : α) : Option (Option (α × ℕ)) :=
  if array.issorted then
    match array.comparator with
    | none => none
    | some cmp =>
        match arraySearchPrivate array compval cmp with
        | none => none
        | some (true, idx) => some ((array.cell idx).map fun x => (x, idx))
        | some (false, _) => some none
  else arrayFindLoop array compval array.size 0

/-- `CMUTIL_ArrayRemove`. -/
def arrayRemove [DecidableEq α] (array : ArrayInternal α) (compval : α) :
    Option (ArrayInternal α × Option α) :=
  match arrayFind array compval with
  | none => none
  | some none => some (array, none)
  | some (some (_, index)) => some (arrayRemoveAt array index)

/-- `CMUTIL_ArrayGetSize`. -/
def arrayGetSize (array : ArrayInternal α) : ℕ := array.size

/-- `CMUTIL_ArrayPush`. -/
def arrayPush [DecidableEq α] (alloc : Bool) (array : ArrayInternal α) (item : α) :
    Option (ArrayInternal α × Bool) :=
  if array.issorted then some (array, false)
  else (arrayAdd alloc array item false).map fun r => (r.1, r.2.result)

/-- `CMUTIL_ArrayPop`; the index is cast to a `uint32_t`. -/
def arrayPop (array : ArrayInternal α) : ArrayInternal α × Option α :=
  if 0 < array.size then arrayRemoveAt array ((array.size - 1) % 2 ^ 32) else (array, none)

/-- `CMUTIL_ArrayTop`. -/
def arrayTop (array : ArrayInternal α) : Option α :=
  if 0 < array.size then arrayGetAt array ((array.size - 1) % 2 ^ 32) else none

/-- `CMUTIL_ArrayBottom`. -/
def arrayBottom (array : ArrayInternal α) : Option α :=
  if 0 < array.size then arrayGetAt array 0 else none

/-- `CMUTIL_ArrayClear`: the emptied array and the items given to the free
callback. With a free callback, the loop over the items ends when there are fewer
than `2 ^ 32`, its index is a `uint32_t`. -/
def arrayClear (array : ArrayInternal α) : ArrayInternal α × List α :=
  ({ array with data := List.replicate array.capacity none, size := 0 },
    if array.freecb then (List.range array.size).filterMap array.cell else [])

/-- The loop `for (i=0; i<GetSize; i++) GetAt(i)`; a `NULL` item is used like any
other, so it leaves the loop stuck. -/
def arrayItems (array : ArrayInternal α) : Option (List α) :=
  (List.range (arrayGetSize array)).mapM (arrayGetAt array)

/-! ### The items of an array -/

/-- The block begins with the items of `l`, and nothing else is in use. -/
structure Holds (a : ArrayInternal α) (l : List α) : Prop where
  prefix_data : l.map some <+: a.data
  size_eq : a.size = l.length

namespace Holds

variable {a : ArrayInternal α} {l : List α}

lemma create (cap : ℕ) (cmp : Option (α → α → ℤ)) (freecb sorted : Bool) :
    Holds (arrayCreateInternal cap cmp freecb sorted) [] :=
  ⟨List.nil_prefix, rfl⟩

lemma length_le_capacity (h : Holds a l) : l.length ≤ a.capacity := by
  have := h.prefix_data.length_le
  simpa [ArrayInternal.capacity] using this

lemma cell_eq (h : Holds a l) {i : ℕ} (hi : i < l.length) : a.cell i = l[i]? := by
  obtain ⟨rest, hrest⟩ := h.prefix_data
  rw [ArrayInternal.cell, ← hrest, List.getElem?_append_left (by simpa using hi)]
  simp [hi]

lemma getAt_eq (h : Holds a l) (i : ℕ) : arrayGetAt a i = l[i]? := by
  rw [arrayGetAt, h.size_eq]
  split
  · exact h.cell_eq (by assumption)
  · rw [List.getElem?_eq_none (by omega)]

/-- The items determine what an array holds. -/
lemma unique {l' : List α} (h : Holds a l) (h' : Holds a l') : l = l' := by
  refine List.ext_getElem? fun i => ?_
  rw [← h.getAt_eq, ← h'.getAt_eq]

/-- The loop over all indices lists the items. -/
lemma items (h : Holds a l) : arrayItems a = some l := by
  refine mapM_eq_some ?_
  rw [arrayGetSize, h.size_eq, ← range_map_getElem?]
  exact List.map_congr_left fun i _ => h.getAt_eq i

/-- Reading the cells in order lists the items. -/
lemma filterMap_cell (h : Holds a l) : (List.range a.size).filterMap a.cell = l := by
  have hmap : (List.range a.size).map a.cell = l.map some := by
    rw [h.size_eq, ← range_map_getElem?]
    exact List.map_congr_left fun i hi => h.cell_eq (List.mem_range.mp hi)
  calc (List.range a.size).filterMap a.cell
      = ((List.range a.size).map a.cell).filterMap id := by rw [List.filterMap_map]; rfl
    _ = l := by rw [hmap, List.filterMap_map]; simp

end Holds

/-! ### One lemma for each operation -/

/-- Two arrays with the same comparator, free callback and sorted flag. -/
structure SameKind (a a' : ArrayInternal α) : Prop where
  comparator : a'.comparator = a.comparator
  freecb : a'.freecb = a.freecb
  issorted : a'.issorted = a.issorted

variable {a : ArrayInternal α} {l pre post : List α}

/-- With a willing allocator the block grows to the room asked for. -/
lemma arrayCheckSize_spec (h : Holds a l) (insize : ℕ) :
    ∃ a', arrayCheckSize true a insize = some a' ∧ Holds a' l ∧
      l.length + insize ≤ a'.capacity ∧ SameKind a a' := by
  rw [arrayCheckSize, h.size_eq]
  by_cases hcap : a.capacity < l.length + insize
  · have hpos : 0 < (if a.capacity = 0 then 4 else a.capacity * 2) := by split <;> omega
    have hgrow := @le_growCap (l.length + insize) (l.length + insize) _ hpos (by omega)
    simp only [hcap, if_true]
    refine ⟨_, rfl, ⟨h.prefix_data.trans (List.prefix_append _ _), rfl⟩, ?_, rfl, rfl, rfl⟩
    simp only [ArrayInternal.capacity, List.length_append, List.length_replicate] at hcap hgrow ⊢
    omega
  · simp only [hcap, if_false]
    exact ⟨a, rfl, h, by omega, rfl, rfl, rfl⟩

/-- Inserting at an index inside the array shifts the tail up by one. -/
lemma arrayInsertAtPrivate_spec (h : Holds a (pre ++ post)) (x : α) :
    ∃ a', arrayInsertAtPrivate true a x pre.length = (a', some x) ∧
      Holds a' (pre ++ x :: post) ∧ SameKind a a' := by
  obtain ⟨a', hcheck, ⟨⟨rest, hrest⟩, hsize⟩, hroom, hkind⟩ := arrayCheckSize_spec h 1
  obtain ⟨c, rest, rfl⟩ : ∃ c tl, rest = c :: tl := by
    cases rest with
    | nil =>
        rw [ArrayInternal.capacity, ← hrest] at hroom
        simp at hroom
    | cons c tl => exact ⟨c, tl, rfl⟩
  have hlen : a'.size = pre.length + post.length := by simpa using hsize
  have hdata : (if pre.length < a'.size
      then memmove a'.data (pre.length + 1) pre.length (a'.size - pre.length)
      else a'.data).set pre.length (some x) = (pre ++ x :: post).map some ++ rest := by
    rw [hlen, ← hrest]
    split
    · have := memmove_up_set (pre.map some) (post.map some) rest c (some x)
      simpa using this
    · obtain rfl : post = [] := List.length_eq_zero_iff.mp (by omega)
      simp
  have hidx : ¬ a'.size < pre.length := by omega
  refine ⟨_, by simp only [arrayInsertAtPrivate, hcheck, hidx, if_false]; rfl, ⟨?_, ?_⟩, ?_⟩
  · exact ⟨rest, hdata.symm⟩
  · simp [hlen]; omega
  · exact ⟨hkind.comparator, hkind.freecb, hkind.issorted⟩

/-- Writing a cell in use replaces its item. -/
lemma Holds.set {y : α} (h : Holds a (pre ++ y :: post)) (x : α) :
    Holds { a with data := a.data.set pre.length (some x) } (pre ++ x :: post) := by
  obtain ⟨⟨rest, hrest⟩, hsize⟩ := h
  refine ⟨⟨rest, ?_⟩, by simpa using hsize⟩
  simp [← hrest]

/-- Removing shifts the tail down by one. -/
lemma arrayRemoveAt_spec {y : α} (h : Holds a (pre ++ y :: post)) :
    ∃ a', arrayRemoveAt a pre.length = (a', some y) ∧ Holds a' (pre ++ post) ∧ SameKind a a' := by
  have hcell : a.cell pre.length = some y := by
    rw [h.cell_eq (by simp)]
    simp
  obtain ⟨⟨rest, hrest⟩, hsize⟩ := h
  have hlt : pre.length < a.size := by
    rw [hsize]
    simp
  have htail : a.size - pre.length - 1 = post.length := by
    rw [hsize]
    simp
  have hremove : arrayRemoveAt a pre.length = ({ a with
      data := memmove a.data pre.length (pre.length + 1) (a.size - pre.length - 1)
      size := a.size - 1 }, some y) := by
    simp only [arrayRemoveAt, hlt, if_true, hcell]
  refine ⟨_, hremove, ⟨?_, ?_⟩, rfl, rfl, rfl⟩
  · have := memmove_down (pre.map some) (post.map some) rest (some y)
    rw [htail, ← hrest]
    simpa using this
  · simp only [hsize, List.length_append, List.length_cons]
    omega

lemma arrayRemoveAt_of_le (h : Holds a l) {i : ℕ} (hi : l.length ≤ i) :
    arrayRemoveAt a i = (a, none) := by
  rw [arrayRemoveAt, if_neg (by rw [h.size_eq]; omega)]

/-- Clearing keeps the block and gives every item to the free callback. -/
lemma arrayClear_spec (h : Holds a l) :
    ∃ a', arrayClear a = (a', if a.freecb then l else []) ∧ Holds a' [] ∧ SameKind a a' := by
  have hclear : arrayClear a = ({ a with data := List.replicate a.capacity none, size := 0 },
      if a.freecb then l else []) := by
    rw [arrayClear, h.filterMap_cell]
  exact ⟨_, hclear, ⟨List.nil_prefix, rfl⟩, rfl, rfl, rfl⟩

end LibCmutils
