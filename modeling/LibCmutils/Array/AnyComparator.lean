import LibCmutils.Array.Basic

/-!
The binary search of `CMUTIL_Array` (`src/arrays.c`) with a comparator of which nothing is
known.

* `Comparison`: a comparator that may answer the same call differently from one time to the
  next. It is a function with a state, and gets whatever is in the cell.
* `arraySearchReads`: `CMUTIL_ArraySearchPrivate` with such a comparator, and the indices of
  the cells that it reads.
* `arraySearchPrivate_eq_reads`: for a plain comparator this is `arraySearchPrivate`.
* `arraySearch_safe`: the search ends, and stays in the cells in use.

A cell takes 8 bytes, so the sum of two indices is far from `2 ^ 64`.
-/

namespace LibCmutils

universe u v
variable {α : Type u} {σ : Type v}

/-- A comparator with a state. It is called with the searched item and the content of a
cell. -/
abbrev Comparison (σ : Type v) (α : Type u) := σ → α → Option α → ℤ × σ

/-- The loop of `CMUTIL_ArraySearchPrivate`, as `arraySearchLoop`, with the indices of the
cells that are read. `probe` compares the searched item with the content of a cell. -/
def arraySearchReadsLoop (probe : σ → ℕ → ℤ × σ) :
    ℕ → σ → ℕ → ℕ → Option ((Bool × ℕ) × List ℕ)
  | 0, _, _, _ => none
  | fuel + 1, s, stpos, edpos =>
      let mid := (edpos + stpos) / 2
      let cmp := probe s mid
      if cmp.1 = 0 then some ((true, mid), [mid])
      else if cmp.1 < 0 then
        if mid = stpos then some ((false, mid), [mid])
        else (arraySearchReadsLoop probe fuel cmp.2 stpos mid).map fun r => (r.1, mid :: r.2)
      else
        if mid = edpos - 1 then some ((false, edpos), [mid])
        else (arraySearchReadsLoop probe fuel cmp.2 mid edpos).map fun r => (r.1, mid :: r.2)

/-- `CMUTIL_ArraySearchPrivate` with the comparator `cb_cmp` in the state `s`: whether the
item was found, the position as a `uint32_t`, and the indices of the cells that were read.
`none` stands for a loop that needs more than `arr.size` rounds. -/
def arraySearchReads (arr : ArrayInternal α) (obj : α) (cb_cmp : Comparison σ α) (s : σ) :
    Option ((Bool × ℕ) × List ℕ) :=
  if 0 < arr.size then
    (arraySearchReadsLoop (fun s mid => cb_cmp s obj (arr.cell mid)) arr.size s 0 arr.size).map
      fun r => ((r.1.1, r.1.2 % 2 ^ 32), r.2)
  else some ((false, 0), [])

/-! ### A plain comparator -/

/-- A comparator without a state, on cells that are not `NULL`. -/
def Comparison.ofPlain (cmp : α → α → ℤ) : Comparison Unit α :=
  fun _ obj item => ((item.map (cmp obj)).getD 0, ())

lemma arraySearchLoop_eq_reads {probe : ℕ → Option ℤ} {answer : ℕ → ℤ} {n : ℕ}
    (h : ∀ i < n, probe i = some (answer i)) : ∀ (fuel stpos edpos : ℕ), stpos < edpos →
    edpos ≤ n → arraySearchLoop probe fuel stpos edpos
      = (arraySearchReadsLoop (fun (_ : Unit) i => (answer i, ())) fuel () stpos edpos).map
          Prod.fst
  | 0, _, _, _, _ => rfl
  | fuel + 1, stpos, edpos, hlt, hle => by
      rw [arraySearchLoop, arraySearchReadsLoop, h _ (by omega)]
      simp only
      split_ifs with hzero hneg hst hend
      · rfl
      · rfl
      · rw [arraySearchLoop_eq_reads h fuel _ _ (by omega) (by omega), Option.map_map]
        rfl
      · rfl
      · rw [arraySearchLoop_eq_reads h fuel _ _ (by omega) hle, Option.map_map]
        rfl

/-- With a plain comparator and no `NULL` in the cells in use, the two searches agree. -/
theorem arraySearchPrivate_eq_reads (arr : ArrayInternal α) (obj : α) (cmp : α → α → ℤ)
    (h : ∀ i < arr.size, (arr.cell i).isSome) :
    arraySearchPrivate arr obj cmp
      = (arraySearchReads arr obj (.ofPlain cmp) ()).map Prod.fst := by
  have hprobe : ∀ i < arr.size, (arr.cell i).map (cmp obj)
      = some (((arr.cell i).map (cmp obj)).getD 0) := by
    intro i hi
    obtain ⟨x, hx⟩ := Option.isSome_iff_exists.mp (h i hi)
    rw [hx]
    rfl
  rw [arraySearchPrivate, arraySearchReads]
  split_ifs with hpos
  · rw [arraySearchLoop_eq_reads hprobe arr.size 0 arr.size hpos le_rfl, Option.map_map,
      Option.map_map]
    rfl
  · rfl

/-! ### Any comparator -/

/-- What a search of `n` cells may do: it reads cells below `n`, and its position is at most
`n`, and below `n` when the item was found. -/
def SearchSafe (n : ℕ) (r : (Bool × ℕ) × List ℕ) : Prop :=
  (∀ i ∈ r.2, i < n) ∧ r.1.2 ≤ n ∧ (r.1.1 = true → r.1.2 < n)

lemma SearchSafe.cons {n i : ℕ} {r : (Bool × ℕ) × List ℕ} (h : SearchSafe n r) (hi : i < n) :
    SearchSafe n (r.1, i :: r.2) :=
  ⟨fun j hj => (List.mem_cons.mp hj).elim (fun heq => heq ▸ hi) (h.1 j), h.2.1, h.2.2⟩

/-- The loop on the segment from `stpos` to `edpos`, which is not empty and gets shorter with
every round: it never takes one cell for the middle of itself. -/
lemma arraySearchReadsLoop_safe (probe : σ → ℕ → ℤ × σ) {n : ℕ} : ∀ (fuel : ℕ) (s : σ)
    (stpos edpos : ℕ), stpos < edpos → edpos ≤ n → edpos - stpos ≤ fuel →
    ∃ r, arraySearchReadsLoop probe fuel s stpos edpos = some r ∧ SearchSafe n r
  | 0, _, stpos, edpos, hlt, _, hfuel => by omega
  | fuel + 1, s, stpos, edpos, hlt, hle, hfuel => by
      have hst : stpos ≤ (edpos + stpos) / 2 := by omega
      have hed : (edpos + stpos) / 2 < edpos := by omega
      have hread : ∀ i ∈ [(edpos + stpos) / 2], i < n := by
        intro i hi
        rw [List.mem_singleton.mp hi]
        omega
      have hmid_lt : (edpos + stpos) / 2 < n := by omega
      have hone : (edpos + stpos) / 2 = stpos → (edpos + stpos) / 2 = edpos - 1 := by omega
      rw [arraySearchReadsLoop]
      generalize (edpos + stpos) / 2 = mid at hst hed hread hmid_lt hone
      split_ifs with hzero hneg hmid hmid
      · exact ⟨_, rfl, hread, hmid_lt.le, fun _ => hmid_lt⟩
      · exact ⟨_, rfl, hread, hmid_lt.le, fun h => absurd h (by simp)⟩
      · -- the segment below `mid` is not empty, as `mid` is above `stpos`
        obtain ⟨r, hr, hsafe⟩ := arraySearchReadsLoop_safe probe fuel (probe s mid).2 stpos mid
          (by omega) hmid_lt.le (by omega)
        exact ⟨_, by rw [hr]; rfl, hsafe.cons hmid_lt⟩
      · exact ⟨_, rfl, hread, hle, fun h => absurd h (by simp)⟩
      · -- `mid` is not `stpos`, or the segment would have one cell only
        obtain ⟨r, hr, hsafe⟩ := arraySearchReadsLoop_safe probe fuel (probe s mid).2 mid edpos
          hed hle (by omega)
        exact ⟨_, by rw [hr]; rfl, hsafe.cons hmid_lt⟩

/-- **Binary search with any comparator.** Whatever is in the array and whatever the comparator
answers, the search ends; it reads cells in use only, and its position is at most the number
of these, and below it when the item was found. -/
theorem arraySearch_safe (arr : ArrayInternal α) (obj : α) (cb_cmp : Comparison σ α) (s : σ) :
    ∃ found idx reads, arraySearchReads arr obj cb_cmp s = some ((found, idx), reads) ∧
      (∀ i ∈ reads, i < arr.size) ∧ idx ≤ arr.size ∧ (found = true → idx < arr.size) := by
  rw [arraySearchReads]
  by_cases hpos : 0 < arr.size
  · obtain ⟨r, hr, hreads, hle, hfound⟩ := arraySearchReadsLoop_safe
      (fun s mid => cb_cmp s obj (arr.cell mid)) arr.size s 0 arr.size hpos le_rfl (by omega)
    have hmod : r.1.2 % 2 ^ 32 ≤ r.1.2 := Nat.mod_le _ _
    refine ⟨r.1.1, r.1.2 % 2 ^ 32, r.2, by rw [if_pos hpos, hr]; rfl, hreads, by omega, ?_⟩
    exact fun h => lt_of_le_of_lt hmod (hfound h)
  · exact ⟨false, 0, [], by rw [if_neg hpos], by simp, by omega, fun h => absurd h (by simp)⟩

end LibCmutils
