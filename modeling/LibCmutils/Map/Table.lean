import LibCmutils.Map.Basic
import LibCmutils.Array.Sorted

/-!
The bucket table of `CMUTIL_Map` (`src/maps.c`) as a set of items.

* `TableHolds`: every slot holds, sorted by key, exactly the items whose hash
  falls on it.
* `TableHolds.find`, `TableHolds.add`, `TableHolds.remove`: a search, an insertion
  and a removal in the slot of a key are a search, an insertion and a removal in
  the whole set of items, because equal keys have equal hashes.
* `rebuildItems_spec`: distributing the items over a fresh table of any positive size
  gives a table that holds them.
-/

namespace LibCmutils

variable {V : Type}

lemma isComparator_mapComparator : IsComparator (mapComparator : MapItem V → MapItem V → ℤ) :=
  isComparator_strcmp.comap MapItem.key

lemma isComparator_mapCompareOrder : IsComparator (mapCompareOrder : MapItem V → MapItem V → ℤ) :=
  IsComparator.of_lt MapItem.order (fun _ _ => by rw [mapCompareOrder]; omega)
    (fun _ _ => by rw [mapCompareOrder]; omega)

@[simp] lemma mapComparator_eq_zero {a b : MapItem V} : mapComparator a b = 0 ↔ a.key = b.key :=
  strcmp_eq_zero

@[simp] lemma mapCompareOrder_eq_zero {a b : MapItem V} :
    mapCompareOrder a b = 0 ↔ a.order = b.order := by
  rw [mapCompareOrder]
  omega

lemma mapKey_mapKey (u : Bool) (key : CString) : mapKey u (mapKey u key) = mapKey u key := by
  cases u <;> simp [mapKey]

/-- The hash does not see what `CMUTIL_MapToUpper` changes. -/
lemma mapHashKey_mapKey (u : Bool) (key : CString) :
    mapHashKey u (mapKey u key) = mapHashKey u key := by
  cases u
  · rfl
  · simp [mapHashKey, mapKey, mapHashUpper, CString.upper, List.foldl_map, toupper_toupper]

lemma mapIndex_of_ne_zero {n : UInt32} (hn : n ≠ 0) (hash : UInt32) :
    mapIndex hash n = some (hash % n) := if_neg hn

/-! ### The table -/

/-- A slot holds a list sorted by key; a slot without a bucket holds nothing. -/
def SlotHolds (slot : Option (ArrayInternal (MapItem V))) (lb : List (MapItem V)) : Prop :=
  match slot with
  | none => lb = []
  | some bucket => SortedBy mapComparator bucket lb

/-- A table of size `n` holds the items of `l`, each in the slot of its hash. -/
def TableHolds (n : UInt32) (buckets : UInt32 → Option (ArrayInternal (MapItem V)))
    (l : List (MapItem V)) : Prop :=
  ∀ i, ∃ lb, SlotHolds (buckets i) lb ∧ ∀ it, it ∈ lb ↔ it ∈ l ∧ it.hash % n = i

lemma SlotHolds.sorted {slot : Option (ArrayInternal (MapItem V))} {lb : List (MapItem V)}
    (h : SlotHolds slot lb) : StrictSorted mapComparator lb := by
  cases slot with
  | none => rw [show lb = [] from h]; exact StrictSorted.nil _
  | some bucket => exact SortedBy.sorted h

/-- The bucket of a slot, a new one if there is none. -/
lemma SlotHolds.getD {slot : Option (ArrayInternal (MapItem V))} {lb : List (MapItem V)}
    (h : SlotHolds slot lb) : SortedBy mapComparator (slot.getD mapNewBucket) lb := by
  cases slot with
  | none =>
      rw [show lb = [] from h]
      exact SortedBy.create 5 mapComparator false
  | some bucket => exact h

lemma tableHolds_empty (n : UInt32) : TableHolds (V := V) n (fun _ => none) [] :=
  fun _ => ⟨[], rfl, by simp⟩

namespace TableHolds

variable {n : UInt32} {buckets : UInt32 → Option (ArrayInternal (MapItem V))}
  {l lb : List (MapItem V)} {i : UInt32}

/-- A slot is not longer than the whole list. -/
lemma slot_length_le (hslot : SlotHolds (buckets i) lb)
    (hmem : ∀ it, it ∈ lb ↔ it ∈ l ∧ it.hash % n = i) : lb.length ≤ l.length :=
  ((hslot.sorted.nodup isComparator_mapComparator).subperm
    fun it hit => ((hmem it).mp hit).1).length_le

/-- Searching the slot of an item finds what the whole list has under its key. -/
lemma slot_find? (hkeys : (l.map MapItem.key).Nodup)
    (hmem : ∀ it, it ∈ lb ↔ it ∈ l ∧ it.hash % n = i) {x : MapItem V}
    (hash : ∀ it ∈ l, it.key = x.key → it.hash % n = i) :
    lb.find? (fun z => mapComparator x z = 0) = l.find? (fun z => z.key = x.key) := by
  cases hl : l.find? (fun z => z.key = x.key) with
  | none =>
      refine List.find?_eq_none.mpr fun z hz => ?_
      have := List.find?_eq_none.mp hl z ((hmem z).mp hz).1
      simpa [eq_comm] using this
  | some y =>
      have hyl := List.mem_of_find?_eq_some hl
      have hyk : y.key = x.key := by simpa using List.find?_some hl
      have hyb : y ∈ lb := (hmem y).mpr ⟨hyl, hash y hyl hyk⟩
      obtain ⟨z, hz⟩ := Option.isSome_iff_exists.mp
        (List.find?_isSome.mpr ⟨y, hyb, by simp [hyk]⟩ :
          (lb.find? (fun z => mapComparator x z = 0)).isSome)
      have hzk : x.key = z.key := by simpa using List.find?_some hz
      have hzl := ((hmem z).mp (List.mem_of_find?_eq_some hz)).1
      rw [hz, List.inj_on_of_nodup_map hkeys hzl hyl (hzk.symm.trans hyk.symm)]

/-- A slot without a bucket has nothing under a key of its hash. -/
lemma find_none (ht : TableHolds n buckets l) {x : MapItem V}
    (hash : ∀ it ∈ l, it.key = x.key → it.hash % n = i) (hb : buckets i = none) :
    l.find? (fun z => z.key = x.key) = none := by
  obtain ⟨lb, hslot, hmem⟩ := ht i
  rw [hb] at hslot
  obtain rfl : lb = [] := hslot
  refine List.find?_eq_none.mpr fun z hz hzk => ?_
  have := (hmem z).mpr ⟨hz, hash z hz (by simpa using hzk)⟩
  simp at this

/-- Clearing every bucket. -/
lemma clear (ht : TableHolds n buckets l) :
    TableHolds n (fun i => (buckets i).map fun bucket => (arrayClear bucket).1) [] := by
  intro i
  obtain ⟨lb, hslot, -⟩ := ht i
  refine ⟨[], ?_, by simp⟩
  change SlotHolds ((buckets i).map fun bucket => (arrayClear bucket).1) []
  cases hb : buckets i with
  | none => rfl
  | some bucket =>
      rw [hb] at hslot
      obtain ⟨bucket', hclear, hs⟩ := SortedBy.clear hslot
      rw [Option.map_some, hclear]
      exact hs

variable [DecidableEq V]

/-- Searching in the slot of a key. -/
lemma find (ht : TableHolds n buckets l) (hkeys : (l.map MapItem.key).Nodup)
    (hlen : l.length < 2 ^ 32) {x : MapItem V}
    (hash : ∀ it ∈ l, it.key = x.key → it.hash % n = i) {bucket : ArrayInternal (MapItem V)}
    (hb : buckets i = some bucket) :
    ∃ r, arrayFind bucket x = some r ∧ r.map Prod.fst = l.find? (fun z => z.key = x.key) := by
  obtain ⟨lb, hslot, hmem⟩ := ht i
  have hle := slot_length_le hslot hmem
  have hfind := slot_find? hkeys hmem hash
  have hs := hslot.sorted
  rw [hb] at hslot
  obtain ⟨r, hr, hspec⟩ := SortedBy.find isComparator_mapComparator hslot (by omega) x
  exact ⟨r, hr, by rw [hspec.eq_find? isComparator_mapComparator hs, hfind]⟩

/-- Adding an item to the slot of its hash replaces what the table has under its
key. -/
lemma add (ht : TableHolds n buckets l) (hkeys : (l.map MapItem.key).Nodup)
    (hlen : l.length < 2 ^ 32) {x : MapItem V} (hash : ∀ it ∈ l, it.key = x.key → it.hash = x.hash)
    (hasret : Bool) :
    ∃ bucket out, arrayAdd true ((buckets (x.hash % n)).getD mapNewBucket) x hasret
        = some (bucket, out) ∧
      out.result = true ∧ (hasret = true → out.ret = l.find? (fun z => z.key = x.key)) ∧
      TableHolds n (Function.update buckets (x.hash % n) (some bucket))
        (l.filter (fun z => z.key ≠ x.key) ++ [x]) := by
  obtain ⟨lb, hslot, hmem⟩ := ht (x.hash % n)
  have hle := slot_length_le hslot hmem
  have hfind := slot_find? hkeys hmem (x := x) fun it hit hk => by rw [hash it hit hk]
  obtain ⟨bucket, lb', out, hadd, hs, -, hspec⟩ :=
    hslot.getD.add isComparator_mapComparator (by omega) x hasret
  refine ⟨bucket, out, hadd, hspec.result_eq, ?_, ?_⟩
  · rintro rfl
    rw [hspec.ret_eq isComparator_mapComparator hslot.sorted, hfind]
  · intro j
    by_cases hj : j = x.hash % n
    · subst hj
      refine ⟨lb', by rw [Function.update_self]; exact hs, fun it => ?_⟩
      rw [hspec.mem_iff isComparator_mapComparator hslot.sorted, hmem]
      simp only [List.mem_append, List.mem_filter, List.mem_singleton, ne_eq,
        mapComparator_eq_zero, decide_not, Bool.not_eq_eq_eq_not, Bool.not_true,
        decide_eq_false_iff_not, eq_comm (a := x.key)]
      constructor
      · rintro (rfl | ⟨⟨hl, hi⟩, hk⟩)
        · exact ⟨.inr rfl, rfl⟩
        · exact ⟨.inl ⟨hl, hk⟩, hi⟩
      · rintro ⟨⟨hl, hk⟩ | rfl, hi⟩
        · exact .inr ⟨⟨hl, hi⟩, hk⟩
        · exact .inl rfl
    · obtain ⟨lj, hslotj, hmemj⟩ := ht j
      refine ⟨lj, by rwa [Function.update_of_ne hj], fun it => ?_⟩
      rw [hmemj]
      simp only [List.mem_append, List.mem_filter, List.mem_singleton, ne_eq, decide_not,
        Bool.not_eq_eq_eq_not, Bool.not_true, decide_eq_false_iff_not]
      constructor
      · rintro ⟨hl, hi⟩
        exact ⟨.inl ⟨hl, fun hk => hj (by rw [← hi, hash it hl hk])⟩, hi⟩
      · rintro ⟨⟨hl, -⟩ | rfl, hi⟩
        · exact ⟨hl, hi⟩
        · exact absurd hi.symm hj

/-- Removing a key from the slot of its hash. -/
lemma remove (ht : TableHolds n buckets l) (hkeys : (l.map MapItem.key).Nodup)
    (hlen : l.length < 2 ^ 32) {x : MapItem V}
    (hash : ∀ it ∈ l, it.key = x.key → it.hash % n = i) {bucket : ArrayInternal (MapItem V)}
    (hb : buckets i = some bucket) :
    ∃ bucket', arrayRemove bucket x = some (bucket', l.find? (fun z => z.key = x.key)) ∧
      TableHolds n (Function.update buckets i (some bucket'))
        (l.filter (fun z => z.key ≠ x.key)) := by
  obtain ⟨lb, hslot, hmem⟩ := ht i
  have hle := slot_length_le hslot hmem
  have hfind := slot_find? hkeys hmem hash
  have hsort := hslot.sorted
  rw [hb] at hslot
  obtain ⟨bucket', lb', r, hrm, hs, -, hspec⟩ :=
    SortedBy.remove isComparator_mapComparator hslot (by omega) x
  obtain ⟨hlb', hr⟩ := hspec.eq_filter isComparator_mapComparator hsort
  refine ⟨bucket', by rw [hrm, hr, hfind], fun j => ?_⟩
  by_cases hj : j = i
  · subst hj
    refine ⟨lb', by rw [Function.update_self]; exact hs, fun it => ?_⟩
    rw [hlb', List.mem_filter, hmem]
    simp only [List.mem_filter, ne_eq, mapComparator_eq_zero, decide_not,
      Bool.not_eq_eq_eq_not, Bool.not_true, decide_eq_false_iff_not, eq_comm (a := x.key)]
    tauto
  · obtain ⟨lj, hslotj, hmemj⟩ := ht j
    refine ⟨lj, by rwa [Function.update_of_ne hj], fun it => ?_⟩
    rw [hmemj]
    simp only [List.mem_filter, ne_eq, decide_not, Bool.not_eq_eq_eq_not, Bool.not_true,
      decide_eq_false_iff_not]
    constructor
    · rintro ⟨hl, hi⟩
      exact ⟨⟨hl, fun hk => hj (by rw [← hi, hash it hl hk])⟩, hi⟩
    · rintro ⟨⟨hl, -⟩, hi⟩
      exact ⟨hl, hi⟩

end TableHolds

/-! ### The rebuild -/

variable [DecidableEq V]

/-- The loop of `CMUTIL_MapRebuild`: the table holds the items seen so far. -/
lemma rebuildItems_spec {n : UInt32} (hn : n ≠ 0) :
    ∀ (rest done : List (MapItem V))
      (st : (UInt32 → Option (ArrayInternal (MapItem V))) × UInt32),
      TableHolds n st.1 done → ((done ++ rest).map MapItem.key).Nodup →
      (done ++ rest).length < 2 ^ 32 →
      ∃ st', rest.foldlM (mapRebuildItem n) st = some st' ∧ TableHolds n st'.1 (done ++ rest)
  | [], done, st, ht, _, _ => ⟨st, rfl, by simpa using ht⟩
  | x :: rest, done, st, ht, hkeys, hlen => by
      have hne : ∀ it ∈ done, it.key ≠ x.key := by
        intro it hit hk
        rw [List.map_append, List.nodup_append] at hkeys
        exact hkeys.2.2 it.key (List.mem_map_of_mem hit) x.key (by simp) hk
      have hdone : (done.map MapItem.key).Nodup := by
        rw [List.map_append, List.nodup_append] at hkeys
        exact hkeys.1
      have hdlen : done.length < 2 ^ 32 := by
        rw [List.length_append] at hlen
        omega
      obtain ⟨bucket, out, hadd, -, -, ht'⟩ :=
        ht.add hdone hdlen (x := x) (fun it hit hk => absurd hk (hne it hit)) false
      have hfilter : done.filter (fun z => z.key ≠ x.key) = done :=
        List.filter_eq_self.mpr fun it hit => by simpa using hne it hit
      rw [hfilter] at ht'
      obtain ⟨usecount, hstep⟩ : ∃ u, mapRebuildItem n st x
          = some (Function.update st.1 (x.hash % n) (some bucket), u) := by
        rw [mapRebuildItem, mapIndex_of_ne_zero hn]
        cases hb : st.1 (x.hash % n) with
        | none =>
            rw [hb, Option.getD_none] at hadd
            exact ⟨st.2 + 1, by simp [hb, hadd]⟩
        | some b =>
            rw [hb, Option.getD_some] at hadd
            exact ⟨st.2, by simp [hb, hadd]⟩
      obtain ⟨st', hfold, hst'⟩ := rebuildItems_spec hn rest (done ++ [x])
        (Function.update st.1 (x.hash % n) (some bucket), usecount) ht'
        (by simpa using hkeys) (by simpa using hlen)
      refine ⟨st', ?_, by simpa using hst'⟩
      rw [List.foldlM_cons, hstep]
      exact hfold

end LibCmutils
