import LibCmutils.Map.Table

/-!
The invariant of `CMUTIL_Map` (`src/maps.c`) and what each operation does to it.

* `MapInv`: the bucket table, the keyset, the size and the sequence counter stand
  for one list of items. The keyset lists it by increasing sequence number, the
  table holds it, keys are listed once.
* `put_inv`, `get_inv`, `remove_spec`, `remove_inv`, `clear_inv`: one operation each.
  `RebuildFits` is the one condition of a put: doubling a table of `2^31` slots gives a
  table of size zero in 32-bit arithmetic, and `hash % 0`. `rebuildFits_of_put`: a put
  that ends has met it.
-/

namespace LibCmutils

variable {V : Type}

/-! ### The invariant -/

/-- The items of a map, in the order of their sequence numbers. -/
structure MapInv (imap : MapInternal V) (l : List (MapItem V)) : Prop where
  keyset : SortedBy mapCompareOrder imap.keyset l
  table : TableHolds imap.bucket_size imap.buckets l
  bucket_size : imap.bucket_size ≠ 0
  keys : (l.map MapItem.key).Nodup
  stored : ∀ it ∈ l, mapKey imap.is_ucase it.key = it.key ∧
    it.hash = mapHashKey imap.is_ucase it.key
  orders : ∀ it ∈ l, 0 ≤ it.order ∧ it.order < imap.order_seq
  seq_nonneg : 0 ≤ imap.order_seq
  size : imap.size = l.length

/-- Two maps with the same parameters, the same keyset and the same counters. -/
structure SameItems (imap imap' : MapInternal V) : Prop where
  keyset : imap'.keyset = imap.keyset
  size : imap'.size = imap.size
  order_seq : imap'.order_seq = imap.order_seq
  is_ucase : imap'.is_ucase = imap.is_ucase
  freecb : imap'.freecb = imap.freecb
  overload : imap'.overload = imap.overload

/-- The keys the abstract map uses: a probe item for a key. -/
def mapProbe (u : Bool) (key : CString) : MapItem V :=
  { key := mapKey u key, value := none, hash := 0, order := 0 }

namespace MapInv

variable {imap imap' : MapInternal V} {l : List (MapItem V)}

lemma create (bucketsize : UInt32) (hbs : bucketsize ≠ 0) (isucase freecb : Bool)
    (overload : UInt32 → UInt32 → Bool) :
    MapInv (V := V) (mapCreateInternal bucketsize isucase freecb overload) [] where
  keyset := SortedBy.create _ _ _
  table := tableHolds_empty _
  bucket_size := hbs
  keys := by simp
  stored := by simp
  orders := by simp
  seq_nonneg := le_rfl
  size := rfl

lemma of_sameItems (h : MapInv imap l) (hs : SameItems imap imap') (hbs : imap'.bucket_size ≠ 0)
    (ht : TableHolds imap'.bucket_size imap'.buckets l) : MapInv imap' l where
  keyset := by rw [hs.keyset]; exact h.keyset
  table := ht
  bucket_size := hbs
  keys := h.keys
  stored := by rw [hs.is_ucase]; exact h.stored
  orders := by rw [hs.order_seq]; exact h.orders
  seq_nonneg := by rw [hs.order_seq]; exact h.seq_nonneg
  size := by rw [hs.size]; exact h.size

lemma orders_inj (h : MapInv imap l) {a b : MapItem V} (ha : a ∈ l) (hb : b ∈ l)
    (hab : a.order = b.order) : a = b := by
  have hnodup : (l.map MapItem.order).Nodup := by
    refine List.Pairwise.map _ (fun a b hlt => ?_) h.keyset.sorted
    rw [mapCompareOrder] at hlt
    omega
  exact List.inj_on_of_nodup_map hnodup ha hb hab

/-- There are at most as many items as sequence numbers given out. -/
lemma length_le (h : MapInv imap l) : (l.length : ℤ) ≤ imap.order_seq := by
  have hnodup : (l.map fun it => it.order.toNat).Nodup := by
    refine List.pairwise_map.mpr (List.Pairwise.imp_of_mem (fun {a b} ha hb hlt => ?_)
      h.keyset.sorted)
    have h1 := h.orders a ha
    have h2 := h.orders b hb
    rw [mapCompareOrder] at hlt
    omega
  have hsub : (l.map fun it => it.order.toNat) ⊆ List.range imap.order_seq.toNat := by
    intro n hn
    obtain ⟨it, hit, rfl⟩ := List.mem_map.mp hn
    have := h.orders it hit
    rw [List.mem_range]
    omega
  have hle := (hnodup.subperm hsub).length_le
  simp only [List.length_map, List.length_range] at hle
  have := h.seq_nonneg
  omega

lemma length_lt (h : MapInv imap l) (hseq : imap.order_seq < 2 ^ 31) : l.length < 2 ^ 32 := by
  have := h.length_le
  omega

/-- An item stored under the key of `key` has the hash of `key`. -/
lemma hash_eq (h : MapInv imap l) {key : CString} {it : MapItem V} (hit : it ∈ l)
    (hk : it.key = mapKey imap.is_ucase key) : it.hash = mapHashKey imap.is_ucase key := by
  rw [(h.stored it hit).2, hk, mapHashKey_mapKey]

end MapInv

variable [DecidableEq V]

/-! ### Putting -/

/-- The rebuild keeps the items, as long as the doubled size is not zero. -/
lemma rebuild_inv {imap : MapInternal V} {l : List (MapItem V)} (h : MapInv imap l)
    (hseq : imap.order_seq < 2 ^ 31) (hfit : imap.bucket_size * 2 ≠ 0) :
    ∃ imap', mapRebuild imap = some imap' ∧ MapInv imap' l ∧ SameItems imap imap' := by
  obtain ⟨st, hfold, ht⟩ := rebuildItems_spec hfit l [] (fun _ => none, 0) (tableHolds_empty _)
    (by simpa using h.keys) (by simpa using h.length_lt hseq)
  have hrun : mapRebuild imap = some { imap with
      buckets := st.1, bucket_size := imap.bucket_size * 2, use_count := st.2 } := by
    simp [mapRebuild, h.keyset.holds.items, hfold]
  exact ⟨_, hrun, h.of_sameItems ⟨rfl, rfl, rfl, rfl, rfl, rfl⟩ hfit (by simpa using ht),
    ⟨rfl, rfl, rfl, rfl, rfl, rfl⟩⟩

/-- The put of a key does not double a table of `2^31` slots: such a table is not
rebuilt, because the slot of the key is in use or the load is low. -/
def RebuildFits (imap : MapInternal V) (key : CString) : Prop :=
  imap.bucket_size = 0x80000000 →
    imap.buckets (mapHashKey imap.is_ucase key % imap.bucket_size) = none →
      imap.overload (imap.use_count + 1) imap.bucket_size = false

lemma mul_two_eq_zero : ∀ {n : UInt32}, n ≠ 0 → n * 2 = 0 → n = 0x80000000 := by
  intro n hn h
  have hpos : n.toNat ≠ 0 := fun h0 => hn (UInt32.toNat_inj.mp h0)
  rw [← UInt32.toNat_inj] at h ⊢
  simp only [UInt32.toNat_mul, UInt32.reduceToNat] at h ⊢
  have := n.toNat_lt
  omega

/-- Finding the bucket for a put keeps the items. -/
lemma putBucket_inv {imap : MapInternal V} {l : List (MapItem V)} (h : MapInv imap l)
    (hseq : imap.order_seq < 2 ^ 31) {key : CString} (hfit : RebuildFits imap key) :
    ∃ imap', mapPutBucket imap (mapHashKey imap.is_ucase key)
        = some (imap', mapHashKey imap.is_ucase key % imap'.bucket_size,
          (imap'.buckets (mapHashKey imap.is_ucase key % imap'.bucket_size)).getD mapNewBucket) ∧
      MapInv imap' l ∧ SameItems imap imap' := by
  set hash := mapHashKey imap.is_ucase key with hhash
  have hidx := mapIndex_of_ne_zero h.bucket_size hash
  cases hb : imap.buckets (hash % imap.bucket_size) with
  | some bucket =>
      refine ⟨imap, ?_, h, ⟨rfl, rfl, rfl, rfl, rfl, rfl⟩⟩
      simp [mapPutBucket, hidx, hb]
  | none =>
      obtain ⟨m, hm, hinv, hsame⟩ : ∃ m, mapPutRebuild imap = some m ∧ MapInv m l ∧
          SameItems imap m := by
        rw [mapPutRebuild]
        by_cases hover : imap.overload (imap.use_count + 1) imap.bucket_size = true
        · have hne : imap.bucket_size * 2 ≠ 0 := fun hz => by
            have := hfit (mul_two_eq_zero h.bucket_size hz) hb
            rw [this] at hover
            exact absurd hover (by simp)
          rw [if_pos hover]
          exact rebuild_inv h hseq hne
        · rw [if_neg hover]
          exact ⟨imap, rfl, h, ⟨rfl, rfl, rfl, rfl, rfl, rfl⟩⟩
      have hidx' := mapIndex_of_ne_zero hinv.bucket_size hash
      cases hb' : m.buckets (hash % m.bucket_size) with
      | some bucket =>
          refine ⟨m, ?_, hinv, hsame⟩
          simp [mapPutBucket, hidx, hb, hm, hidx', hb']
      | none =>
          refine ⟨{ m with use_count := m.use_count + 1 }, ?_, ?_, ?_⟩
          · simp [mapPutBucket, hidx, hb, hm, hidx', hb']
          · exact hinv.of_sameItems ⟨rfl, rfl, rfl, rfl, rfl, rfl⟩ hinv.bucket_size hinv.table
          · exact ⟨hsame.keyset, hsame.size, hsame.order_seq, hsame.is_ucase, hsame.freecb,
              hsame.overload⟩

/-- The item a put stores. -/
def mapPutItem (imap : MapInternal V) (key : CString) (value : Option V) : MapItem V :=
  { key := mapKey imap.is_ucase key
    value := value
    hash := mapHashKey imap.is_ucase key
    order := imap.order_seq }

/-- The parameters of a map, which no operation changes. -/
structure SameMode (imap imap' : MapInternal V) : Prop where
  is_ucase : imap'.is_ucase = imap.is_ucase
  freecb : imap'.freecb = imap.freecb
  overload : imap'.overload = imap.overload

/-- A new item at the end of the keyset keeps it sorted by sequence number. -/
lemma keyset_add {l : List (MapItem V)} {keyset : ArrayInternal (MapItem V)}
    (h : SortedBy mapCompareOrder keyset l) (hlen : l.length < 2 ^ 32) {x : MapItem V}
    (hlt : ∀ it ∈ l, it.order < x.order) :
    ∃ keyset' out, arrayAdd true keyset x false = some (keyset', out) ∧ out.result = true ∧
      SortedBy mapCompareOrder keyset' (l ++ [x]) := by
  obtain ⟨keyset', l', out, hadd, hs, -, hspec⟩ :=
    h.add isComparator_mapCompareOrder hlen x false
  have hsorted : StrictSorted mapCompareOrder (l ++ [x]) := by
    have := h.sorted
    refine StrictSorted.insert isComparator_mapCompareOrder (by simpa using this) (fun z hz => ?_)
      (by simp)
    have := hlt z hz
    rw [mapCompareOrder]
    omega
  have hperm : l'.Perm (l ++ [x]) := by
    refine (List.perm_ext_iff_of_nodup (hs.sorted.nodup isComparator_mapCompareOrder)
      (hsorted.nodup isComparator_mapCompareOrder)).mpr fun z => ?_
    rw [hspec.mem_iff isComparator_mapCompareOrder h.sorted]
    simp only [List.mem_append, List.mem_singleton, ne_eq, mapCompareOrder_eq_zero]
    constructor
    · rintro (rfl | ⟨hz, -⟩)
      · exact .inr rfl
      · exact .inl hz
    · rintro (hz | rfl)
      · exact .inr ⟨hz, (hlt z hz).ne'⟩
      · exact .inl rfl
  have heq : l' = l ++ [x] :=
    hperm.eq_of_pairwise (fun a b _ _ hab hba => by
      rw [mapCompareOrder] at hab hba
      omega) hs.sorted hsorted
  exact ⟨keyset', out, hadd, hspec.result_eq, heq ▸ hs⟩

/-- Removing an item from the keyset. -/
lemma keyset_remove {imap : MapInternal V} {l : List (MapItem V)} (h : MapInv imap l)
    (hlen : l.length < 2 ^ 32) {y : MapItem V} (hy : y ∈ l) :
    ∃ keyset', arrayRemove imap.keyset y = some (keyset', some y) ∧
      SortedBy mapCompareOrder keyset' (l.filter fun z => z.key ≠ y.key) := by
  obtain ⟨keyset', l', r, hrm, hs, -, hspec⟩ :=
    h.keyset.remove isComparator_mapCompareOrder hlen y
  obtain ⟨hl', hr⟩ := hspec.eq_filter isComparator_mapCompareOrder h.keyset.sorted
  have hiff : ∀ z ∈ l, (mapCompareOrder y z = 0 ↔ z.key = y.key) := by
    intro z hz
    rw [mapCompareOrder_eq_zero]
    constructor
    · intro ho
      rw [h.orders_inj hy hz ho]
    · intro hk
      rw [List.inj_on_of_nodup_map h.keys hz hy hk]
  have hfilter : l' = l.filter fun z => z.key ≠ y.key := by
    rw [hl']
    refine List.filter_congr fun z hz => ?_
    simp [hiff z hz]
  have hfind : r = some y := by
    rw [hr]
    obtain ⟨z, hz⟩ := Option.isSome_iff_exists.mp
      (List.find?_isSome.mpr ⟨y, hy, by simp⟩ :
        (l.find? fun z => mapCompareOrder y z = 0).isSome)
    have ho : y.order = z.order := by simpa using List.find?_some hz
    rw [hz, h.orders_inj (List.mem_of_find?_eq_some hz) hy ho.symm]
  exact ⟨keyset', by rw [hrm, hfind], hfilter ▸ hs⟩

omit [DecidableEq V] in
/-- The one item of a key, and the items without it. -/
lemma perm_cons_filter_key {l : List (MapItem V)} (hkeys : (l.map MapItem.key).Nodup)
    {y : MapItem V} (hy : y ∈ l) : l.Perm (y :: l.filter fun z => z.key ≠ y.key) := by
  obtain ⟨pre, post, rfl⟩ := List.append_of_mem hy
  rw [List.map_append, List.map_cons, List.nodup_append, List.nodup_cons] at hkeys
  obtain ⟨-, ⟨hpost, -⟩, hpre⟩ := hkeys
  have h1 : pre.filter (fun z => z.key ≠ y.key) = pre :=
    List.filter_eq_self.mpr fun z hz => by
      simpa using hpre z.key (List.mem_map_of_mem hz) y.key (by simp)
  have h2 : post.filter (fun z => z.key ≠ y.key) = post :=
    List.filter_eq_self.mpr fun z hz => by
      simpa using fun hk : z.key = y.key => hpost (hk ▸ List.mem_map_of_mem hz)
  rw [List.filter_append, List.filter_cons_of_neg (by simp), h1, h2]
  exact List.perm_middle

omit [DecidableEq V] in
/-- Leaving out the one item of a key. -/
lemma length_filter_key {l : List (MapItem V)} (hkeys : (l.map MapItem.key).Nodup) {y : MapItem V}
    (hy : y ∈ l) : (l.filter fun z => z.key ≠ y.key).length + 1 = l.length :=
  (perm_cons_filter_key hkeys hy).length_eq.symm

omit [DecidableEq V] in
/-- A new item comes after those with other keys. -/
lemma keys_put {l : List (MapItem V)} (hkeys : (l.map MapItem.key).Nodup) (x : MapItem V) :
    ((l.filter (fun z => z.key ≠ x.key) ++ [x]).map MapItem.key).Nodup := by
  rw [List.map_append, List.nodup_append]
  refine ⟨hkeys.sublist (List.filter_sublist.map _), by simp, ?_⟩
  rintro a ha b hb rfl
  obtain ⟨it, hit, rfl⟩ := List.mem_map.mp ha
  have hne := (List.mem_filter.mp hit).2
  simp only [List.map_cons, List.map_nil, List.mem_singleton] at hb
  simp [hb] at hne

omit [DecidableEq V] in
/-- The items after `put` are stored under their keys, with numbers below the next one. -/
lemma MapInv.put_items {imap : MapInternal V} {l : List (MapItem V)} (h : MapInv imap l)
    (key : CString) (value : Option V) :
    ∀ it ∈ l.filter (fun z => z.key ≠ mapKey imap.is_ucase key) ++ [mapPutItem imap key value],
      (mapKey imap.is_ucase it.key = it.key ∧ it.hash = mapHashKey imap.is_ucase it.key) ∧
        0 ≤ it.order ∧ it.order < imap.order_seq + 1 := by
  intro it hit
  rcases List.mem_append.mp hit with hit | hit
  · have hit := (List.mem_filter.mp hit).1
    have horder := h.orders it hit
    exact ⟨h.stored it hit, by omega⟩
  · rw [List.mem_singleton.mp hit]
    exact ⟨⟨mapKey_mapKey _ _, (mapHashKey_mapKey _ _).symm⟩, h.seq_nonneg,
      lt_add_one imap.order_seq⟩

/-- **Put.** The value replaced is the one stored under the key, and the new item
is the last one. -/
theorem put_inv {imap : MapInternal V} {l : List (MapItem V)} (h : MapInv imap l)
    (hseq : imap.order_seq < 2 ^ 31) {key : CString} (hfit : RebuildFits imap key)
    (value : Option V) :
    ∃ imap', mapPut imap key value = some (imap', true,
        (l.find? fun z => z.key = mapKey imap.is_ucase key).bind MapItem.value) ∧
      MapInv imap' (l.filter (fun z => z.key ≠ mapKey imap.is_ucase key)
        ++ [mapPutItem imap key value]) ∧
      SameMode imap imap' ∧ imap'.order_seq = imap.order_seq + 1 := by
  obtain ⟨m, hbucket, hinv, hsame⟩ := putBucket_inv h hseq hfit
  have hlen := h.length_lt hseq
  set x := mapPutItem imap key value with hx
  have hxm : (⟨mapKey m.is_ucase key, value, mapHashKey imap.is_ucase key, m.order_seq⟩ :
      MapItem V) = x := by
    rw [hx, mapPutItem, hsame.is_ucase, hsame.order_seq]
  obtain ⟨bucket, out, hadd, hres, hret, ht⟩ := hinv.table.add h.keys hlen (x := x)
    (fun it hit hk => h.hash_eq hit hk) true
  have hxh : x.hash = mapHashKey imap.is_ucase key := rfl
  rw [hxh] at hadd ht
  have hxo : ∀ it ∈ l, it.order < x.order := fun it hit => (h.orders it hit).2
  have hitems := h.put_items key value
  -- the two outcomes differ in the keyset and the size
  have hbase : ∃ keyset size, mapPutBase imap key value = some ({ m with
        buckets := Function.update m.buckets
          (mapHashKey imap.is_ucase key % m.bucket_size) (some bucket)
        order_seq := m.order_seq + 1
        keyset := keyset
        size := size }, some x, (l.find? fun z => z.key = x.key).bind MapItem.value) ∧
      SortedBy mapCompareOrder keyset (l.filter fun z => z.key ≠ x.key) ∧
      size = (l.filter fun z => z.key ≠ x.key).length + 1 := by
    have hret' := hret rfl
    cases hfind : l.find? fun z => z.key = x.key with
    | none =>
        have hfilter : l.filter (fun z => z.key ≠ x.key) = l := by
          refine List.filter_eq_self.mpr fun z hz => ?_
          simpa using List.find?_eq_none.mp hfind z hz
        refine ⟨m.keyset, m.size + 1, ?_, ?_, ?_⟩
        · rw [hfind] at hret'
          simp [mapPutBase, hbucket, hxm, hadd, hres, hret']
        · rw [hfilter]
          exact hinv.keyset
        · rw [hfilter, hinv.size]
    | some y =>
        have hy := List.mem_of_find?_eq_some hfind
        have hyk : y.key = x.key := by simpa using List.find?_some hfind
        obtain ⟨keyset, hrm, hks⟩ := keyset_remove hinv hlen hy
        rw [hyk] at hks
        refine ⟨keyset, m.size, ?_, hks, ?_⟩
        · rw [hfind] at hret'
          simp [mapPutBase, hbucket, hxm, hadd, hres, hret', hrm]
        · rw [hinv.size, ← hyk, length_filter_key h.keys hy]
  obtain ⟨keyset, size, hbase, hks, hsize⟩ := hbase
  have hflen : (l.filter fun z => z.key ≠ x.key).length < 2 ^ 32 :=
    lt_of_le_of_lt (List.length_filter_le _ _) hlen
  obtain ⟨keyset', out', hadd', hres', hks'⟩ := keyset_add hks hflen (x := x)
    fun it hit => hxo it (List.mem_filter.mp hit).1
  have hput : mapPut imap key value = some ({ m with
        buckets := Function.update m.buckets
          (mapHashKey imap.is_ucase key % m.bucket_size) (some bucket)
        order_seq := m.order_seq + 1
        keyset := keyset'
        size := size }, true, (l.find? fun z => z.key = x.key).bind MapItem.value) := by
    simp [mapPut, hbase, hadd', hres']
  refine ⟨_, hput, ?_, ?_, ?_⟩
  · exact {
      keyset := hks'
      table := ht
      bucket_size := hinv.bucket_size
      keys := keys_put h.keys x
      stored := by
        intro it hit
        rw [hsame.is_ucase]
        exact (hitems it hit).1
      orders := by
        intro it hit
        change 0 ≤ it.order ∧ it.order < m.order_seq + 1
        rw [hsame.order_seq]
        exact (hitems it hit).2
      seq_nonneg := by
        have := hinv.seq_nonneg
        change 0 ≤ m.order_seq + 1
        omega
      size := by
        rw [List.length_append, List.length_singleton]
        exact hsize }
  · exact ⟨hsame.is_ucase, hsame.freecb, hsame.overload⟩
  · change m.order_seq + 1 = imap.order_seq + 1
    rw [hsame.order_seq]

/-- A table that is doubled to size zero has no slot for the new key. -/
lemma rebuildFits_of_put {imap imap' : MapInternal V} {l : List (MapItem V)} (h : MapInv imap l)
    {key : CString} {value prev : Option V} {r : Bool}
    (hput : mapPut imap key value = some (imap', r, prev)) : RebuildFits imap key := by
  intro hsize hslot
  by_contra hover
  rw [Bool.not_eq_false] at hover
  have hidx := mapIndex_of_ne_zero h.bucket_size (mapHashKey imap.is_ucase key)
  have hzero : imap.bucket_size * 2 = 0 := by
    rw [hsize]
    rfl
  have hbucket : mapPutBucket imap (mapHashKey imap.is_ucase key) = none := by
    simp only [mapPutBucket, hidx, Option.bind_eq_bind, Option.bind_some, hslot, mapPutRebuild,
      if_pos hover]
    cases hrebuild : mapRebuild imap with
    | none => rfl
    | some m =>
        obtain ⟨items, -, hrest⟩ := Option.bind_eq_some_iff.mp hrebuild
        obtain ⟨st, -, hm⟩ := Option.bind_eq_some_iff.mp hrest
        obtain rfl := Option.some.inj hm
        simp [mapIndex, hzero]
  simp [mapPut, mapPutBase, hbucket] at hput

/-! ### Looking up, removing and clearing -/

/-- **Get.** -/
theorem get_inv {imap : MapInternal V} {l : List (MapItem V)} (h : MapInv imap l)
    (hseq : imap.order_seq < 2 ^ 31) (key : CString) :
    mapGet imap key = some ((l.find? fun z => z.key = mapKey imap.is_ucase key).bind
      MapItem.value) := by
  have hidx := mapIndex_of_ne_zero h.bucket_size (mapHashKey imap.is_ucase key)
  have hash : ∀ it ∈ l, it.key = (mapProbe (V := V) imap.is_ucase key).key →
      it.hash % imap.bucket_size = mapHashKey imap.is_ucase key % imap.bucket_size :=
    fun it hit hk => by rw [h.hash_eq hit hk]
  cases hb : imap.buckets (mapHashKey imap.is_ucase key % imap.bucket_size) with
  | none =>
      have hfind := h.table.find_none hash hb
      rw [show mapKey imap.is_ucase key = (mapProbe (V := V) imap.is_ucase key).key from rfl, hfind]
      simp [mapGet, hidx, hb]
  | some bucket =>
      obtain ⟨r, hr, hfind⟩ := h.table.find h.keys (h.length_lt hseq) hash hb
      rw [mapProbe] at hr
      rw [show mapKey imap.is_ucase key = (mapProbe (V := V) imap.is_ucase key).key from rfl,
        ← hfind]
      simp only [mapGet, hidx, hb, hr, Option.bind_eq_bind, Option.bind_some]
      cases r <;> rfl

/-- The size that `CMUTIL_MapRemove` leaves: it goes down with a non-`NULL` result. -/
def mapRemoveSize (imap : MapInternal V) (r : Option V) : ℕ :=
  if r.isSome then imap.size - 1 else imap.size

/-- **Remove**: the items lose the key, and the size is that of `mapRemoveSize`. -/
theorem remove_spec {imap : MapInternal V} {l : List (MapItem V)} (h : MapInv imap l)
    (hseq : imap.order_seq < 2 ^ 31) (key : CString) :
    ∃ imap' r, r = (l.find? fun z => z.key = mapKey imap.is_ucase key).bind MapItem.value ∧
      mapRemove imap key = some ({ imap' with size := mapRemoveSize imap r }, r) ∧
      MapInv imap' (l.filter fun z => z.key ≠ mapKey imap.is_ucase key) ∧
      SameMode imap imap' ∧ imap'.order_seq = imap.order_seq := by
  have hidx := mapIndex_of_ne_zero h.bucket_size (mapHashKey imap.is_ucase key)
  set nk := mapKey imap.is_ucase key with hnk
  have hash : ∀ it ∈ l, it.key = (mapProbe (V := V) imap.is_ucase key).key →
      it.hash % imap.bucket_size = mapHashKey imap.is_ucase key % imap.bucket_size :=
    fun it hit hk => by rw [h.hash_eq hit hk]
  have hlen := h.length_lt hseq
  cases hfind : l.find? fun z => z.key = nk with
  | none =>
      have hfilter : l.filter (fun z => z.key ≠ nk) = l := by
        refine List.filter_eq_self.mpr fun z hz => ?_
        simpa using List.find?_eq_none.mp hfind z hz
      rw [hfilter]
      cases hb : imap.buckets (mapHashKey imap.is_ucase key % imap.bucket_size) with
      | none =>
          exact ⟨imap, none, rfl, by simp [mapRemove, hidx, hb, mapRemoveSize], h,
            ⟨rfl, rfl, rfl⟩, rfl⟩
      | some bucket =>
          obtain ⟨bucket', hrm, ht⟩ := h.table.remove h.keys hlen hash hb
          have hfind' : l.find? (fun z => z.key = (mapProbe (V := V) imap.is_ucase key).key)
              = none := hfind
          have hfilter' : l.filter (fun z => z.key ≠ (mapProbe (V := V) imap.is_ucase key).key)
              = l := hfilter
          rw [hfind', mapProbe, ← hnk] at hrm
          rw [hfilter'] at ht
          refine ⟨{ imap with
              buckets := Function.update imap.buckets
                (mapHashKey imap.is_ucase key % imap.bucket_size) (some bucket') }, none, rfl, ?_,
            h.of_sameItems ⟨rfl, rfl, rfl, rfl, rfl, rfl⟩ h.bucket_size ht, ⟨rfl, rfl, rfl⟩, rfl⟩
          simp [mapRemove, hidx, hb, ← hnk, hrm, mapRemoveSize]
  | some y =>
      have hy := List.mem_of_find?_eq_some hfind
      have hyk : y.key = nk := by simpa using List.find?_some hfind
      cases hb : imap.buckets (mapHashKey imap.is_ucase key % imap.bucket_size) with
      | none =>
          have hnone := h.table.find_none hash hb
          rw [show (mapProbe (V := V) imap.is_ucase key).key = nk from rfl, hfind] at hnone
          cases hnone
      | some bucket =>
          obtain ⟨bucket', hrm, ht⟩ := h.table.remove h.keys hlen hash hb
          have hfind' : l.find? (fun z => z.key = (mapProbe (V := V) imap.is_ucase key).key)
              = some y := hfind
          rw [hfind', mapProbe, ← hnk] at hrm
          obtain ⟨keyset, hkrm, hks⟩ := keyset_remove h hlen hy
          rw [hyk] at hks
          refine ⟨{ imap with
              buckets := Function.update imap.buckets
                (mapHashKey imap.is_ucase key % imap.bucket_size) (some bucket')
              keyset := keyset
              size := imap.size - 1 }, y.value, rfl, ?_, ?_, ⟨rfl, rfl, rfl⟩, rfl⟩
          · simp [mapRemove, hidx, hb, ← hnk, hrm, hkrm, mapRemoveSize]
          · exact {
              keyset := hks
              table := ht
              bucket_size := h.bucket_size
              keys := h.keys.sublist (List.filter_sublist.map _)
              stored := fun it hit => h.stored it (List.mem_filter.mp hit).1
              orders := fun it hit => h.orders it (List.mem_filter.mp hit).1
              seq_nonneg := h.seq_nonneg
              size := by
                have := length_filter_key h.keys hy
                rw [hyk] at this
                change imap.size - 1 = _
                rw [h.size]
                omega }

/-- Remove of a key with a non-`NULL` value, or of a key that is not there. -/
theorem remove_inv {imap : MapInternal V} {l : List (MapItem V)} (h : MapInv imap l)
    (hseq : imap.order_seq < 2 ^ 31) (key : CString)
    (hval : ∀ it ∈ l, it.key = mapKey imap.is_ucase key → it.value.isSome) :
    ∃ imap', mapRemove imap key = some (imap',
        (l.find? fun z => z.key = mapKey imap.is_ucase key).bind MapItem.value) ∧
      MapInv imap' (l.filter fun z => z.key ≠ mapKey imap.is_ucase key) ∧
      SameMode imap imap' ∧ imap'.order_seq = imap.order_seq := by
  obtain ⟨imap', r, hr, hrun, hinv, hmode, hseq'⟩ := remove_spec h hseq key
  have hsize : mapRemoveSize imap r = imap'.size := by
    rw [hinv.size, mapRemoveSize, h.size]
    cases hfind : l.find? fun z => z.key = mapKey imap.is_ucase key with
    | none =>
        rw [hfind] at hr
        subst hr
        refine (congrArg List.length (List.filter_eq_self.mpr fun z hz => ?_)).symm
        simpa using List.find?_eq_none.mp hfind z hz
    | some y =>
        have hy := List.mem_of_find?_eq_some hfind
        have hyk : y.key = mapKey imap.is_ucase key := by simpa using List.find?_some hfind
        rw [hfind] at hr
        subst hr
        rw [Option.bind_some, if_pos (hval y hy hyk), ← hyk, ← length_filter_key h.keys hy]
        rfl
  rw [hsize, hr] at hrun
  exact ⟨imap', hrun, hinv, hmode, hseq'⟩

omit [DecidableEq V] in
/-- The items of the slots, taken together, are the items of the map. -/
lemma bucketItems_perm {imap : MapInternal V} {l : List (MapItem V)} (h : MapInv imap l) :
    ∃ items, mapBucketItems imap = some items ∧ items.Perm l := by
  choose slot hslot hmem using h.table
  have hread : ∀ index, mapSlotItems imap index = some (slot index) := by
    intro index
    have hi := hslot index
    rw [mapSlotItems]
    cases hb : imap.buckets index with
    | none =>
        rw [hb] at hi
        simp [show slot index = [] from hi]
    | some bucket =>
        rw [hb] at hi
        exact (SortedBy.holds hi).items
  have hrun : mapBucketItems imap
      = some ((List.range imap.bucket_size.toNat).map fun i => slot (UInt32.ofNat i)).flatten := by
    have hmap : (List.range imap.bucket_size.toNat).mapM
        (fun i => mapSlotItems imap (UInt32.ofNat i))
        = some ((List.range imap.bucket_size.toNat).map fun i => slot (UInt32.ofNat i)) := by
      refine mapM_eq_some ?_
      rw [List.map_map]
      exact List.map_congr_left fun i _ => hread _
    simp [mapBucketItems, hmap]
  refine ⟨_, hrun, ?_⟩
  refine (List.perm_ext_iff_of_nodup ?_ (h.keyset.sorted.nodup isComparator_mapCompareOrder)).mpr
    fun it => ?_
  · refine List.nodup_flatten.mpr ⟨?_, ?_⟩
    · intro lb hlb
      obtain ⟨i, -, rfl⟩ := List.mem_map.mp hlb
      exact (hslot _).sorted.nodup isComparator_mapComparator
    · refine List.pairwise_map.mpr (List.Pairwise.imp_of_mem (fun {i j} hi hj hij => ?_)
        List.nodup_range)
      intro it hiti hitj
      have h1 := ((hmem _ it).mp hiti).2
      have h2 := ((hmem _ it).mp hitj).2
      have hsize := imap.bucket_size.toNat_lt
      rw [List.mem_range] at hi hj
      have heq := congrArg UInt32.toNat (h1.symm.trans h2)
      simp only [UInt32.toNat_ofNat'] at heq
      rw [Nat.mod_eq_of_lt (by omega), Nat.mod_eq_of_lt (by omega)] at heq
      exact hij heq
  · simp only [List.mem_flatten, List.mem_map, List.mem_range, exists_exists_and_eq_and]
    constructor
    · rintro ⟨i, -, hit⟩
      exact ((hmem _ it).mp hit).1
    · intro hit
      have hlt : (it.hash % imap.bucket_size).toNat < imap.bucket_size.toNat := by
        rw [UInt32.toNat_mod]
        refine Nat.mod_lt _ (Nat.pos_of_ne_zero fun h0 => ?_)
        exact h.bucket_size (UInt32.toNat_inj.mp h0)
      exact ⟨_, hlt, (hmem _ it).mpr ⟨hit, (UInt32.ofNat_toNat).symm⟩⟩

omit [DecidableEq V] in
/-- **Clear** and **ClearLink**. -/
theorem clear_inv {imap : MapInternal V} {l : List (MapItem V)} (h : MapInv imap l)
    (freedata : Bool) :
    ∃ imap' freed, mapClearBase imap freedata = some (imap', freed) ∧ MapInv imap' [] ∧
      SameMode imap imap' ∧ imap'.order_seq = imap.order_seq ∧
      freed.Perm (if imap.freecb && freedata then l.map MapItem.value else []) := by
  obtain ⟨items, hitems, hperm⟩ := bucketItems_perm h
  obtain ⟨keyset, hclear, hks⟩ := h.keyset.clear
  have hrun : mapClearBase imap freedata = some ({ imap with
        buckets := fun i => (imap.buckets i).map fun bucket => (arrayClear bucket).1
        keyset := (arrayClear imap.keyset).1
        size := 0 }, if imap.freecb && freedata then items.map MapItem.value else []) := by
    simp [mapClearBase, hitems]
  refine ⟨_, _, hrun, ?_, ⟨rfl, rfl, rfl⟩, rfl, ?_⟩
  · exact {
      keyset := by
        rw [hclear]
        exact hks
      table := h.table.clear
      bucket_size := h.bucket_size
      keys := by simp
      stored := by simp
      orders := by simp
      seq_nonneg := h.seq_nonneg
      size := rfl }
  · split
    · exact hperm.map _
    · exact .nil

end LibCmutils
