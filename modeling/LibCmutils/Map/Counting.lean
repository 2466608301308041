import LibCmutils.Map.Invariant
import LibCmutils.Lib.Transition

/-!
The size of a `CMUTIL_Map` (`src/maps.c`) whose values may be `NULL`.

* `MapAct`, `mapStep`, `mapSystem`: the calls that change what a map holds, and their runs.
* `MapCounted`: the size is the number of the pairs, and every index below it has an item.
* `RemoveCounts`: the condition on a removal. `CMUTIL_MapRemove` counts down by its result,
  not by the item it found.
* `MapInv.counted`, `mapStep_inv`: the property and one step. `mapStep_uncounted`: a step
  that does not meet the condition.

The main result is `mapCounted_iff`.
-/

namespace LibCmutils

variable {V : Type}

/-- The calls of the interface that change what a map holds. -/
inductive MapAct (V : Type) where
  | put (key : CString) (value : Option V)
  | remove (key : CString)
  | removeAt (index : ℕ)
  | clear
  | clearLink

/-- The value stored under a key is `NULL`. -/
def MapStoresNull (imap : MapInternal V) (key : CString) : Prop :=
  ∃ pairs, mapGetPairs imap = some pairs ∧ (mapKey imap.is_ucase key, none) ∈ pairs

/-- A removal does not find a `NULL` value. -/
def RemoveCounts (imap : MapInternal V) : MapAct V → Prop
  | .remove key => ¬MapStoresNull imap key
  | .removeAt index => index < mapGetSize imap →
      ∀ item, arrayGetAt imap.keyset index = some item → item.value ≠ none
  | _ => True

variable [DecidableEq V]

/-- One call. The run ends where the `int` that numbers the items would overflow. -/
def mapStep (imap : MapInternal V) : MapAct V → Option (MapInternal V)
  | .put key value =>
      if imap.order_seq + 1 < 2 ^ 31 then (mapPut imap key value).map Prod.fst else none
  | .remove key => (mapRemove imap key).map Prod.fst
  | .removeAt index => (mapRemoveAt imap index).map Prod.fst
  | .clear => (mapClear imap).map Prod.fst
  | .clearLink => (mapClearLink imap).map Prod.fst

/-- The runs of the interface on a map that was created with at least one slot. -/
def mapSystem (V : Type) [DecidableEq V] : TransitionSystem (MapInternal V) (MapAct V) where
  init imap := ∃ bucketsize isucase freecb overload, bucketsize ≠ 0 ∧
    imap = mapCreateInternal bucketsize isucase freecb overload
  step := mapStep

/-- The size is the number of the pairs, in the listing and in the buckets, and every index
below it has an item, which `GetAt` and `RemoveAt` find. -/
structure MapCounted (imap : MapInternal V) : Prop where
  pairs : (mapGetPairs imap).map List.length = some (mapGetSize imap)
  items : (mapBucketItems imap).map List.length = some (mapGetSize imap)
  getAt : ∀ i < mapGetSize imap, ∃ item, arrayGetAt imap.keyset i = some item ∧
    mapGetAt imap i = some item.value
  removeAt : ∀ i < mapGetSize imap, ∃ item imap', arrayGetAt imap.keyset i = some item ∧
    mapRemoveAt imap i = some (imap', item.value)

/-! ### Good states -/

section Counted

variable {imap imap' : MapInternal V} {l : List (MapItem V)}

omit [DecidableEq V] in
lemma MapInv.getPairs (h : MapInv imap l) :
    mapGetPairs imap = some (l.map fun it => (it.key, it.value)) := by
  simp [mapGetPairs, h.keyset.holds.items]

omit [DecidableEq V] in
/-- The item that is found under the key of an item. -/
lemma MapInv.find?_key (h : MapInv imap l) {it : MapItem V} (hit : it ∈ l) :
    l.find? (fun z => z.key = mapKey imap.is_ucase it.key) = some it := by
  rw [(h.stored it hit).1]
  obtain ⟨y, hy⟩ := Option.isSome_iff_exists.mp
    (List.find?_isSome.mpr ⟨it, hit, by simp⟩ : (l.find? fun z => z.key = it.key).isSome)
  have hkey : y.key = it.key := by simpa using List.find?_some hy
  rw [hy, List.inj_on_of_nodup_map h.keys (List.mem_of_find?_eq_some hy) hit hkey]

/-- A map whose items are known is counted. -/
lemma MapInv.counted (h : MapInv imap l) (hseq : imap.order_seq < 2 ^ 31) : MapCounted imap := by
  have hat : ∀ i < mapGetSize imap, ∃ item ∈ l, arrayGetAt imap.keyset i = some item := by
    intro i hi
    rw [mapGetSize, h.size] at hi
    exact ⟨l[i], List.getElem_mem hi, by rw [h.keyset.holds.getAt_eq, List.getElem?_eq_getElem hi]⟩
  refine ⟨?_, ?_, fun i hi => ?_, fun i hi => ?_⟩
  · rw [h.getPairs, Option.map_some, List.length_map, mapGetSize, h.size]
  · obtain ⟨items, hitems, hperm⟩ := bucketItems_perm h
    rw [hitems, Option.map_some, hperm.length_eq, mapGetSize, h.size]
  · obtain ⟨item, hmem, hitem⟩ := hat i hi
    refine ⟨item, hitem, ?_⟩
    rw [mapGetAt, if_pos (show i < imap.size from hi), hitem, Option.bind_eq_bind, Option.bind_some, get_inv h hseq,
      h.find?_key hmem]
    rfl
  · obtain ⟨item, hmem, hitem⟩ := hat i hi
    obtain ⟨imap', r, hr, hrun, -⟩ := remove_spec h hseq item.key
    rw [h.find?_key hmem, Option.bind_some] at hr
    refine ⟨item, { imap' with size := mapRemoveSize imap r }, hitem, ?_⟩
    rw [mapRemoveAt, if_pos (show i < imap.size from hi), hitem, Option.bind_eq_bind,
      Option.bind_some, hrun, hr]

/-! ### One step -/

/-- The items of a map, and room for one more number. -/
def MapGood (imap : MapInternal V) : Prop := (∃ l, MapInv imap l) ∧ imap.order_seq < 2 ^ 31

lemma MapGood.counted (h : MapGood imap) : MapCounted imap := by
  obtain ⟨⟨l, hl⟩, hseq⟩ := h
  exact hl.counted hseq

/-- A removal of a key that does not store `NULL`. -/
lemma MapGood.remove (h : MapGood imap) {key : CString} (hnull : ¬MapStoresNull imap key)
    (hs : (mapRemove imap key).map Prod.fst = some imap') : MapGood imap' := by
  obtain ⟨⟨l, hl⟩, hseq⟩ := h
  have hval : ∀ it ∈ l, it.key = mapKey imap.is_ucase key → it.value.isSome := by
    intro it hit hkey
    rw [Option.isSome_iff_ne_none]
    intro hnone
    refine hnull ⟨_, hl.getPairs, ?_⟩
    rw [← hkey, ← hnone]
    exact List.mem_map_of_mem hit
  obtain ⟨imap₁, hrun, hinv, -, hseq'⟩ := remove_inv hl hseq key hval
  rw [hrun] at hs
  obtain rfl := Option.some.inj hs
  exact ⟨⟨_, hinv⟩, by rw [hseq']; exact hseq⟩

/-- A removal at an index is the removal of the key there. -/
lemma MapGood.removeAt_cases (h : MapGood imap) (index : ℕ) :
    ¬index < mapGetSize imap ∧ mapRemoveAt imap index = some (imap, none) ∨
      index < mapGetSize imap ∧ ∃ item, arrayGetAt imap.keyset index = some item ∧
        mapRemoveAt imap index = mapRemove imap item.key ∧
        (MapStoresNull imap item.key ↔ item.value = none) := by
  obtain ⟨⟨l, hl⟩, -⟩ := h
  by_cases hi : index < mapGetSize imap
  · refine .inr ⟨hi, ?_⟩
    have hlt : index < l.length := by rwa [mapGetSize, hl.size] at hi
    have hmem : l[index] ∈ l := List.getElem_mem hlt
    have hitem : arrayGetAt imap.keyset index = some l[index] := by
      rw [hl.keyset.holds.getAt_eq, List.getElem?_eq_getElem hlt]
    refine ⟨l[index], hitem, ?_, ?_⟩
    · rw [mapRemoveAt, if_pos (show index < imap.size from hi), hitem, Option.bind_eq_bind,
        Option.bind_some]
    · rw [MapStoresNull, hl.getPairs, (hl.stored _ hmem).1]
      constructor
      · rintro ⟨pairs, hpairs, hnull⟩
        obtain rfl := Option.some.inj hpairs
        obtain ⟨it, hit, heq⟩ := List.mem_map.mp hnull
        obtain ⟨hkey, hvalue⟩ := Prod.mk.inj heq
        rw [← List.inj_on_of_nodup_map hl.keys hit hmem hkey, hvalue]
      · intro hnone
        refine ⟨_, rfl, ?_⟩
        rw [← hnone]
        exact List.mem_map_of_mem hmem
  · refine .inl ⟨hi, ?_⟩
    rw [mapRemoveAt, if_neg (show ¬index < imap.size from hi)]

/-- **One step.** A call that meets the condition keeps the items known. -/
theorem mapStep_inv {a : MapAct V} (h : MapGood imap) (hc : RemoveCounts imap a)
    (hs : mapStep imap a = some imap') : MapGood imap' := by
  cases a with
  | put key value =>
      obtain ⟨⟨l, hl⟩, hseq⟩ := h
      rw [mapStep] at hs
      split_ifs at hs with hlt
      obtain ⟨⟨imap₁, r, prev⟩, hput, rfl⟩ := Option.map_eq_some_iff.mp hs
      obtain ⟨imap₂, hput', hinv, -, hseq'⟩ :=
        put_inv hl hseq (rebuildFits_of_put hl hput) value
      obtain rfl : imap₁ = imap₂ := congrArg Prod.fst (Option.some.inj (hput.symm.trans hput'))
      exact ⟨⟨_, hinv⟩, by rw [hseq']; exact hlt⟩
  | remove key => exact h.remove hc hs
  | removeAt index =>
      rw [mapStep] at hs
      rcases h.removeAt_cases index with ⟨-, hrun⟩ | ⟨hi, item, hitem, hrun, hnull⟩
      · rw [hrun] at hs
        obtain rfl := Option.some.inj hs
        exact h
      · rw [hrun] at hs
        exact h.remove (fun hnone => hc hi item hitem (hnull.mp hnone)) hs
  | clear | clearLink =>
      obtain ⟨⟨l, hl⟩, hseq⟩ := h
      obtain ⟨⟨imap₁, freed⟩, hclear, rfl⟩ := Option.map_eq_some_iff.mp hs
      obtain ⟨imap₂, freed', hclear', hinv, -, hseq', -⟩ := clear_inv hl _
      obtain rfl : imap₁ = imap₂ :=
        congrArg Prod.fst (Option.some.inj (hclear.symm.trans hclear'))
      exact ⟨⟨_, hinv⟩, by rw [hseq']; exact hseq⟩

/-- The size that is left after a `NULL` value was removed is one too large. -/
lemma MapGood.remove_null (h : MapGood imap) {key : CString} (hnull : MapStoresNull imap key)
    (hs : (mapRemove imap key).map Prod.fst = some imap') : ¬MapCounted imap' := by
  obtain ⟨⟨l, hl⟩, hseq⟩ := h
  obtain ⟨pairs, hpairs, hmem⟩ := hnull
  rw [hl.getPairs] at hpairs
  obtain rfl := Option.some.inj hpairs
  obtain ⟨it, hit, heq⟩ := List.mem_map.mp hmem
  obtain ⟨hkey, hvalue⟩ := Prod.mk.inj heq
  obtain ⟨imap₁, r, hr, hrun, hinv, -⟩ := remove_spec hl hseq key
  have hfind := hl.find?_key hit
  rw [(hl.stored it hit).1, hkey] at hfind
  rw [hfind, Option.bind_some, hvalue] at hr
  rw [hrun, Option.map_some] at hs
  obtain rfl := Option.some.inj hs
  intro hcounted
  have hlen := hcounted.pairs
  have hpairs' : mapGetPairs { imap₁ with size := mapRemoveSize imap r } = mapGetPairs imap₁ := rfl
  rw [hpairs', hinv.getPairs, Option.map_some, List.length_map, ← hkey] at hlen
  have hsize : mapGetSize { imap₁ with size := mapRemoveSize imap r } = l.length := by
    rw [hr, ← hl.size]
    rfl
  rw [hsize] at hlen
  have := length_filter_key hl.keys hit
  have := Option.some.inj hlen
  omega

/-- A call that does not meet the condition leaves a wrong size. -/
theorem mapStep_uncounted {a : MapAct V} (h : MapGood imap) (hc : ¬RemoveCounts imap a)
    (hs : mapStep imap a = some imap') : ¬MapCounted imap' := by
  cases a with
  | put | clear | clearLink => exact absurd trivial hc
  | remove key => exact h.remove_null (not_not.mp hc) hs
  | removeAt index =>
      rw [mapStep] at hs
      rcases h.removeAt_cases index with ⟨hi, -⟩ | ⟨hi, item, hitem, hrun, hnull⟩
      · exact absurd (fun hlt => absurd hlt hi) hc
      · rw [hrun] at hs
        refine h.remove_null (hnull.mpr ?_) hs
        by_contra hsome
        refine hc fun _ item' hitem' => ?_
        obtain rfl := Option.some.inj (hitem.symm.trans hitem')
        exact hsome

end Counted

/-! ### Runs -/

lemma mapGood_of_reachableBy {imap : MapInternal V}
    (h : (mapSystem V).ReachableBy RemoveCounts imap) : MapGood imap := by
  refine h.invariant ?_ fun imap a imap' hgood hc hs => mapStep_inv hgood hc hs
  rintro _ ⟨bucketsize, isucase, freecb, overload, hbs, rfl⟩
  exact ⟨⟨[], MapInv.create bucketsize hbs isucase freecb overload⟩, by norm_num [mapCreateInternal]⟩

/-- **Map size.** In a run of the interface the size is the number of the pairs throughout, and
every index below it has an item, exactly if no removal of the run finds a `NULL` value. -/
theorem mapCounted_iff {imap₀ imap : MapInternal V} {actions : List (MapAct V)}
    (hinit : (mapSystem V).init imap₀) (hrun : (mapSystem V).run imap₀ actions = some imap) :
    (mapSystem V).Throughout MapCounted imap₀ actions ↔
      (mapSystem V).Meets RemoveCounts imap₀ actions :=
  TransitionSystem.throughout_iff_meets hinit
    (fun _ h => (mapGood_of_reachableBy h).counted)
    (fun _ _ _ h hs hc => mapStep_uncounted (mapGood_of_reachableBy h) hc hs) hrun

/-- The key `a` is put with a `NULL` value. -/
theorem mapCounted_put : ∃ imap : MapInternal ℕ,
    (mapSystem ℕ).run (mapCreateInternal 1 false false fun _ _ => false)
      [.put (CString.ofBytes [0x61]) none] = some imap ∧ MapCounted imap := by
  have hinit : (mapSystem ℕ).init (mapCreateInternal 1 false false fun _ _ => false) :=
    ⟨1, false, false, _, by decide, rfl⟩
  have hrun : ∃ imap, (mapSystem ℕ).run (mapCreateInternal 1 false false fun _ _ => false)
      [.put (CString.ofBytes [0x61]) none] = some imap := ⟨_, rfl⟩
  obtain ⟨imap, hrun⟩ := hrun
  refine ⟨imap, hrun, (mapCounted_iff hinit hrun).mpr ?_ _ imap List.prefix_rfl hrun⟩
  intro pre a s hpre _
  have hmem := hpre.subset (List.mem_append_right pre (List.mem_singleton_self a))
  rw [List.mem_singleton.mp hmem]
  trivial

/-- The key `a` is put with a `NULL` value and removed: the size stays one, no pair is left,
and `GetAt` reads an item through `NULL`. -/
theorem mapCounted_fails : ¬∀ (imap₀ imap : MapInternal ℕ) (actions : List (MapAct ℕ)),
    (mapSystem ℕ).init imap₀ → (mapSystem ℕ).run imap₀ actions = some imap →
      (mapSystem ℕ).Throughout MapCounted imap₀ actions := by
  intro hall
  have hrun : ∃ imap, (mapSystem ℕ).run (mapCreateInternal 1 false false fun _ _ => false)
      [.put (CString.ofBytes [0x61]) none, .remove (CString.ofBytes [0x61])] = some imap ∧
      mapGetSize imap = 1 ∧ mapGetAt imap 0 = none := ⟨_, rfl, rfl, rfl⟩
  obtain ⟨imap, hrun, hsize, hget⟩ := hrun
  have hinit : (mapSystem ℕ).init (mapCreateInternal 1 false false fun _ _ => false) :=
    ⟨1, false, false, _, by decide, rfl⟩
  obtain ⟨item, -, hitem⟩ := (hall _ imap _ hinit hrun _ imap List.prefix_rfl hrun).getAt 0
    (by rw [hsize]; exact Nat.one_pos)
  rw [hget] at hitem
  cases hitem

end LibCmutils
