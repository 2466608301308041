import LibCmutils.Map.Invariant
import LibCmutils.Lib.OrderedMap

/-!
`CMUTIL_Map` (`src/maps.c`) refines an insertion-ordered finite map.

* `Refines`: a map stands for an `OrderedMap` from stored keys to non-`NULL`
  values; `Refines.put`, `Refines.putAll`, `Refines.remove`, `Refines.removeAt` and
  `Refines.clear` are the simulation of one operation each.
* `MapSpec`: what every call of the interface answers, read off the ordered map.
* `MapReachable`: runs of the interface next to runs of the ordered map, and
  `map_refines`, the main result.
-/

namespace LibCmutils

variable {V : Type}

/-- The map stands for the ordered map: its items, in order, are the entries. -/
def Refines (imap : MapInternal V) (m : OrderedMap CString V) : Prop :=
  ∃ l, MapInv imap l ∧ l.map (fun it => (it.key, it.value)) = m.entries.map fun e => (e.1, some e.2)

/-! ### Items and entries -/

section Entries

variable {l : List (MapItem V)} {m : OrderedMap CString V}

lemma map_key_of_entries
    (h : l.map (fun it => (it.key, it.value)) = m.entries.map fun e => (e.1, some e.2)) :
    l.map MapItem.key = m.keys := by
  have := congrArg (List.map Prod.fst) h
  simpa [List.map_map, Function.comp_def, OrderedMap.keys] using this

lemma map_value_of_entries
    (h : l.map (fun it => (it.key, it.value)) = m.entries.map fun e => (e.1, some e.2)) :
    l.map MapItem.value = m.entries.map fun e => some e.2 := by
  have := congrArg (List.map Prod.snd) h
  simpa [List.map_map, Function.comp_def] using this

lemma length_of_entries
    (h : l.map (fun it => (it.key, it.value)) = m.entries.map fun e => (e.1, some e.2)) :
    l.length = m.size := by
  simpa [OrderedMap.size] using congrArg List.length h

lemma value_isSome_of_entries
    (h : l.map (fun it => (it.key, it.value)) = m.entries.map fun e => (e.1, some e.2))
    {it : MapItem V} (hit : it ∈ l) : it.value.isSome := by
  have hmem := List.mem_map_of_mem (f := fun it : MapItem V => (it.key, it.value)) hit
  rw [h] at hmem
  obtain ⟨e, -, he⟩ := List.mem_map.mp hmem
  rw [← (Prod.mk.inj he).2]
  rfl

/-- Looking a key up among the items. -/
lemma find?_of_entries
    (h : l.map (fun it => (it.key, it.value)) = m.entries.map fun e => (e.1, some e.2))
    (k : CString) : (l.find? fun z => z.key = k).bind MapItem.value = m.get k := by
  have := congrArg (fun es => (es.find? fun e : CString × Option V => e.1 = k).bind Prod.snd) h
  simp only [List.find?_map, Function.comp_def, Option.bind_map] at this
  rw [OrderedMap.get, Option.map_eq_bind]
  exact this

/-- Leaving a key out of the items. -/
lemma filter_of_entries
    (h : l.map (fun it => (it.key, it.value)) = m.entries.map fun e => (e.1, some e.2))
    (k : CString) : (l.filter fun z => z.key ≠ k).map (fun it => (it.key, it.value))
      = (m.erase k).entries.map fun e => (e.1, some e.2) := by
  have := congrArg (fun es => es.filter fun e : CString × Option V => e.1 ≠ k) h
  simpa only [List.filter_map, Function.comp_def, OrderedMap.erase] using this

lemma getElem?_of_entries
    (h : l.map (fun it => (it.key, it.value)) = m.entries.map fun e => (e.1, some e.2)) (i : ℕ) :
    l[i]?.map MapItem.key = m.entries[i]?.map Prod.fst := by
  have := congrArg (fun es => (es[i]?).map Prod.fst) h
  simpa [Function.comp_def] using this

end Entries

/-! ### One operation -/

/-- Every put of a list of items fits the map that the puts before it leave. -/
def PutsFit [DecidableEq V] : MapInternal V → List (MapItem V) → Prop
  | _, [] => True
  | imap, item :: items => RebuildFits imap item.key ∧
      ∀ imap' r prev, mapPut imap item.key item.value = some (imap', r, prev) → PutsFit imap' items

/-- The puts of `CMUTIL_MapPutAll` fit. -/
def PutAllFits [DecidableEq V] (imap smap : MapInternal V) : Prop :=
  ∀ items, arrayItems smap.keyset = some items → PutsFit imap items

namespace Refines

variable {imap smap : MapInternal V} {m sm : OrderedMap CString V}

lemma create (bucketsize : UInt32) (hbs : bucketsize ≠ 0) (isucase freecb : Bool)
    (overload : UInt32 → UInt32 → Bool) :
    Refines (V := V) (mapCreateInternal bucketsize isucase freecb overload) .empty :=
  ⟨[], MapInv.create bucketsize hbs isucase freecb overload, rfl⟩

variable [DecidableEq V]

/-- Put: the value handed to `*prev` is the value replaced. -/
lemma put (h : Refines imap m) (hseq : imap.order_seq < 2 ^ 31) {key : CString}
    (hfit : RebuildFits imap key) (v : V) :
    ∃ imap', mapPut imap key (some v)
        = some (imap', true, m.get (mapKey imap.is_ucase key)) ∧
      Refines imap' (m.put (mapKey imap.is_ucase key) v) ∧ SameMode imap imap' ∧
      imap'.order_seq = imap.order_seq + 1 := by
  obtain ⟨l, hinv, hent⟩ := h
  obtain ⟨imap', hput, hinv', hmode, hseq'⟩ := put_inv hinv hseq hfit (some v)
  rw [find?_of_entries hent] at hput
  refine ⟨imap', hput, ⟨_, hinv', ?_⟩, hmode, hseq'⟩
  rw [List.map_append, filter_of_entries hent, OrderedMap.entries_put, List.map_append]
  rfl

/-- The loop of `CMUTIL_MapPutAll`, over the items still to be put. -/
lemma putAllItems : ∀ {items : List (MapItem V)} {es : List (CString × V)} {imap : MapInternal V}
    {m : OrderedMap CString V} (freed : List V), Refines imap m →
    items.map (fun it => (it.key, it.value)) = es.map (fun e => (e.1, some e.2)) →
    imap.order_seq + items.length < 2 ^ 31 → PutsFit imap items →
    ∃ imap' freed', items.foldlM mapPutAllItem (imap, freed) = some (imap', freed') ∧
      Refines imap' (m.putAll (es.map fun e => (mapKey imap.is_ucase e.1, e.2))) ∧
      SameMode imap imap' ∧ imap'.order_seq = imap.order_seq + items.length
  | [], [], imap, _, freed, h, _, _, _ =>
      ⟨imap, freed, rfl, h, ⟨rfl, rfl, rfl⟩, by simp⟩
  | item :: items, e :: es, imap, m, freed, h, hent, hseq, hfit => by
      rw [List.map_cons, List.map_cons] at hent
      obtain ⟨hhead, hent⟩ := List.cons.inj hent
      obtain ⟨hkey, hvalue⟩ := Prod.mk.inj hhead
      rw [List.length_cons, Nat.cast_succ] at hseq
      obtain ⟨imap₁, hput, h₁, hmode₁, hseq₁⟩ := h.put (by omega) hfit.1 e.2
      rw [← hvalue] at hput
      obtain ⟨imap', freed', hfold, h', hmode', hseq'⟩ := putAllItems
        (if imap.freecb then freed ++ (m.get (mapKey imap.is_ucase item.key)).toList else freed)
        h₁ hent (by omega) (hfit.2 _ _ _ hput)
      refine ⟨imap', freed', ?_, ?_, ?_, ?_⟩
      · rw [List.foldlM_cons, mapPutAllItem, hput]
        simpa [hmode₁.freecb] using hfold
      · rw [hmode₁.is_ucase, hkey] at h'
        exact h'
      · exact ⟨hmode'.is_ucase.trans hmode₁.is_ucase, hmode'.freecb.trans hmode₁.freecb,
          hmode'.overload.trans hmode₁.overload⟩
      · rw [hseq', hseq₁, List.length_cons, Nat.cast_succ]
        ring
  | [], _ :: _, _, _, _, _, hent, _, _ => by simp at hent
  | _ :: _, [], _, _, _, _, hent, _, _ => by simp at hent

/-- PutAll: the entries of the source are put one after the other, in their
order. -/
lemma putAll (h : Refines imap m) (hs : Refines smap sm)
    (hseq : imap.order_seq + sm.size < 2 ^ 31) (hfit : PutAllFits imap smap) :
    ∃ imap' freed, mapPutAll imap smap = some (imap', freed) ∧
      Refines imap' (m.putAll (sm.entries.map fun e => (mapKey imap.is_ucase e.1, e.2))) ∧
      imap'.order_seq = imap.order_seq + sm.size := by
  obtain ⟨l, hinv, hent⟩ := hs
  have hitems := hinv.keyset.holds.items
  obtain ⟨imap', freed, hfold, h', -, hseq'⟩ := putAllItems [] h hent
    (by rw [length_of_entries hent]; exact hseq) (hfit l hitems)
  refine ⟨imap', freed, ?_, h', by rw [hseq', length_of_entries hent]⟩
  rw [mapPutAll, hitems]
  exact hfold

/-- Remove. -/
lemma remove (h : Refines imap m) (hseq : imap.order_seq < 2 ^ 31) (key : CString) :
    ∃ imap', mapRemove imap key = some (imap', m.get (mapKey imap.is_ucase key)) ∧
      Refines imap' (m.erase (mapKey imap.is_ucase key)) ∧
      imap'.order_seq = imap.order_seq := by
  obtain ⟨l, hinv, hent⟩ := h
  obtain ⟨imap', hrm, hinv', -, hseq'⟩ := remove_inv hinv hseq key
    fun it hit _ => value_isSome_of_entries hent hit
  rw [find?_of_entries hent] at hrm
  exact ⟨imap', hrm, ⟨_, hinv', filter_of_entries hent _⟩, hseq'⟩

omit [DecidableEq V] in
/-- The key at a position, as the listing of the map has it. -/
lemma getAt_keyset (h : Refines imap m) (i : ℕ) :
    (arrayGetAt imap.keyset i).map MapItem.key = m.entries[i]?.map Prod.fst ∧
      ∀ it, arrayGetAt imap.keyset i = some it → mapKey imap.is_ucase it.key = it.key := by
  obtain ⟨l, hinv, hent⟩ := h
  rw [hinv.keyset.holds.getAt_eq, getElem?_of_entries hent]
  exact ⟨rfl, fun it hit => (hinv.stored it (List.mem_of_getElem? hit)).1⟩

omit [DecidableEq V] in
lemma size_eq (h : Refines imap m) : imap.size = m.size := by
  obtain ⟨l, hinv, hent⟩ := h
  rw [hinv.size, length_of_entries hent]

omit [DecidableEq V] in
/-- The item at a position that the size test lets through. -/
lemma exists_getAt (h : Refines imap m) {i : ℕ} (hi : i < m.size) :
    ∃ it e, arrayGetAt imap.keyset i = some it ∧ m.entries[i]? = some e ∧
      mapKey imap.is_ucase it.key = e.1 := by
  obtain ⟨hkey, hstored⟩ := h.getAt_keyset i
  obtain ⟨e, he⟩ : ∃ e, m.entries[i]? = some e := ⟨_, List.getElem?_eq_getElem hi⟩
  rw [he, Option.map_some, Option.map_eq_some_iff] at hkey
  obtain ⟨it, hit, hk⟩ := hkey
  exact ⟨it, e, hit, he, by rw [hstored it hit, hk]⟩

/-- RemoveAt. -/
lemma removeAt (h : Refines imap m) (hseq : imap.order_seq < 2 ^ 31) (i : ℕ) :
    ∃ imap', mapRemoveAt imap i = some (imap', m.entries[i]?.map Prod.snd) ∧
      Refines imap' (m.eraseAt i) ∧ imap'.order_seq = imap.order_seq := by
  rw [mapRemoveAt, h.size_eq, OrderedMap.eraseAt]
  by_cases hi : i < m.size
  · obtain ⟨it, e, hit, he, hk⟩ := h.exists_getAt hi
    obtain ⟨imap', hrm, h', hseq'⟩ := h.remove hseq it.key
    rw [hk] at hrm h'
    have hget : m.get e.1 = some e.2 := OrderedMap.get_eq_some_iff.mpr (List.mem_of_getElem? he)
    refine ⟨imap', ?_, ?_, hseq'⟩
    · rw [if_pos hi, hit, he, Option.bind_eq_bind, Option.bind_some, hrm, hget]
      rfl
    · rw [he]
      exact h'
  · have he : m.entries[i]? = none := List.getElem?_eq_none (not_lt.mp hi)
    rw [if_neg hi, he]
    exact ⟨imap, rfl, h, rfl⟩

omit [DecidableEq V] in
/-- Clear and ClearLink: every value goes to the free callback, or none. -/
lemma clear (h : Refines imap m) (freedata : Bool) :
    ∃ imap' freed, mapClearBase imap freedata = some (imap', freed) ∧ Refines imap' .empty ∧
      imap'.order_seq = imap.order_seq ∧
      freed.Perm (if imap.freecb && freedata then m.entries.map (fun e => some e.2) else []) := by
  obtain ⟨l, hinv, hent⟩ := h
  obtain ⟨imap', freed, hclear, hinv', -, hseq', hperm⟩ := clear_inv hinv freedata
  rw [map_value_of_entries hent] at hperm
  exact ⟨imap', freed, hclear, ⟨[], hinv', rfl⟩, hseq', hperm⟩

end Refines

/-! ### The queries -/

variable [DecidableEq V]

namespace Refines

variable {imap : MapInternal V} {m : OrderedMap CString V}

lemma get (h : Refines imap m) (hseq : imap.order_seq < 2 ^ 31) (key : CString) :
    mapGet imap key = some (m.get (mapKey imap.is_ucase key)) := by
  obtain ⟨l, hinv, hent⟩ := h
  rw [get_inv hinv hseq, find?_of_entries hent]

lemma getAt (h : Refines imap m) (hseq : imap.order_seq < 2 ^ 31) (i : ℕ) :
    mapGetAt imap i = some (m.entries[i]?.map Prod.snd) := by
  rw [mapGetAt, h.size_eq]
  by_cases hi : i < m.size
  · obtain ⟨it, e, hit, he, hk⟩ := h.exists_getAt hi
    have hget : m.get e.1 = some e.2 := OrderedMap.get_eq_some_iff.mpr (List.mem_of_getElem? he)
    rw [if_pos hi, hit, he, Option.bind_eq_bind, Option.bind_some, h.get hseq, hk, hget]
    rfl
  · rw [if_neg hi, List.getElem?_eq_none (not_lt.mp hi)]
    rfl

omit [DecidableEq V] in
lemma pairs (h : Refines imap m) :
    mapGetPairs imap = some (m.entries.map fun e => (e.1, some e.2)) := by
  obtain ⟨l, hinv, hent⟩ := h
  simp [mapGetPairs, hinv.keyset.holds.items, hent]

omit [DecidableEq V] in
lemma keys (h : Refines imap m) : mapGetKeys imap = some m.keys := by
  obtain ⟨l, hinv, hent⟩ := h
  simp [mapGetKeys, hinv.keyset.holds.items, map_key_of_entries hent]

omit [DecidableEq V] in
/-- The iterator from position `i` lists what is left. -/
lemma iterate_drop (h : Refines imap m) : ∀ (fuel i : ℕ), m.size ≤ fuel + i →
    mapIterate imap fuel i = (m.entries.map fun e => some e.2).drop i := by
  obtain ⟨l, hinv, hent⟩ := h
  have hsize : arrayGetSize imap.keyset = m.size := by
    rw [arrayGetSize, hinv.keyset.holds.size_eq, length_of_entries hent]
  have hvalue := map_value_of_entries hent
  intro fuel
  induction fuel with
  | zero =>
      intro i hle
      rw [mapIterate, List.drop_of_length_le]
      simpa [OrderedMap.size] using hle
  | succ fuel ih =>
      intro i hle
      rw [mapIterate, mapIterHasNext, hsize]
      by_cases hi : i < m.size
      · have hil : i < l.length := by rwa [length_of_entries hent]
        have hget : arrayGetAt imap.keyset i = some l[i] := by
          rw [hinv.keyset.holds.getAt_eq, List.getElem?_eq_getElem hil]
        simp only [hi, decide_true, if_true, mapIterNext, hget]
        rw [ih (i + 1) (by omega), ← hvalue, ← List.cons_getElem_drop_succ (n := i)
          (h := by simpa using hil), List.getElem_map]
      · simp only [hi, decide_false, Bool.false_eq_true, if_false]
        rw [List.drop_of_length_le]
        simpa [OrderedMap.size] using not_lt.mp hi

omit [DecidableEq V] in
/-- The loop over the iterator lists every value once, in order. -/
lemma iterate (h : Refines imap m) {fuel : ℕ} (hfuel : m.size ≤ fuel) :
    mapIterate imap fuel 0 = m.entries.map fun e => some e.2 := by
  rw [h.iterate_drop fuel 0 (by omega), List.drop_zero]

end Refines

/-! ### Runs -/

/-- What a map answers and does, as the ordered map has it. -/
structure MapSpec (imap : MapInternal V) (m : OrderedMap CString V) : Prop where
  get : ∀ key, mapGet imap key = some (m.get (mapKey imap.is_ucase key))
  size : mapGetSize imap = m.size
  keys : mapGetKeys imap = some m.keys
  pairs : mapGetPairs imap = some (m.entries.map fun e => (e.1, some e.2))
  getAt : ∀ i, mapGetAt imap i = some (m.entries[i]?.map Prod.snd)
  iterate : ∀ fuel, m.size ≤ fuel → mapIterate imap fuel 0 = m.entries.map fun e => some e.2
  put : ∀ key v, RebuildFits imap key →
    ∃ imap', mapPut imap key (some v) = some (imap', true, m.get (mapKey imap.is_ucase key))
  putAll : ∀ smap sm, Refines smap sm → PutAllFits imap smap → imap.order_seq + sm.size < 2 ^ 31 →
    ∃ imap' freed, mapPutAll imap smap = some (imap', freed)
  remove : ∀ key, ∃ imap', mapRemove imap key = some (imap', m.get (mapKey imap.is_ucase key))
  removeAt : ∀ i, ∃ imap', mapRemoveAt imap i = some (imap', m.entries[i]?.map Prod.snd)
  clear : ∃ imap' freed, mapClear imap = some (imap', freed) ∧
    freed.Perm (if imap.freecb then m.entries.map (fun e => some e.2) else [])
  clearLink : ∃ imap', mapClearLink imap = some (imap', [])

/-- A map that a run of the interface reaches, next to the ordered map that the
same run reaches. Fewer than `2^31` puts were made, and each of them fitted. -/
inductive MapReachable : MapInternal V → OrderedMap CString V → Prop
  | create (bucketsize : UInt32) (hbs : bucketsize ≠ 0) (isucase freecb : Bool)
      (overload : UInt32 → UInt32 → Bool) :
      MapReachable (mapCreateInternal bucketsize isucase freecb overload) .empty
  | put {imap imap' m key v r prev} : MapReachable imap m → RebuildFits imap key →
      imap.order_seq + 1 < 2 ^ 31 → mapPut imap key (some v) = some (imap', r, prev) →
      MapReachable imap' (m.put (mapKey imap.is_ucase key) v)
  | putAll {imap imap' smap m sm freed} : MapReachable imap m → MapReachable smap sm →
      PutAllFits imap smap → imap.order_seq + mapGetSize smap < 2 ^ 31 →
      mapPutAll imap smap = some (imap', freed) →
      MapReachable imap' (m.putAll (sm.entries.map fun e => (mapKey imap.is_ucase e.1, e.2)))
  | remove {imap imap' m key r} : MapReachable imap m → mapRemove imap key = some (imap', r) →
      MapReachable imap' (m.erase (mapKey imap.is_ucase key))
  | removeAt {imap imap' m i r} : MapReachable imap m → mapRemoveAt imap i = some (imap', r) →
      MapReachable imap' (m.eraseAt i)
  | clear {imap imap' m freed} : MapReachable imap m → mapClear imap = some (imap', freed) →
      MapReachable imap' .empty
  | clearLink {imap imap' m freed} : MapReachable imap m →
      mapClearLink imap = some (imap', freed) → MapReachable imap' .empty

/-- Every reachable map refines the ordered map of its run. -/
lemma MapReachable.refines {imap : MapInternal V} {m : OrderedMap CString V}
    (h : MapReachable imap m) : imap.order_seq < 2 ^ 31 ∧ Refines imap m := by
  induction h with
  | create bucketsize hbs isucase freecb overload =>
      exact ⟨by norm_num [mapCreateInternal], .create bucketsize hbs isucase freecb overload⟩
  | @put imap imap' m key v r prev _ hfit hseq hrun ih =>
      obtain ⟨imap₁, hput, h', -, hseq'⟩ := ih.2.put ih.1 hfit v
      obtain ⟨rfl, -⟩ := Prod.mk.inj (Option.some.inj (hrun.symm.trans hput))
      exact ⟨by omega, h'⟩
  | @putAll imap imap' smap m sm freed _ _ hfit hseq hrun ih ihs =>
      rw [mapGetSize, ihs.2.size_eq] at hseq
      obtain ⟨imap₁, freed₁, hput, h', hseq'⟩ := ih.2.putAll ihs.2 hseq hfit
      obtain ⟨rfl, -⟩ := Prod.mk.inj (Option.some.inj (hrun.symm.trans hput))
      exact ⟨by omega, h'⟩
  | @remove imap imap' m key r _ hrun ih =>
      obtain ⟨imap₁, hrm, h', hseq'⟩ := ih.2.remove ih.1 key
      obtain ⟨rfl, -⟩ := Prod.mk.inj (Option.some.inj (hrun.symm.trans hrm))
      exact ⟨by rw [hseq']; exact ih.1, h'⟩
  | @removeAt imap imap' m i r _ hrun ih =>
      obtain ⟨imap₁, hrm, h', hseq'⟩ := ih.2.removeAt ih.1 i
      obtain ⟨rfl, -⟩ := Prod.mk.inj (Option.some.inj (hrun.symm.trans hrm))
      exact ⟨by rw [hseq']; exact ih.1, h'⟩
  | @clear imap imap' m freed _ hrun ih =>
      obtain ⟨imap₁, freed₁, hclear, h', hseq', -⟩ := ih.2.clear true
      obtain ⟨rfl, -⟩ := Prod.mk.inj (Option.some.inj (hrun.symm.trans hclear))
      exact ⟨by rw [hseq']; exact ih.1, h'⟩
  | @clearLink imap imap' m freed _ hrun ih =>
      obtain ⟨imap₁, freed₁, hclear, h', hseq', -⟩ := ih.2.clear false
      obtain ⟨rfl, -⟩ := Prod.mk.inj (Option.some.inj (hrun.symm.trans hclear))
      exact ⟨by rw [hseq']; exact ih.1, h'⟩

/-- **Maps.** In a run of fewer than `2^31` puts, none of which doubles a table of
`2^31` slots, every call ends and answers as the insertion-ordered finite map of
the run. -/
theorem map_refines {imap : MapInternal V} {m : OrderedMap CString V} (h : MapReachable imap m) :
    MapSpec imap m := by
  obtain ⟨hseq, h⟩ := h.refines
  exact {
    get := h.get hseq
    size := h.size_eq
    keys := h.keys
    pairs := h.pairs
    getAt := h.getAt hseq
    iterate := fun _ hfuel => h.iterate hfuel
    put := fun key v hfit => by
      obtain ⟨imap', hput, -⟩ := h.put hseq hfit v
      exact ⟨imap', hput⟩
    putAll := fun smap sm hs hfit hseq' => by
      obtain ⟨imap', freed, hput, -⟩ := h.putAll hs hseq' hfit
      exact ⟨imap', freed, hput⟩
    remove := fun key => by
      obtain ⟨imap', hrm, -⟩ := h.remove hseq key
      exact ⟨imap', hrm⟩
    removeAt := fun i => by
      obtain ⟨imap', hrm, -⟩ := h.removeAt hseq i
      exact ⟨imap', hrm⟩
    clear := by
      obtain ⟨imap', freed, hclear, -, -, hperm⟩ := h.clear true
      exact ⟨imap', freed, hclear, by simpa using hperm⟩
    clearLink := by
      obtain ⟨imap', freed, hclear, -, -, hperm⟩ := h.clear false
      obtain rfl : freed = [] := by simpa using hperm
      exact ⟨imap', hclear⟩ }

/-- A table of one slot that rebuilds before every new slot, after the put of one
key. -/
theorem map_refines_put : ∃ imap' : MapInternal ℕ,
    mapPut (mapCreateInternal 1 true false fun _ _ => true) (CString.ofBytes [0x61]) (some 7)
      = some (imap', true, none) ∧
    MapSpec imap' (OrderedMap.empty.put (CString.ofBytes [0x41]) 7) := by
  have h : MapReachable (V := ℕ) (mapCreateInternal 1 true false fun _ _ => true) .empty :=
    .create 1 (by decide) true false _
  have hfit : RebuildFits (V := ℕ) (mapCreateInternal 1 true false fun _ _ => true)
      (CString.ofBytes [0x61]) := fun hbs => absurd hbs (by decide)
  obtain ⟨imap', hput⟩ := (map_refines h).put (CString.ofBytes [0x61]) 7 hfit
  exact ⟨imap', hput, map_refines (h.put hfit (by decide) hput)⟩

/-- A load factor of zero doubles a table of `2^31` slots at the first put, and the
next index is a remainder by zero. -/
theorem mapPut_stuck :
    mapPut (V := ℕ) (mapCreateInternal 0x80000000 false false fun n _ => 0 < n)
      (CString.ofBytes [0x61]) (some 7) = none := by
  rfl

end LibCmutils
