import LibCmutils.Map.Invariant
import LibCmutils.Lib.Transition

/-!
Who gets the values of a `CMUTIL_Map` (`src/maps.c`) that was created with a free callback.

* `MapLedger`: a map with the values that were put, those handed back to the caller, and
  those given to the free callback.
* `MapCall`, `ledgerStep`, `mapLedgerSystem`: the calls and their runs.
* `MapBalanced`: after `Destroy` every value put was handed back once, or freed once, and
  not both. `KeepsPrev`: the condition on a put.
* `LedgerInv`: the invariant, with the values that got lost. In `ledgerStep_inv` a put is
  the one place where a value can get lost.

The main result is `mapBalanced_iff`.
-/

namespace LibCmutils

variable {V : Type}

/-- The calls by which values enter and leave a map. -/
inductive MapCall (V : Type) where
  /-- `CMUTIL_MapPut`, with an address for the replaced value or with `NULL`. -/
  | put (key : CString) (value : V) (withPrev : Bool)
  | putAll (smap : MapInternal V)
  | remove (key : CString)
  | clear

/-- A map and what became of the values it was given. -/
structure MapLedger (V : Type) where
  imap : MapInternal V
  given : List V
  returned : List V
  freed : List V

/-- The values of a list of items. -/
def mapItemValues (items : List (MapItem V)) : List V := (items.map MapItem.value).flatMap Option.toList

lemma mapItemValues_cons (y : MapItem V) (l : List (MapItem V)) :
    mapItemValues (y :: l) = y.value.toList ++ mapItemValues l := rfl

lemma mapItemValues_append (l₁ l₂ : List (MapItem V)) :
    mapItemValues (l₁ ++ l₂) = mapItemValues l₁ ++ mapItemValues l₂ := by
  rw [mapItemValues, List.map_append, List.flatMap_append]
  rfl

/-- A put that is not told where to store the replaced value does not replace one. -/
def KeepsPrev (s : MapLedger V) : MapCall V → Prop
  | .put key _ withPrev => withPrev = false → ∀ keys, mapGetKeys s.imap = some keys →
      mapKey s.imap.is_ucase key ∉ keys
  | _ => True

variable [DecidableEq V]

/-- A source for `PutAll`: a map without a free callback, which lists `items`, none with a
`NULL` value, and as many numbers left for items. -/
def PutAllSource (imap smap : MapInternal V) (items : List (MapItem V)) : Prop :=
  smap.freecb = false ∧ (∀ item ∈ items, item.value ≠ none) ∧
    imap.order_seq + items.length < 2 ^ 31

instance (imap smap : MapInternal V) (items : List (MapItem V)) :
    Decidable (PutAllSource imap smap items) := by
  unfold PutAllSource
  infer_instance

/-- One call. The run ends where the `int` that numbers the items would overflow. -/
def ledgerStep (s : MapLedger V) : MapCall V → Option (MapLedger V)
  | .put key value withPrev =>
      if s.imap.order_seq + 1 < 2 ^ 31 then
        (mapPut s.imap key (some value)).map fun r =>
          { s with
            imap := r.1
            given := s.given ++ [value]
            returned := s.returned ++ if withPrev then r.2.2.toList else [] }
      else none
  | .putAll smap =>
      (arrayItems smap.keyset).bind fun items =>
        if PutAllSource s.imap smap items then
          (mapPutAll s.imap smap).map fun r =>
            { s with
              imap := r.1
              given := s.given ++ mapItemValues items
              freed := s.freed ++ r.2 }
        else none
  | .remove key =>
      (mapRemove s.imap key).map fun r =>
        { s with imap := r.1, returned := s.returned ++ r.2.toList }
  | .clear =>
      (mapClear s.imap).map fun r =>
        { s with imap := r.1, freed := s.freed ++ r.2.flatMap Option.toList }

/-- The runs of the interface on a map that was created with a free callback and at least
one slot. -/
def mapLedgerSystem (V : Type) [DecidableEq V] : TransitionSystem (MapLedger V) (MapCall V) where
  init s := ∃ bucketsize isucase overload, bucketsize ≠ 0 ∧
    s = ⟨mapCreateInternal bucketsize isucase true overload, [], [], []⟩
  step := ledgerStep

/-- `Destroy` ends, and by then every value put was handed back or freed, once altogether. -/
def MapBalanced (s : MapLedger V) : Prop :=
  ∃ destroyed, mapDestroy s.imap = some destroyed ∧ ∀ v ∈ s.given,
    s.returned.count v + (s.freed ++ destroyed.flatMap Option.toList).count v = 1

/-! ### The balance -/

/-- The items of the map and the values that got lost. Every value put is somewhere. -/
structure LedgerInv (s : MapLedger V) (l : List (MapItem V)) (lost : List V) : Prop where
  inv : MapInv s.imap l
  values : ∀ it ∈ l, it.value.isSome
  freecb : s.imap.freecb = true
  seq : s.imap.order_seq < 2 ^ 31
  balance : ∀ v, s.given.count v =
    s.returned.count v + s.freed.count v + lost.count v + (mapItemValues l).count v

section Values

variable {l : List (MapItem V)} {v : V}

/-- The value of a key, and the values of the other keys. -/
lemma count_values_filter (hkeys : (l.map MapItem.key).Nodup) (key : CString) :
    (mapItemValues l).count v =
      ((l.find? fun z => z.key = key).bind MapItem.value).toList.count v
        + (mapItemValues (l.filter fun z => z.key ≠ key)).count v := by
  cases hfind : l.find? fun z => z.key = key with
  | none =>
      have hfilter : l.filter (fun z => z.key ≠ key) = l := by
        refine List.filter_eq_self.mpr fun z hz => ?_
        simpa using List.find?_eq_none.mp hfind z hz
      rw [hfilter]
      exact (Nat.zero_add _).symm
  | some y =>
      have hy := List.mem_of_find?_eq_some hfind
      obtain rfl : y.key = key := by simpa using List.find?_some hfind
      have hperm := ((perm_cons_filter_key hkeys hy).map MapItem.value).flatMap_right Option.toList
      rw [mapItemValues, hperm.count_eq, ← List.count_append]
      rfl

omit [DecidableEq V] in
/-- A key is stored exactly if it has a value. -/
lemma find?_value_eq_none (hvalues : ∀ it ∈ l, it.value.isSome) {key : CString} :
    (l.find? fun z => z.key = key).bind MapItem.value = none ↔ key ∉ l.map MapItem.key := by
  rw [Option.bind_eq_none_iff, List.mem_map]
  constructor
  · rintro hnone ⟨it, hit, rfl⟩
    obtain ⟨y, hy⟩ := Option.isSome_iff_exists.mp
      (List.find?_isSome.mpr ⟨it, hit, by simp⟩ : (l.find? fun z => z.key = it.key).isSome)
    have hsome := hvalues y (List.mem_of_find?_eq_some hy)
    rw [hnone y hy] at hsome
    cases hsome
  · intro hkey y hy
    exact absurd ⟨y, List.mem_of_find?_eq_some hy, by simpa using List.find?_some hy⟩ hkey

end Values

/-- One put of a value: the items that are stored afterwards, and the replaced value. -/
lemma put_values {imap imap' : MapInternal V} {l : List (MapItem V)} (h : MapInv imap l)
    (hvalues : ∀ it ∈ l, it.value.isSome) (hseq : imap.order_seq < 2 ^ 31) {key : CString}
    {value : V} {r : Bool} {prev : Option V}
    (hput : mapPut imap key (some value) = some (imap', r, prev)) :
    ∃ l', MapInv imap' l' ∧ (∀ it ∈ l', it.value.isSome) ∧ imap'.freecb = imap.freecb ∧
      imap'.order_seq = imap.order_seq + 1 ∧
      prev = (l.find? fun z => z.key = mapKey imap.is_ucase key).bind MapItem.value ∧
      ∀ v, (mapItemValues l').count v + prev.toList.count v =
        (mapItemValues l).count v + [value].count v := by
  obtain ⟨imap₁, hput', hinv, hmode, hseq'⟩ :=
    put_inv h hseq (rebuildFits_of_put h hput) (some value)
  obtain ⟨rfl, hrest⟩ := Prod.mk.inj (Option.some.inj (hput.symm.trans hput'))
  obtain ⟨-, rfl⟩ := Prod.mk.inj hrest
  refine ⟨_, hinv, fun it hit => ?_, hmode.freecb, hseq', rfl, fun v => ?_⟩
  · rcases List.mem_append.mp hit with hit | hit
    · exact hvalues it (List.mem_filter.mp hit).1
    · rw [List.mem_singleton.mp hit]
      rfl
  · have hvalue : mapItemValues [mapPutItem imap key (some value)] = [value] := rfl
    rw [mapItemValues_append, List.count_append, hvalue,
      count_values_filter h.keys (mapKey imap.is_ucase key)]
    omega

/-- The puts of `PutAll`: the values that were stored or put are stored or freed. -/
lemma putAllItems_values {items : List (MapItem V)} (hitems : ∀ item ∈ items, item.value ≠ none)
    {imap imap' : MapInternal V} {l : List (MapItem V)} {freed freed' : List V}
    (h : MapInv imap l) (hvalues : ∀ it ∈ l, it.value.isSome) (hfreecb : imap.freecb = true)
    (hseq : imap.order_seq + items.length < 2 ^ 31)
    (hrun : items.foldlM mapPutAllItem (imap, freed) = some (imap', freed')) :
    ∃ l', MapInv imap' l' ∧ (∀ it ∈ l', it.value.isSome) ∧ imap'.freecb = true ∧
      imap'.order_seq < 2 ^ 31 ∧
      ∀ v, (mapItemValues l').count v + freed'.count v =
        (mapItemValues l).count v + freed.count v + (mapItemValues items).count v := by
  induction items generalizing imap l freed with
  | nil =>
      obtain ⟨rfl, rfl⟩ := Prod.mk.inj (Option.some.inj hrun)
      exact ⟨l, h, hvalues, hfreecb, by simpa using hseq, fun v => rfl⟩
  | cons item items ih =>
      obtain ⟨⟨imap₁, freed₁⟩, hitem, hrest⟩ := Option.bind_eq_some_iff.mp hrun
      obtain ⟨⟨imap₂, r, prev⟩, hput, hst⟩ := Option.bind_eq_some_iff.mp hitem
      obtain ⟨rfl, rfl⟩ := Prod.mk.inj (Option.some.inj hst)
      obtain ⟨value, hvalue⟩ := Option.ne_none_iff_exists'.mp (hitems item List.mem_cons_self)
      rw [hvalue] at hput
      rw [List.length_cons, Nat.cast_succ] at hseq
      obtain ⟨l₂, hinv, hvalues₂, hfree, hseq', -, hcount⟩ :=
        put_values h hvalues (by omega) hput
      obtain ⟨l', hinv', hvalues', hfree', hlt, hcount'⟩ :=
        ih (fun it hit => hitems it (List.mem_cons_of_mem _ hit)) hinv hvalues₂
          (hfree.trans hfreecb) (by rw [hseq']; omega) hrest
      refine ⟨l', hinv', hvalues', hfree', hlt, fun v => ?_⟩
      have h1 := hcount v
      have h2 := hcount' v
      simp only [if_pos (hfree.trans hfreecb), List.count_append] at h2
      rw [mapItemValues_cons, List.count_append, hvalue, Option.toList_some]
      omega

/-! ### One step -/

/-- **One step.** Nothing gets lost except by a put that is not told where to store the value
it replaces. -/
theorem ledgerStep_inv {s s' : MapLedger V} {c : MapCall V} {l : List (MapItem V)} {lost : List V}
    (h : LedgerInv s l lost) (hs : ledgerStep s c = some s') :
    ∃ l' lost', LedgerInv s' l' lost' ∧ (lost' = [] ↔ lost = [] ∧ KeepsPrev s c) := by
  cases c with
  | put key value withPrev =>
      rw [ledgerStep] at hs
      by_cases hlt : s.imap.order_seq + 1 < 2 ^ 31
      case neg => rw [if_neg hlt] at hs; cases hs
      rw [if_pos hlt] at hs
      obtain ⟨⟨imap, r, prev⟩, hput, rfl⟩ := Option.map_eq_some_iff.mp hs
      obtain ⟨l', hinv, hvalues, hfree, hseq, hprev, hcount⟩ :=
        put_values h.inv h.values h.seq hput
      refine ⟨l', lost ++ if withPrev then [] else prev.toList,
        ⟨hinv, hvalues, hfree.trans h.freecb, hseq ▸ hlt, fun v => ?_⟩, ?_⟩
      · have h1 := h.balance v
        have h2 := hcount v
        simp only [List.count_append]
        cases withPrev <;> simp only [Bool.false_eq_true, if_false, if_true, List.count_nil] <;> omega
      · rw [List.append_eq_nil_iff, KeepsPrev]
        refine and_congr_right fun _ => ?_
        have hkeys : mapGetKeys s.imap = some (l.map MapItem.key) := by
          rw [mapGetKeys, h.inv.keyset.holds.items]
          rfl
        cases withPrev with
        | true => simp
        | false =>
            rw [if_neg Bool.false_ne_true, Option.toList_eq_nil_iff, hprev,
              find?_value_eq_none h.values, hkeys]
            exact ⟨fun hk _ _ hks => Option.some.inj hks ▸ hk, fun hk => hk rfl _ rfl⟩
  | putAll smap =>
      obtain ⟨items, hitems, hs⟩ := Option.bind_eq_some_iff.mp hs
      split_ifs at hs with hfits
      obtain ⟨⟨imap, freed⟩, hput, rfl⟩ := Option.map_eq_some_iff.mp hs
      rw [mapPutAll, hitems, Option.bind_eq_bind, Option.bind_some] at hput
      obtain ⟨-, hnonnull, hroom⟩ := hfits
      obtain ⟨l', hinv, hvalues, hfree, hseq, hcount⟩ :=
        putAllItems_values hnonnull h.inv h.values h.freecb hroom hput
      refine ⟨l', lost, ⟨hinv, hvalues, hfree, hseq, fun v => ?_⟩, (and_iff_left trivial).symm⟩
      have h1 := h.balance v
      have h2 := hcount v
      simp only [List.count_append, List.count_nil] at h2 ⊢
      omega
  | remove key =>
      obtain ⟨⟨imap, res⟩, hrm, rfl⟩ := Option.map_eq_some_iff.mp hs
      obtain ⟨imap', hrm', hinv, hmode, hseq⟩ :=
        remove_inv h.inv h.seq key fun it hit _ => h.values it hit
      obtain ⟨rfl, rfl⟩ := Prod.mk.inj (Option.some.inj (hrm.symm.trans hrm'))
      refine ⟨_, lost, ⟨hinv, fun it hit => h.values it (List.mem_filter.mp hit).1,
        hmode.freecb.trans h.freecb, hseq ▸ h.seq, fun v => ?_⟩, (and_iff_left trivial).symm⟩
      have h1 := h.balance v
      have h2 := count_values_filter (v := v) h.inv.keys (mapKey s.imap.is_ucase key)
      simp only [List.count_append]
      omega
  | clear =>
      obtain ⟨⟨imap, freed⟩, hclear, rfl⟩ := Option.map_eq_some_iff.mp hs
      obtain ⟨imap', freed', hclear', hinv, hmode, hseq, hperm⟩ := clear_inv h.inv true
      obtain ⟨rfl, rfl⟩ := Prod.mk.inj (Option.some.inj (hclear.symm.trans hclear'))
      refine ⟨_, lost, ⟨hinv, fun it hit => absurd hit List.not_mem_nil,
        hmode.freecb.trans h.freecb, hseq ▸ h.seq, fun v => ?_⟩, (and_iff_left trivial).symm⟩
      have h1 := h.balance v
      rw [h.freecb, Bool.and_self, if_pos rfl] at hperm
      have h2 := (hperm.flatMap_right Option.toList).count_eq v
      have h3 : (mapItemValues ([] : List (MapItem V))).count v = 0 := rfl
      rw [← mapItemValues] at h2
      simp only [List.count_append]
      omega

/-! ### Runs -/

lemma LedgerInv.create {s : MapLedger V} (h : (mapLedgerSystem V).init s) : LedgerInv s [] [] := by
  obtain ⟨bucketsize, isucase, overload, hbs, rfl⟩ := h
  exact ⟨MapInv.create bucketsize hbs isucase true overload, fun it hit => absurd hit List.not_mem_nil,
    rfl, by norm_num [mapCreateInternal], fun v => rfl⟩

lemma ledger_run {s₀ s : MapLedger V} {calls : List (MapCall V)} (hinit : (mapLedgerSystem V).init s₀)
    (hrun : (mapLedgerSystem V).run s₀ calls = some s) :
    ∃ l lost, LedgerInv s l lost ∧ (lost = [] ↔ (mapLedgerSystem V).Meets KeepsPrev s₀ calls) := by
  induction calls using List.reverseRecOn generalizing s with
  | nil =>
      obtain rfl : s₀ = s := Option.some.inj hrun
      refine ⟨[], [], .create hinit, iff_of_true rfl fun pre a s hpre => ?_⟩
      exact absurd (List.prefix_nil.mp hpre) (by simp)
  | append_singleton calls c ih =>
      rw [TransitionSystem.run_concat] at hrun
      obtain ⟨s₁, hs₁, hs⟩ := Option.bind_eq_some_iff.mp hrun
      obtain ⟨l, lost, hinv, hiff⟩ := ih hs₁
      obtain ⟨l', lost', hinv', hiff'⟩ := ledgerStep_inv hinv hs
      exact ⟨l', lost', hinv', by rw [hiff', hiff, TransitionSystem.meets_concat hs₁]⟩

/-- What `Destroy` leaves is what got lost before. -/
lemma LedgerInv.balanced_iff {s : MapLedger V} {l : List (MapItem V)} {lost : List V}
    (h : LedgerInv s l lost) (hnodup : s.given.Nodup) : MapBalanced s ↔ lost = [] := by
  obtain ⟨items, hitems, hperm⟩ := bucketItems_perm h.inv
  have hdestroy : mapDestroy s.imap = some (items.map MapItem.value) := by
    rw [mapDestroy, hitems, Option.bind_eq_bind, Option.bind_some, h.freecb, if_pos rfl]
  have hcount : ∀ v, s.given.count v = s.returned.count v
      + (s.freed ++ (items.map MapItem.value).flatMap Option.toList).count v + lost.count v := by
    intro v
    have h1 := h.balance v
    have h2 := ((hperm.map MapItem.value).flatMap_right Option.toList).count_eq v
    rw [← mapItemValues, ← mapItemValues] at h2
    rw [← mapItemValues, List.count_append]
    omega
  constructor
  · rintro ⟨destroyed, hd, hall⟩
    obtain rfl := Option.some.inj (hdestroy.symm.trans hd)
    refine List.eq_nil_iff_forall_not_mem.mpr fun v hv => ?_
    have hpos := List.count_pos_iff.mpr hv
    have h1 := hcount v
    have hmem : v ∈ s.given := List.count_pos_iff.mp (by omega)
    have h2 := hall v hmem
    have h3 := List.count_eq_one_of_mem hnodup hmem
    omega
  · rintro rfl
    refine ⟨_, hdestroy, fun v hv => ?_⟩
    have h1 := hcount v
    rw [List.count_eq_one_of_mem hnodup hv, List.count_nil] at h1
    exact h1.symm

/-- **Map values.** When the values put are distinct, each of them is handed back once or freed
once by the time `Destroy` returns, exactly if no `Put` of the run replaces a value without an
address for it. -/
theorem mapBalanced_iff {s₀ s : MapLedger V} {calls : List (MapCall V)}
    (hinit : (mapLedgerSystem V).init s₀) (hrun : (mapLedgerSystem V).run s₀ calls = some s)
    (hnodup : s.given.Nodup) :
    MapBalanced s ↔ (mapLedgerSystem V).Meets KeepsPrev s₀ calls := by
  obtain ⟨l, lost, hinv, hiff⟩ := ledger_run hinit hrun
  rw [hinv.balanced_iff hnodup, hiff]

/-- The key `a` is put, put again with an address for the replaced value. -/
theorem mapBalanced_put : ∃ s : MapLedger ℕ,
    (mapLedgerSystem ℕ).run ⟨mapCreateInternal 1 false true fun _ _ => false, [], [], []⟩
      [.put (CString.ofBytes [0x61]) 1 false, .put (CString.ofBytes [0x61]) 2 true] = some s ∧
    MapBalanced s := by
  have hinit : (mapLedgerSystem ℕ).init
      ⟨mapCreateInternal 1 false true fun _ _ => false, [], [], []⟩ :=
    ⟨1, false, _, by decide, rfl⟩
  have hrun : ∃ s, (mapLedgerSystem ℕ).run
      ⟨mapCreateInternal 1 false true fun _ _ => false, [], [], []⟩
      [.put (CString.ofBytes [0x61]) 1 false, .put (CString.ofBytes [0x61]) 2 true] = some s ∧
      s.given = [1, 2] := ⟨_, rfl, rfl⟩
  obtain ⟨s, hrun, hgiven⟩ := hrun
  refine ⟨s, hrun, (mapBalanced_iff hinit hrun (hgiven ▸ by decide)).mpr ?_⟩
  obtain ⟨s₁, hs₁, hs⟩ := Option.bind_eq_some_iff.mp hrun
  have hrun₁ : (mapLedgerSystem ℕ).run ⟨mapCreateInternal 1 false true fun _ _ => false, [], [], []⟩
      [.put (CString.ofBytes [0x61]) 1 false] = some s₁ := by
    rw [TransitionSystem.run, hs₁]
    rfl
  refine (TransitionSystem.meets_concat hrun₁).mpr ⟨?_, fun h => absurd h (by decide)⟩
  have hnil : (mapLedgerSystem ℕ).run ⟨mapCreateInternal 1 false true fun _ _ => false, [], [], []⟩
      [] = some ⟨mapCreateInternal 1 false true fun _ _ => false, [], [], []⟩ := rfl
  refine (TransitionSystem.meets_concat hnil).mpr ⟨?_, fun _ keys hkeys => ?_⟩
  · exact fun pre a s hpre => absurd (List.prefix_nil.mp hpre) (by simp)
  · obtain rfl : [] = keys := Option.some.inj hkeys
    exact List.not_mem_nil

/-- The key `a` is put twice without an address for the replaced value: the first value is
neither handed back nor freed. -/
theorem mapBalanced_fails : ¬∀ (s₀ s : MapLedger ℕ) (calls : List (MapCall ℕ)),
    (mapLedgerSystem ℕ).init s₀ → (mapLedgerSystem ℕ).run s₀ calls = some s → s.given.Nodup →
      MapBalanced s := by
  intro hall
  have hinit : (mapLedgerSystem ℕ).init
      ⟨mapCreateInternal 1 false true fun _ _ => false, [], [], []⟩ :=
    ⟨1, false, _, by decide, rfl⟩
  have hrun : ∃ s, (mapLedgerSystem ℕ).run
      ⟨mapCreateInternal 1 false true fun _ _ => false, [], [], []⟩
      [.put (CString.ofBytes [0x61]) 1 false, .put (CString.ofBytes [0x61]) 2 false] = some s ∧
      s.given = [1, 2] ∧ s.returned = [] ∧ s.freed = [] ∧ mapDestroy s.imap = some [some 2] :=
    ⟨_, rfl, rfl, rfl, rfl, rfl⟩
  obtain ⟨s, hrun, hgiven, hreturned, hfreed, hdestroy⟩ := hrun
  obtain ⟨destroyed, hd, hcount⟩ := hall _ s _ hinit hrun (hgiven ▸ by decide)
  obtain rfl := Option.some.inj (hdestroy.symm.trans hd)
  have h1 := hcount 1 (by rw [hgiven]; exact List.mem_cons_self)
  rw [hreturned, hfreed] at h1
  exact absurd h1 (by decide)

end LibCmutils
