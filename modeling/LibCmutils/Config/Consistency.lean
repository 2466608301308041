import LibCmutils.Config.RoundTrip

/-!
The three containers of a configuration (`src/config.c`) agree.

* `configAssign`: the key and the value that a line assigns. `configLines`: the lines of a
  file as the loop puts them together. `configAssigns`: the assignments of a file.
* `lastValue`: the value of the last assignment to a key.
* `ConfigConsistent`: the value map, the reverse map and the sequence.
* `ConfInv`: the invariant. Lines have different addresses, and the reverse map is the
  relation between keys and addresses that the sequence is.

The main result is `config_consistent`.
-/

namespace LibCmutils

/-- The key and the value that a complete line assigns. -/
def configAssign (str : List UInt8) : Option (CString × CString) :=
  match strSkipSpaces str spaces with
  | [] => none
  | 0x23 :: _ => none
  | p =>
      let name := nextTermBefore p configSeparators 0x5C 1024
      let value := nextTermBefore (strSkipSpaces name.2 configSeparators) [0x23, 0x0A] 0x5C 2048
      some (CString.ofBytes name.1, CString.ofBytes (strTrim value.1))

/-- The complete lines of a file, behind what was read of the first one. -/
def configLines : ℕ → List UInt8 → List UInt8 → List (List UInt8)
  | 0, _, _ => []
  | fuel + 1, str, f =>
      match fgets 4096 f with
      | none => []
      | some (line, f) =>
          match appendTrimmedLine str line [0x20, 0x0D, 0x09, 0x0A] with
          | (str, true) => configLines fuel str f
          | (str, false) => str :: configLines fuel [] f

/-- The assignments of a file, in order. -/
def configAssigns (f : List UInt8) : List (CString × CString) :=
  (configLines (f.length + 1) [] f).filterMap configAssign

/-- The value of the last assignment to a key. -/
def lastValue (es : List (CString × CString)) (key : CString) : Option CString :=
  (es.reverse.find? fun e => e.1 = key).map Prod.snd

/-- The pair items of the sequence. -/
def configPairItems (conf : Config) : List ConfItem :=
  conf.sequence.filter fun item => item.type = .pair

/-- The containers agree: they have the same keys, the sequence has each key once, and the
reverse map leads to the item of a key in the sequence, which no other item there shares its
address with. -/
structure ConfigConsistent (conf : Config) : Prop where
  revconf_keys : ∀ key, key ∈ conf.revconf.keys ↔ key ∈ conf.confs.keys
  sequence_keys : ∀ key, key ∈ (configPairItems conf).map ConfItem.key ↔
    ∃ k, key = some k ∧ k ∈ conf.confs.keys
  once : ((configPairItems conf).map ConfItem.key).Nodup
  live : ∀ key ptr, conf.revconf.get key = some ptr → ∃ item ∈ configPairItems conf,
    item.ptr = ptr ∧ item.key = some key ∧ ∀ other ∈ conf.sequence, other.ptr = ptr → other = item

/-! ### Assignments -/

lemma lastValue_concat (es : List (CString × CString)) (e : CString × CString) (key : CString) :
    lastValue (es ++ [e]) key = if e.1 = key then some e.2 else lastValue es key := by
  rw [lastValue, List.reverse_append, List.reverse_singleton, List.singleton_append,
    List.find?_cons]
  by_cases h : e.1 = key
  · simp [h]
  · simp [h, lastValue]

/-- What a complete line does: it is a comment, or it replaces the item of its key. -/
lemma configLoadItem_cases (res : Config) (str : List UInt8) :
    (configAssign str = none ∧ ∃ item : ConfItem, item.type = .comment ∧ item.ptr = res.next ∧
      configLoadItem res str =
        { res with sequence := res.sequence ++ [item], next := res.next + 1 }) ∨
    ∃ key value, configAssign str = some (key, value) ∧
      ∃ item : ConfItem, item.type = .pair ∧ item.ptr = res.next ∧ item.key = some key ∧
        configLoadItem res str =
          { confs := res.confs.put key value
            sequence := (res.sequence.filter fun it => some it.ptr ≠ res.revconf.get key) ++ [item]
            revconf := res.revconf.put key res.next
            maxkeylen := max res.maxkeylen key.1.length
            next := res.next + 1 } := by
  cases hp : strSkipSpaces str spaces with
  | nil =>
      refine .inl ⟨by rw [configAssign, hp], ?_⟩
      rw [configLoadItem, hp]
      exact ⟨_, rfl, rfl, rfl⟩
  | cons c p =>
      by_cases hc : c = 0x23
      · subst hc
        refine .inl ⟨by rw [configAssign, hp]; rfl, ?_⟩
        rw [configLoadItem, hp]
        exact ⟨_, rfl, rfl, rfl⟩
      · have hassign : ∃ key value, configAssign str = some (key, value) ∧
            key = CString.ofBytes (nextTermBefore (c :: p) configSeparators 0x5C 1024).1 ∧
            value = CString.ofBytes (strTrim (nextTermBefore (strSkipSpaces
              (nextTermBefore (c :: p) configSeparators 0x5C 1024).2 configSeparators)
                [0x23, 0x0A] 0x5C 2048).1) := by
          rw [configAssign, hp]
          split
          next heq => cases heq
          next heq => exact absurd (List.cons.inj heq).1 hc
          next => exact ⟨_, _, rfl, rfl, rfl⟩
        obtain ⟨key, value, hassign, hkey, hvalue⟩ := hassign
        refine .inr ⟨key, value, hassign, ?_⟩
        rw [configLoadItem, hp, hkey, hvalue]
        dsimp only
        split
        next heq => cases heq
        next heq => exact absurd (List.cons.inj heq).1 hc
        next => exact ⟨_, rfl, rfl, rfl, rfl⟩

/-- The loop takes the lines one after the other. -/
lemma configLoadLoop_eq_foldl : ∀ (fuel : ℕ) (res : Config) (str f : List UInt8),
    configLoadLoop fuel res str f = (configLines fuel str f).foldl configLoadItem res
  | 0, _, _, _ => rfl
  | fuel + 1, res, str, f => by
      rw [configLoadLoop, configLines]
      cases fgets 4096 f with
      | none => rfl
      | some r =>
          obtain ⟨line, rest⟩ := r
          obtain ⟨s, cont, hline⟩ : ∃ s cont,
              appendTrimmedLine str line [0x20, 0x0D, 0x09, 0x0A] = (s, cont) := ⟨_, _, rfl⟩
          simp only [hline]
          cases cont
          · exact configLoadLoop_eq_foldl fuel _ _ _
          · exact configLoadLoop_eq_foldl fuel _ _ _

/-! ### The invariant -/

/-- A configuration after the assignments `es`. -/
structure ConfInv (conf : Config) (es : List (CString × CString)) : Prop where
  fresh : ∀ item ∈ conf.sequence, item.ptr < conf.next
  ptrs : (conf.sequence.map ConfItem.ptr).Nodup
  keyed : ∀ item ∈ conf.sequence, item.type = .pair → item.key ≠ none
  rev : ∀ key ptr, conf.revconf.get key = some ptr ↔
    ∃ item ∈ conf.sequence, item.type = .pair ∧ item.key = some key ∧ item.ptr = ptr
  values : ∀ key, conf.confs.get key = lastValue es key
  same : ∀ key, conf.confs.get key = none ↔ conf.revconf.get key = none

namespace ConfInv

variable {conf : Config} {es : List (CString × CString)} {key : CString}

lemma start : ConfInv configCreate [] where
  fresh := fun _ h => absurd h List.not_mem_nil
  ptrs := List.nodup_nil
  keyed := fun _ h => absurd h List.not_mem_nil
  rev := fun key ptr => by simp [configCreate]
  values := fun key => rfl
  same := fun key => by simp [configCreate]

/-- Two lines with one address are one line. -/
lemma eq_of_ptr (h : ConfInv conf es) {a b : ConfItem} (ha : a ∈ conf.sequence)
    (hb : b ∈ conf.sequence) (hab : a.ptr = b.ptr) : a = b :=
  List.inj_on_of_nodup_map h.ptrs ha hb hab

/-- A comment. -/
lemma comment (h : ConfInv conf es) {item : ConfItem} (htype : item.type = .comment)
    (hptr : item.ptr = conf.next) :
    ConfInv { conf with sequence := conf.sequence ++ [item], next := conf.next + 1 } es where
  fresh := by
    intro it hit
    rcases List.mem_append.mp hit with hit | hit
    · exact (h.fresh it hit).trans (Nat.lt_succ_self _)
    · rw [List.mem_singleton.mp hit, hptr]
      exact Nat.lt_succ_self _
  ptrs := by
    rw [List.map_append, List.map_singleton, hptr]
    refine List.nodup_append.mpr ⟨h.ptrs, List.nodup_singleton _, fun a ha b hb => ?_⟩
    obtain ⟨it, hit, rfl⟩ := List.mem_map.mp ha
    rw [List.mem_singleton.mp hb]
    exact (h.fresh it hit).ne
  keyed := by
    intro it hit hpair
    rcases List.mem_append.mp hit with hit | hit
    · exact h.keyed it hit hpair
    · rw [List.mem_singleton.mp hit, htype] at hpair
      cases hpair
  rev := by
    intro key ptr
    rw [h.rev]
    constructor
    · rintro ⟨it, hit, hrest⟩
      exact ⟨it, List.mem_append_left _ hit, hrest⟩
    · rintro ⟨it, hit, hpair, hrest⟩
      rcases List.mem_append.mp hit with hit | hit
      · exact ⟨it, hit, hpair, hrest⟩
      · rw [List.mem_singleton.mp hit, htype] at hpair
        cases hpair
  values := h.values
  same := h.same

/-- The value of a key after a put is that of the last assignment. -/
lemma values_put (h : ConfInv conf es) (key value k : CString) :
    (conf.confs.put key value).get k = lastValue (es ++ [(key, value)]) k := by
  rw [lastValue_concat]
  by_cases hk : key = k
  · rw [if_pos hk, hk, OrderedMap.get_put_self]
  · rw [if_neg hk, OrderedMap.get_put_of_ne _ _ (Ne.symm hk), h.values]

/-- **A pair.** The item of the key is taken out of the sequence and a new one is added. -/
lemma pair (h : ConfInv conf es) (value : CString) (maxkeylen : ℕ) (item : ConfItem)
    (htype : item.type = .pair) (hptr : item.ptr = conf.next) (hkey : item.key = some key) :
    ConfInv { confs := conf.confs.put key value
              sequence := (conf.sequence.filter fun it => some it.ptr ≠ conf.revconf.get key)
                ++ [item]
              revconf := conf.revconf.put key conf.next
              maxkeylen := maxkeylen
              next := conf.next + 1 } (es ++ [(key, value)]) where
  fresh := by
    intro it hit
    rcases List.mem_append.mp hit with hit | hit
    · exact (h.fresh it (List.mem_filter.mp hit).1).trans (Nat.lt_succ_self _)
    · rw [List.mem_singleton.mp hit, hptr]
      exact Nat.lt_succ_self _
  ptrs := by
    rw [List.map_append, List.map_singleton, hptr]
    refine List.nodup_append.mpr ⟨h.ptrs.sublist (List.filter_sublist.map _),
      List.nodup_singleton _, fun a ha b hb => ?_⟩
    obtain ⟨it, hit, rfl⟩ := List.mem_map.mp ha
    rw [List.mem_singleton.mp hb]
    exact (h.fresh it (List.mem_filter.mp hit).1).ne
  keyed := by
    intro it hit hpair
    rcases List.mem_append.mp hit with hit | hit
    · exact h.keyed it (List.mem_filter.mp hit).1 hpair
    · rw [List.mem_singleton.mp hit, hkey]
      exact Option.some_ne_none _
  rev := by
    intro k ptr
    by_cases hk : k = key
    · subst hk
      rw [OrderedMap.get_put_self]
      constructor
      · intro heq
        exact ⟨item, by simp, htype, hkey, hptr.trans (Option.some.inj heq)⟩
      · rintro ⟨it, hit, hpair, hitkey, rfl⟩
        rcases List.mem_append.mp hit with hit | hit
        · -- the line that had the key is gone
          obtain ⟨hmem, hne⟩ := List.mem_filter.mp hit
          have hrev := (h.rev k it.ptr).mpr ⟨it, hmem, hpair, hitkey, rfl⟩
          simp [hrev] at hne
        · rw [List.mem_singleton.mp hit, hptr]
    · rw [OrderedMap.get_put_of_ne _ _ hk, h.rev]
      constructor
      · rintro ⟨it, hit, hpair, hitkey, rfl⟩
        refine ⟨it, List.mem_append_left _ (List.mem_filter.mpr ⟨hit, ?_⟩), hpair, hitkey, rfl⟩
        rw [decide_eq_true_iff]
        intro heq
        obtain ⟨other, hother, -, hotherkey, hsame⟩ := (h.rev key it.ptr).mp heq.symm
        rw [h.eq_of_ptr hother hit hsame, hitkey] at hotherkey
        exact hk (Option.some.inj hotherkey)
      · rintro ⟨it, hit, hpair, hitkey, hitptr⟩
        rcases List.mem_append.mp hit with hit | hit
        · exact ⟨it, (List.mem_filter.mp hit).1, hpair, hitkey, hitptr⟩
        · rw [List.mem_singleton.mp hit, hkey] at hitkey
          exact absurd (Option.some.inj hitkey).symm hk
  values := h.values_put key value
  same := by
    intro k
    by_cases hk : k = key
    · subst hk
      simp
    · rw [OrderedMap.get_put_of_ne _ _ hk, OrderedMap.get_put_of_ne _ _ hk]
      exact h.same k

/-- One line of a file. -/
lemma loadItem (h : ConfInv conf es) (str : List UInt8) :
    ConfInv (configLoadItem conf str) (es ++ (configAssign str).toList) := by
  rcases configLoadItem_cases conf str with
    ⟨hassign, item, htype, hptr, heq⟩ | ⟨key, value, hassign, item, htype, hptr, hkey, heq⟩
  · rw [hassign, heq, Option.toList_none, List.append_nil]
    exact h.comment htype hptr
  · rw [hassign, heq]
    exact h.pair value _ item htype hptr hkey

/-- The lines of a file. -/
lemma loadItems (h : ConfInv conf es) (strs : List (List UInt8)) :
    ConfInv (strs.foldl configLoadItem conf) (es ++ strs.filterMap configAssign) := by
  induction strs generalizing conf es with
  | nil =>
      rw [List.filterMap_nil, List.append_nil]
      exact h
  | cons str strs ih =>
      have hrest := ih (h.loadItem str)
      rw [List.append_assoc] at hrest
      rw [List.filterMap_cons]
      cases hassign : configAssign str with
      | none =>
          rw [hassign] at hrest
          exact hrest
      | some e =>
          rw [hassign] at hrest
          exact hrest

/-- A `Set` call. -/
lemma set (h : ConfInv conf es) (key value : CString) :
    ConfInv (configSet conf key value) (es ++ [(key, value)]) := by
  unfold configSet
  dsimp only
  cases hprev : conf.confs.get key with
  | some prev =>
      refine ⟨h.fresh, h.ptrs, h.keyed, h.rev, h.values_put key value, fun k => ?_⟩
      by_cases hk : k = key
      · subst hk
        rw [OrderedMap.get_put_self, ← h.same, hprev]
        simp
      · rw [OrderedMap.get_put_of_ne _ _ hk]
        exact h.same k
  | none =>
      have hrev := (h.same key).mp hprev
      have hpair := h.pair value (max conf.maxkeylen key.1.length)
        { ptr := conf.next, key := some key, comment := none, type := .pair, index := 0 }
        rfl rfl rfl
      rw [hrev, List.filter_eq_self.mpr (by simp)] at hpair
      exact hpair

lemma sets (h : ConfInv conf es) (es' : List (CString × CString)) :
    ConfInv (es'.foldl (fun conf e => configSet conf e.1 e.2) conf) (es ++ es') := by
  induction es' generalizing conf es with
  | nil =>
      rw [List.append_nil]
      exact h
  | cons e es' ih =>
      have hrest := ih (h.set e.1 e.2)
      rwa [List.append_assoc] at hrest

lemma mem_confs_iff (h : ConfInv conf es) {key : CString} :
    key ∈ conf.confs.keys ↔ ∃ item ∈ conf.sequence, item.type = .pair ∧ item.key = some key := by
  rw [OrderedMap.mem_keys_iff, ne_eq, h.same, ← ne_eq, Option.ne_none_iff_exists']
  constructor
  · rintro ⟨ptr, hptr⟩
    obtain ⟨item, hitem, htype, hkey, -⟩ := (h.rev key ptr).mp hptr
    exact ⟨item, hitem, htype, hkey⟩
  · rintro ⟨item, hitem, htype, hkey⟩
    exact ⟨item.ptr, (h.rev key item.ptr).mpr ⟨item, hitem, htype, hkey, rfl⟩⟩

/-- The containers agree. -/
lemma consistent (h : ConfInv conf es) : ConfigConsistent conf where
  revconf_keys := by
    intro key
    rw [OrderedMap.mem_keys_iff, OrderedMap.mem_keys_iff]
    exact (not_congr (h.same key)).symm
  sequence_keys := by
    intro key
    simp only [configPairItems, List.mem_map, List.mem_filter, decide_eq_true_iff, h.mem_confs_iff]
    constructor
    · rintro ⟨item, ⟨hitem, htype⟩, rfl⟩
      obtain ⟨k, hk⟩ := Option.ne_none_iff_exists'.mp (h.keyed item hitem htype)
      exact ⟨k, hk, item, hitem, htype, hk⟩
    · rintro ⟨k, rfl, item, hitem, htype, hk⟩
      exact ⟨item, ⟨hitem, htype⟩, hk⟩
  once := by
    have hnodup : (configPairItems conf).Nodup := (List.Nodup.of_map _ h.ptrs).filter _
    refine hnodup.map_on fun a ha b hb hab => ?_
    obtain ⟨ha, hatype⟩ := List.mem_filter.mp ha
    obtain ⟨hb, hbtype⟩ := List.mem_filter.mp hb
    rw [decide_eq_true_iff] at hatype hbtype
    obtain ⟨k, hk⟩ := Option.ne_none_iff_exists'.mp (h.keyed a ha hatype)
    have h1 := (h.rev k a.ptr).mpr ⟨a, ha, hatype, hk, rfl⟩
    have h2 := (h.rev k b.ptr).mpr ⟨b, hb, hbtype, hab ▸ hk, rfl⟩
    exact h.eq_of_ptr ha hb (Option.some.inj (h1.symm.trans h2))
  live := by
    intro key ptr hget
    obtain ⟨item, hitem, htype, hkey, rfl⟩ := (h.rev key ptr).mp hget
    exact ⟨item, List.mem_filter.mpr ⟨hitem, by rw [decide_eq_true_iff]; exact htype⟩, rfl, hkey,
      fun other hother hptr => h.eq_of_ptr hother hitem hptr⟩

end ConfInv

end LibCmutils
