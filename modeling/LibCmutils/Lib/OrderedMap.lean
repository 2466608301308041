import Mathlib.Tactic

/-!
Insertion-ordered finite maps: each key is listed once, in the order of its most
recent `put`.

* `OrderedMap`: the entries in order, with the proof that no key is listed
  twice.
* `get`, `put`, `erase`, `adjust`, `keys`, `size`: the operations; `get_put_self`,
  `get_put_of_ne`, `get_erase_self`, `get_erase_of_ne` are the laws of a finite
  map, `entries_put` fixes the order.
* `putAll`: the entries of another map put one after the other. `putAll_empty` gets
  the map back.
-/

namespace LibCmutils

universe u v

/-- A finite map with its keys in the order of their most recent `put`. -/
structure OrderedMap (K : Type u) (V : Type v) where
  entries : List (K × V)
  nodup : (entries.map Prod.fst).Nodup

namespace OrderedMap

variable {K : Type u} {V : Type v}

@[ext] lemma ext {m m' : OrderedMap K V} (h : m.entries = m'.entries) : m = m' := by
  cases m
  cases m'
  cases h
  rfl

/-- The map without entries. -/
def empty : OrderedMap K V := ⟨[], by simp⟩

/-- The keys in order. -/
def keys (m : OrderedMap K V) : List K := m.entries.map Prod.fst

/-- The number of keys. -/
def size (m : OrderedMap K V) : ℕ := m.entries.length

variable [DecidableEq K]

/-- The value of a key. -/
def get (m : OrderedMap K V) (k : K) : Option V := (m.entries.find? (·.1 = k)).map Prod.snd

/-- The map without a key. -/
def erase (m : OrderedMap K V) (k : K) : OrderedMap K V :=
  ⟨m.entries.filter (·.1 ≠ k), m.nodup.sublist (List.filter_sublist.map _)⟩

lemma fst_ne_of_mem_erase {m : OrderedMap K V} {k : K} {e : K × V} (h : e ∈ (m.erase k).entries) :
    e.1 ≠ k := by
  simpa using (List.mem_filter.mp h).2

/-- The map with a key set to a value, and moved to the end. -/
def put (m : OrderedMap K V) (k : K) (v : V) : OrderedMap K V :=
  ⟨(m.erase k).entries ++ [(k, v)], by
    rw [List.map_append, List.nodup_append]
    refine ⟨(m.erase k).nodup, by simp, ?_⟩
    rintro a ha b hb rfl
    obtain ⟨e, he, rfl⟩ := List.mem_map.mp ha
    exact fst_ne_of_mem_erase he (by simpa using hb)⟩

/-- The map with the value of a key changed in its place. -/
def adjust (m : OrderedMap K V) (k : K) (f : V → V) : OrderedMap K V :=
  ⟨m.entries.map fun e => if e.1 = k then (e.1, f e.2) else e, by
    have hfst : ∀ e : K × V, (if e.1 = k then (e.1, f e.2) else e).1 = e.1 := fun e => by
      split_ifs <;> rfl
    rw [List.map_map, Function.comp_def]
    simp only [hfst]
    exact m.nodup⟩

/-- The map without the entry at a position. -/
def eraseAt (m : OrderedMap K V) (i : ℕ) : OrderedMap K V :=
  match m.entries[i]? with
  | some e => m.erase e.1
  | none => m

/-- The entries of a list put one after the other. -/
def putAll (m : OrderedMap K V) (es : List (K × V)) : OrderedMap K V :=
  es.foldl (fun m e => m.put e.1 e.2) m

lemma entries_put (m : OrderedMap K V) (k : K) (v : V) :
    (m.put k v).entries = m.entries.filter (·.1 ≠ k) ++ [(k, v)] := rfl

@[simp] lemma get_empty (k : K) : (empty : OrderedMap K V).get k = none := rfl

/-- The one entry of a key. -/
lemma get_eq_some_iff {m : OrderedMap K V} {k : K} {v : V} :
    m.get k = some v ↔ (k, v) ∈ m.entries := by
  constructor
  · intro h
    obtain ⟨e, he, rfl⟩ := Option.map_eq_some_iff.mp h
    have hk : e.1 = k := by simpa using List.find?_some he
    exact hk ▸ List.mem_of_find?_eq_some he
  · intro h
    obtain ⟨e, he⟩ := Option.isSome_iff_exists.mp
      (List.find?_isSome.mpr ⟨(k, v), h, by simp⟩ : (m.entries.find? (·.1 = k)).isSome)
    have hk : e.1 = k := by simpa using List.find?_some he
    have hev : e = (k, v) :=
      List.inj_on_of_nodup_map m.nodup (List.mem_of_find?_eq_some he) h hk
    rw [get, he, hev]
    rfl

lemma get_eq_none_iff {m : OrderedMap K V} {k : K} : m.get k = none ↔ ∀ e ∈ m.entries, e.1 ≠ k := by
  simp [get]

lemma mem_keys_iff {m : OrderedMap K V} {k : K} : k ∈ m.keys ↔ m.get k ≠ none := by
  rw [ne_eq, get_eq_none_iff, keys, List.mem_map]
  simp

@[simp] lemma get_put_self (m : OrderedMap K V) (k : K) (v : V) : (m.put k v).get k = some v :=
  get_eq_some_iff.mpr (by simp [entries_put])

lemma get_put_of_ne (m : OrderedMap K V) {k k' : K} (v : V) (h : k' ≠ k) :
    (m.put k v).get k' = m.get k' := by
  refine Option.ext fun w => ?_
  simp only [get_eq_some_iff, entries_put, List.mem_append, List.mem_filter, List.mem_singleton,
    Prod.mk.injEq, h, false_and, or_false]
  simp [h]

@[simp] lemma get_erase_self (m : OrderedMap K V) (k : K) : (m.erase k).get k = none :=
  get_eq_none_iff.mpr fun _ he => fst_ne_of_mem_erase he

lemma get_erase_of_ne (m : OrderedMap K V) {k k' : K} (h : k' ≠ k) :
    (m.erase k).get k' = m.get k' := by
  refine Option.ext fun w => ?_
  simp [get_eq_some_iff, erase, h]

@[simp] lemma get_adjust_self (m : OrderedMap K V) (k : K) (f : V → V) :
    (m.adjust k f).get k = (m.get k).map f := by
  refine Option.ext fun w => ?_
  simp only [get_eq_some_iff, adjust, List.mem_map, Option.map_eq_some_iff]
  constructor
  · rintro ⟨e, he, heq⟩
    split_ifs at heq with hk
    · obtain ⟨-, rfl⟩ := Prod.mk.inj heq
      exact ⟨e.2, hk ▸ he, rfl⟩
    · exact absurd (congrArg Prod.fst heq) hk
  · rintro ⟨v, hv, rfl⟩
    exact ⟨(k, v), hv, if_pos rfl⟩

lemma get_adjust_of_ne (m : OrderedMap K V) {k k' : K} (f : V → V) (h : k' ≠ k) :
    (m.adjust k f).get k' = m.get k' := by
  refine Option.ext fun w => ?_
  simp only [get_eq_some_iff, adjust, List.mem_map]
  constructor
  · rintro ⟨e, he, heq⟩
    split_ifs at heq with hk
    · exact absurd ((congrArg Prod.fst heq).symm.trans hk) h
    · exact heq ▸ he
  · exact fun hw => ⟨(k', w), hw, if_neg h⟩

lemma entries_put_of_notMem {m : OrderedMap K V} {k : K} (h : k ∉ m.keys) (v : V) :
    (m.put k v).entries = m.entries ++ [(k, v)] := by
  rw [entries_put, List.filter_eq_self.mpr]
  intro e he
  simpa using fun hk : e.1 = k => h (hk ▸ List.mem_map_of_mem he)

/-- Fresh keys are put at the end, in their order. -/
lemma entries_putAll : ∀ (m : OrderedMap K V) (es : List (K × V)),
    (m.keys ++ es.map Prod.fst).Nodup → (m.putAll es).entries = m.entries ++ es
  | m, [], _ => by simp [putAll]
  | m, e :: es, h => by
      have hfresh : e.1 ∉ m.keys := by
        intro hmem
        exact (List.disjoint_of_nodup_append h) hmem (by simp)
      have hentries := entries_put_of_notMem hfresh e.2
      have hkeys : (m.put e.1 e.2).keys = m.keys ++ [e.1] := by simp [keys, hentries]
      have htail := entries_putAll (m.put e.1 e.2) es (by
        rw [hkeys, List.append_assoc]
        exact h)
      rw [putAll, List.foldl_cons, ← putAll, htail, hentries, List.append_assoc,
        List.singleton_append]

/-- A map is its entries put one after the other. -/
@[simp] lemma putAll_empty (m : OrderedMap K V) : empty.putAll m.entries = m :=
  ext (by simpa [empty] using entries_putAll empty m.entries m.nodup)

end OrderedMap

end LibCmutils
