import LibCmutils.Lib.OrderedMap

/-!
Values gathered under keys: fields with repeated keys, and a map with one value for each key.

* `valuesOf`: the values of a key, in the order of the fields. `eq_of_valuesOf`: with the keys
  they are the fields.
* `gathered`: no value, the only value, or many values made into one; `gathered_inj` says when
  the values are read back from it.
* `Gathers`: a map has under each key what is gathered of its values. `Gathers.push`: a field
  more, `Gathers.put`: a key with one new value.
-/

namespace LibCmutils

universe u v
variable {K : Type u} {V : Type v} [DecidableEq K]

/-! ### Fields -/

/-- The values of a key. -/
def valuesOf (fields : List (K × V)) (k : K) : List V := (fields.filter (·.1 = k)).map Prod.snd

@[simp] lemma valuesOf_nil (k : K) : valuesOf ([] : List (K × V)) k = [] := rfl

lemma valuesOf_cons_self (k : K) (v : V) (fields : List (K × V)) :
    valuesOf ((k, v) :: fields) k = v :: valuesOf fields k := by
  simp [valuesOf]

lemma valuesOf_cons_of_ne {k k' : K} (h : k' ≠ k) (v : V) (fields : List (K × V)) :
    valuesOf ((k', v) :: fields) k = valuesOf fields k := by
  simp [valuesOf, h]

lemma valuesOf_append (fields fields' : List (K × V)) (k : K) :
    valuesOf (fields ++ fields') k = valuesOf fields k ++ valuesOf fields' k := by
  simp [valuesOf]

lemma valuesOf_singleton (k k' : K) (v : V) :
    valuesOf [(k', v)] k = if k' = k then [v] else [] := by
  by_cases h : k' = k
  · rw [if_pos h, h, valuesOf_cons_self, valuesOf_nil]
  · rw [if_neg h, valuesOf_cons_of_ne h, valuesOf_nil]

/-- Without the fields of a key. -/
lemma valuesOf_filter_ne (fields : List (K × V)) (k l : K) :
    valuesOf (fields.filter (·.1 ≠ k)) l = if k = l then [] else valuesOf fields l := by
  rw [valuesOf, List.filter_filter]
  split_ifs with hl
  · rw [List.filter_eq_nil_iff.mpr fun e _ => by simp [hl]]
    rfl
  · congr 1
    refine List.filter_congr fun e _ => ?_
    by_cases he : e.1 = l
    · simp [he, Ne.symm hl]
    · simp [he]

lemma mem_valuesOf {fields : List (K × V)} {k : K} {v : V} :
    v ∈ valuesOf fields k ↔ (k, v) ∈ fields := by
  simp [valuesOf]

/-- The fields of a map have one value for each key. -/
lemma valuesOf_entries (m : OrderedMap K V) (k : K) : valuesOf m.entries k = (m.get k).toList := by
  cases hget : m.get k with
  | none =>
      have hnone : m.entries.filter (·.1 = k) = [] := List.filter_eq_nil_iff.mpr fun e he => by
        simpa using OrderedMap.get_eq_none_iff.mp hget e he
      rw [valuesOf, hnone]
      rfl
  | some v =>
      have hmem := OrderedMap.get_eq_some_iff.mp hget
      have hone : m.entries.filter (·.1 = k) = [(k, v)] := by
        have hnodup := m.nodup
        obtain ⟨pre, post, heq⟩ := List.append_of_mem hmem
        rw [heq, List.map_append, List.map_cons, List.nodup_append, List.nodup_cons] at hnodup
        obtain ⟨-, ⟨hpost, -⟩, hdisj⟩ := hnodup
        have hpre : pre.filter (·.1 = k) = [] := List.filter_eq_nil_iff.mpr fun e he => by
          simpa using hdisj e.1 (List.mem_map_of_mem he) k List.mem_cons_self
        have hpost : post.filter (·.1 = k) = [] := List.filter_eq_nil_iff.mpr fun e he => by
          simpa using fun h : e.1 = k => hpost (List.mem_map.mpr ⟨e, he, h⟩)
        rw [heq, List.filter_append, hpre, List.filter_cons_of_pos (by simp), hpost]
        rfl
      rw [valuesOf, hone]
      rfl

/-- Fields are determined by their keys and the values of each key. -/
lemma eq_of_valuesOf : ∀ {fields fields' : List (K × V)},
    fields.map Prod.fst = fields'.map Prod.fst →
    (∀ k, valuesOf fields k = valuesOf fields' k) → fields = fields'
  | [], [], _, _ => rfl
  | (k, v) :: fields, (k', v') :: fields', hkeys, h => by
      obtain ⟨rfl, htail⟩ := List.cons.inj hkeys
      have hhead := h k
      rw [valuesOf_cons_self, valuesOf_cons_self] at hhead
      obtain ⟨rfl, hrest⟩ := List.cons.inj hhead
      rw [eq_of_valuesOf htail fun l => ?_]
      by_cases hl : k = l
      · exact hl ▸ hrest
      · have hother := h l
        rwa [valuesOf_cons_of_ne hl, valuesOf_cons_of_ne hl] at hother

/-- There are as many fields as values. -/
lemma length_eq_of_valuesOf {fields fields' : List (K × V)}
    (h : ∀ k, (valuesOf fields k).length = (valuesOf fields' k).length) :
    fields.length = fields'.length := by
  have hperm : (fields.map Prod.fst).Perm (fields'.map Prod.fst) := List.perm_iff_count.mpr fun k => by
    have hcount (fs : List (K × V)) : (fs.map Prod.fst).count k = (valuesOf fs k).length := by
      rw [List.count, List.countP_map, List.countP_eq_length_filter, valuesOf, List.length_map]
      rfl
    rw [hcount, hcount, h k]
  simpa using hperm.length_eq

/-! ### Gathered values -/

/-- No value, the only value, or many values made into one. -/
def gathered (many : List V → V) : List V → Option V
  | [] => none
  | [v] => some v
  | v :: w :: vs => some (many (v :: w :: vs))

/-- Single values are read back when they are not made of many. -/
lemma gathered_inj {many : List V → V} (hmany : Function.Injective many) {vs vs' : List V}
    (hvs : ∀ v ∈ vs, v ∉ Set.range many) (hvs' : ∀ v ∈ vs', v ∉ Set.range many)
    (h : gathered many vs = gathered many vs') : vs = vs' := by
  match vs, vs' with
  | [], [] => rfl
  | [], [_] | [], _ :: _ :: _ | [_], [] | _ :: _ :: _, [] => cases h
  | [v], [v'] => rw [Option.some.inj h]
  | [v], v' :: w' :: ws' => exact absurd ⟨_, (Option.some.inj h).symm⟩ (hvs v List.mem_cons_self)
  | v :: w :: ws, [v'] => exact absurd ⟨_, Option.some.inj h⟩ (hvs' v' List.mem_cons_self)
  | v :: w :: ws, v' :: w' :: ws' => exact hmany (Option.some.inj h)

/-- Under each key the map has what is gathered of its values. -/
def Gathers (many : List V → V) (m : OrderedMap K V) (fields : List (K × V)) : Prop :=
  ∀ k, m.get k = gathered many (valuesOf fields k)

namespace Gathers

variable {many : List V → V} {m m' : OrderedMap K V} {fields fields' : List (K × V)}

lemma empty : Gathers many (OrderedMap.empty : OrderedMap K V) [] := fun _ => rfl

/-- The values are read back. -/
lemma valuesOf_eq (hmany : Function.Injective many) (h : Gathers many m fields)
    (h' : Gathers many m fields') (hf : ∀ e ∈ fields, e.2 ∉ Set.range many)
    (hf' : ∀ e ∈ fields', e.2 ∉ Set.range many) (k : K) : valuesOf fields k = valuesOf fields' k :=
  gathered_inj hmany (fun _ hv => hf _ (mem_valuesOf.mp hv)) (fun _ hv => hf' _ (mem_valuesOf.mp hv))
    ((h k).symm.trans (h' k))

/-- A field more. -/
lemma push (h : Gathers many m fields) {k : K} {v : V}
    (hself : m'.get k = gathered many (valuesOf fields k ++ [v]))
    (hother : ∀ l, l ≠ k → m'.get l = m.get l) : Gathers many m' (fields ++ [(k, v)]) := by
  intro l
  rw [valuesOf_append, valuesOf_singleton]
  by_cases hl : k = l
  · rw [if_pos hl, ← hl, hself]
  · rw [if_neg hl, List.append_nil, hother l (Ne.symm hl), h l]

/-- A key with one new value. -/
lemma put (h : Gathers many m fields) (k : K) (v : V) :
    Gathers many (m.put k v) (fields.filter (·.1 ≠ k) ++ [(k, v)]) := by
  intro l
  rw [valuesOf_append, valuesOf_singleton]
  by_cases hl : k = l
  · rw [valuesOf_filter_ne, if_pos hl, if_pos hl, ← hl, OrderedMap.get_put_self]
    rfl
  · rw [valuesOf_filter_ne, if_neg hl, if_neg hl, List.append_nil, OrderedMap.get_put_of_ne _ _ (Ne.symm hl), h l]

end Gathers

end LibCmutils
