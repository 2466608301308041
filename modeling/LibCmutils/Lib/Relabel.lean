import LibCmutils.Lib.OrderedMap

/-!
Relabelling an ordered map in place. A pass over a snapshot of the keys takes each value out,
changes it, which may fail, and puts it back under a new key. Giving a new key a new key again
changes nothing.

* `mapM_eq_some_iff`, `mapM_isSome_iff`: a list whose elements are changed, which may fail.
* `relabelStep`, `relabel`: the pass.
* `met`: the entries that the pass comes to. An entry is lost when the pass puts another value
  under its key before. `relabel_isSome_iff`: the pass goes through exactly when it can change
  the values it comes to.
* `relabel_entries`: when no two keys get the same new key, each entry is changed by itself.
* `relabel_forall`: what each change provides holds of every entry in the end.
-/

namespace LibCmutils

universe u

/-! ### Changing the elements of a list -/

lemma mapM_eq_some_iff {A B : Type u} {h : A → Option B} : ∀ {xs : List A} {ys : List B},
    xs.mapM h = some ys ↔ List.Forall₂ (fun x y => h x = some y) xs ys
  | [], ys => by simp [eq_comm]
  | x :: xs, ys => by
      have hpure (y : B) (zs : List B) : (pure (y :: zs) : Option (List B)) = some ys ↔
          ys = y :: zs := by
        simp [eq_comm]
      simp only [List.mapM_cons, Option.bind_eq_bind, Option.bind_eq_some_iff, mapM_eq_some_iff,
        hpure, List.forall₂_cons_left_iff]
      constructor
      · rintro ⟨y, hy, zs, hzs, rfl⟩
        exact ⟨y, zs, hy, hzs, rfl⟩
      · rintro ⟨y, zs, hy, hzs, rfl⟩
        exact ⟨y, hy, zs, hzs, rfl⟩

lemma mapM_isSome_iff {A B : Type u} {h : A → Option B} {xs : List A} :
    (xs.mapM h).isSome ↔ ∀ x ∈ xs, (h x).isSome := by
  induction xs with
  | nil => simp
  | cons x xs ih =>
      rw [List.forall_mem_cons, ← ih, List.mapM_cons]
      cases h x <;> cases xs.mapM h <;> simp

lemma mem_mapM {A B : Type u} {h : A → Option B} {xs : List A} {ys : List B}
    (hys : xs.mapM h = some ys) : ∀ y ∈ ys, ∃ x ∈ xs, h x = some y := by
  have hall := mapM_eq_some_iff.mp hys
  clear hys
  induction hall with
  | nil => simp
  | @cons x y xs ys hxy _ ih =>
      intro y' hy'
      rcases List.mem_cons.mp hy' with rfl | hy'
      · exact ⟨x, List.mem_cons_self, hxy⟩
      · obtain ⟨x', hx', heq⟩ := ih y' hy'
        exact ⟨x', List.mem_cons_of_mem x hx', heq⟩

/-! ### The pass -/

namespace OrderedMap

variable {K V : Type u} [DecidableEq K]

/-- One key of the snapshot. -/
def relabelStep (f : K → K) (g : K → V → Option V) (m : OrderedMap K V) (k : K) :
    Option (OrderedMap K V) := do
  let v ← m.get k
  let w ← g k v
  return (m.erase k).put (f k) w

/-- The pass over the keys. -/
def relabel (f : K → K) (g : K → V → Option V) (m : OrderedMap K V) : Option (OrderedMap K V) :=
  m.keys.foldlM (relabelStep f g) m

/-- The entries whose key is none of the given ones, nor a new key of an entry before. -/
def met (f : K → K) : List K → List (K × V) → List (K × V)
  | _, [] => []
  | ks, e :: es => if e.1 ∈ ks then met f (f e.1 :: ks) es else e :: met f (f e.1 :: ks) es

variable {f : K → K} {g : K → V → Option V} {m m' : OrderedMap K V}

lemma mem_of_mem_met : ∀ {es : List (K × V)} {ks : List K} {e : K × V}, e ∈ met f ks es → e ∈ es
  | [], _, _, h => h
  | e :: es, ks, e', h => by
      rw [met] at h
      split_ifs at h
      · exact List.mem_cons_of_mem e (mem_of_mem_met h)
      · exact (List.mem_cons.mp h).elim (fun heq => heq ▸ List.mem_cons_self)
          fun hmem => List.mem_cons_of_mem e (mem_of_mem_met hmem)

lemma relabelStep_eq_some {k : K} (h : relabelStep f g m k = some m') :
    ∃ v w, m.get k = some v ∧ g k v = some w ∧ m' = (m.erase k).put (f k) w := by
  obtain ⟨v, hv, h⟩ := Option.bind_eq_some_iff.mp h
  obtain ⟨w, hw, h⟩ := Option.bind_eq_some_iff.mp h
  exact ⟨v, w, hv, hw, (Option.some.inj h).symm⟩

lemma relabelStep_of_get {k : K} {v : V} (hv : m.get k = some v) :
    relabelStep f g m k = (g k v).map fun w => (m.erase k).put (f k) w := by
  rw [relabelStep, hv, Option.bind_eq_bind, Option.bind_some]
  cases g k v <;> simp

/-! ### What holds in the end -/

lemma relabel_foldlM_forall {Q : V → Prop} {R : K → V → Prop}
    (hg : ∀ k v w, Q v → g k v = some w → Q w ∧ R (f k) w) :
    ∀ (ks : List K) {m m' : OrderedMap K V},
      (∀ e ∈ m.entries, Q e.2 ∧ (e.1 ∈ ks ∨ R e.1 e.2)) →
      ks.foldlM (relabelStep f g) m = some m' → ∀ e ∈ m'.entries, Q e.2 ∧ R e.1 e.2
  | [], m, m', hm, h => by
      obtain rfl := Option.some.inj h
      intro e he
      obtain ⟨hQ, hmem | hR⟩ := hm e he
      · exact absurd hmem List.not_mem_nil
      · exact ⟨hQ, hR⟩
  | k :: ks, m, m', hm, h => by
      rw [List.foldlM_cons] at h
      obtain ⟨m₁, hstep, h⟩ := Option.bind_eq_some_iff.mp h
      obtain ⟨v, w, hv, hw, rfl⟩ := relabelStep_eq_some hstep
      refine relabel_foldlM_forall hg ks (fun e he => ?_) h
      rw [entries_put] at he
      rcases List.mem_append.mp he with he | he
      · have hold := (List.mem_filter.mp he).1
        have hne : e.1 ≠ k := fst_ne_of_mem_erase hold
        obtain ⟨hQ, hrest⟩ := hm e (List.mem_filter.mp hold).1
        exact ⟨hQ, hrest.imp_left fun hmem => List.mem_of_ne_of_mem hne hmem⟩
      · obtain rfl := List.mem_singleton.mp he
        obtain ⟨hQ, hR⟩ := hg k v w (hm (k, v) (get_eq_some_iff.mp hv)).1 hw
        exact ⟨hQ, .inr hR⟩

/-- **What each change provides** holds of every entry in the end. -/
theorem relabel_forall {Q : V → Prop} {R : K → V → Prop}
    (hg : ∀ k v w, Q v → g k v = some w → Q w ∧ R (f k) w) (hm : ∀ e ∈ m.entries, Q e.2)
    (h : relabel f g m = some m') : ∀ e ∈ m'.entries, Q e.2 ∧ R e.1 e.2 :=
  relabel_foldlM_forall hg m.keys (fun e he => ⟨hm e he, .inl (List.mem_map_of_mem he)⟩) h

/-! ### When it goes through -/

/-- The induction is on the entries that are left. One of them still has its value, unless the
pass put another under its key, and that one can be changed again. -/
lemma relabel_foldlM_isSome {Q : V → Prop} (hf : ∀ k, f (f k) = f k)
    (hg : ∀ k v w, Q v → g k v = some w → Q w ∧ (g (f k) w).isSome) :
    ∀ (es : List (K × V)) (ks : List K) {m : OrderedMap K V}, (es.map Prod.fst).Nodup →
      (∀ k ∈ ks, f k = k) → (∀ e ∈ es, Q e.2) →
      (∀ e ∈ es, if e.1 ∈ ks then ∃ v, m.get e.1 = some v ∧ Q v ∧ (g e.1 v).isSome
        else m.get e.1 = some e.2) →
      (((es.map Prod.fst).foldlM (relabelStep f g) m).isSome ↔
        ∀ e ∈ met f ks es, (g e.1 e.2).isSome)
  | [], _, _, _, _, _, _ => by simp [met]
  | e :: es, ks, m, hnodup, hks, hQ, hm => by
      rw [List.map_cons, List.nodup_cons] at hnodup
      obtain ⟨hQe, hQes⟩ := List.forall_mem_cons.mp hQ
      have hne : ∀ e' ∈ es, e'.1 ≠ e.1 := fun e' he' heq =>
        hnodup.1 (heq ▸ List.mem_map_of_mem he')
      have hks' : ∀ k ∈ f e.1 :: ks, f k = k := by
        intro k hk
        rcases List.mem_cons.mp hk with rfl | hk
        · exact hf e.1
        · exact hks k hk
      -- a step that puts `w` under the new key
      have hstep : ∀ w, Q w ∧ (g (f e.1) w).isSome → ∀ e' ∈ es,
          if e'.1 ∈ f e.1 :: ks then
            ∃ v, ((m.erase e.1).put (f e.1) w).get e'.1 = some v ∧ Q v ∧ (g e'.1 v).isSome
          else ((m.erase e.1).put (f e.1) w).get e'.1 = some e'.2 := by
        intro w hw e' he'
        have hold := hm e' (List.mem_cons_of_mem e he')
        by_cases hnew : e'.1 = f e.1
        · rw [if_pos (by simp [hnew]), hnew, get_put_self]
          exact ⟨w, rfl, hw⟩
        · rw [get_put_of_ne _ _ hnew, get_erase_of_ne _ (hne e' he')]
          simpa [hnew] using hold
      have hfirst := hm e List.mem_cons_self
      rw [List.map_cons, List.foldlM_cons, met]
      split_ifs at hfirst ⊢ with hmem
      · obtain ⟨v, hv, hQv, hsome⟩ := hfirst
        obtain ⟨w, hw⟩ := Option.isSome_iff_exists.mp hsome
        rw [relabelStep_of_get hv, hw]
        exact relabel_foldlM_isSome hf hg es _ hnodup.2 hks' hQes (hstep w (hg _ _ _ hQv hw))
      · rw [relabelStep_of_get hfirst, List.forall_mem_cons]
        cases hw : g e.1 e.2 with
        | none => simp
        | some w =>
            simp only [Option.isSome_some, true_and]
            exact relabel_foldlM_isSome hf hg es _ hnodup.2 hks' hQes (hstep w (hg _ _ _ hQe hw))

/-- **The pass goes through** exactly when it can change the values it comes to. -/
theorem relabel_isSome_iff {Q : V → Prop} (hf : ∀ k, f (f k) = f k)
    (hg : ∀ k v w, Q v → g k v = some w → Q w ∧ (g (f k) w).isSome)
    (hm : ∀ e ∈ m.entries, Q e.2) :
    (relabel f g m).isSome ↔ ∀ e ∈ met f [] m.entries, (g e.1 e.2).isSome :=
  relabel_foldlM_isSome hf hg m.entries [] m.nodup (by simp) hm fun e he => by
    simpa using get_eq_some_iff.mpr he

/-! ### Distinct new keys -/

/-- A step on the first entry moves it to the end, when no other has its new key. -/
lemma entries_put_erase (hf : ∀ k, f (f k) = f k) {e : K × V} {es ds : List (K × V)}
    (hm : m.entries = e :: (es ++ ds)) (hes : ∀ d ∈ es, f d.1 ≠ f e.1)
    (hds : ∀ d ∈ ds, f d.1 = d.1 ∧ d.1 ≠ f e.1) (w : V) :
    ((m.erase e.1).put (f e.1) w).entries = es ++ (ds ++ [(f e.1, w)]) := by
  have herase : (m.erase e.1).entries = es ++ ds := by
    have hfilter : (m.erase e.1).entries = m.entries.filter (·.1 ≠ e.1) := rfl
    rw [hfilter, hm, List.filter_cons_of_neg (by simp), List.filter_eq_self]
    intro d hd
    rcases List.mem_append.mp hd with hd | hd
    · simpa using fun heq : d.1 = e.1 => hes d hd (by rw [heq])
    · obtain ⟨hfix, hne⟩ := hds d hd
      simpa using fun heq : d.1 = e.1 => hne (by rw [← heq, hfix])
  rw [entries_put_of_notMem, herase, List.append_assoc]
  rw [keys, herase, List.mem_map]
  rintro ⟨d, hd, heq⟩
  rcases List.mem_append.mp hd with hd | hd
  · exact hes d hd (by rw [heq, hf])
  · exact (hds d hd).2 heq

lemma relabel_foldlM_entries (hf : ∀ k, f (f k) = f k) :
    ∀ (es ds : List (K × V)) {m : OrderedMap K V}, m.entries = es ++ ds →
      (es.map fun e => f e.1).Nodup → (∀ d ∈ ds, f d.1 = d.1 ∧ d.1 ∉ es.map fun e => f e.1) →
      ((es.map Prod.fst).foldlM (relabelStep f g) m).map entries =
        (es.mapM fun e => (g e.1 e.2).map (Prod.mk (f e.1))).map (ds ++ ·)
  | [], ds, m, hm, _, _ => by
      rw [List.nil_append] at hm
      simp [hm]
  | e :: es, ds, m, hm, hnodup, hds => by
      rw [List.map_cons, List.nodup_cons] at hnodup
      have hget : m.get e.1 = some e.2 := get_eq_some_iff.mpr (by simp [hm])
      have hes : ∀ d ∈ es, f d.1 ≠ f e.1 := fun d hd heq =>
        hnodup.1 (heq ▸ List.mem_map_of_mem hd)
      have hds' : ∀ d ∈ ds, (f d.1 = d.1 ∧ d.1 ≠ f e.1) ∧ d.1 ∉ es.map fun e => f e.1 := by
        intro d hd
        obtain ⟨hfix, hnot⟩ := hds d hd
        rw [List.map_cons, List.mem_cons, not_or] at hnot
        exact ⟨⟨hfix, hnot.1⟩, hnot.2⟩
      rw [List.map_cons, List.foldlM_cons, relabelStep_of_get hget, List.mapM_cons]
      cases hw : g e.1 e.2 with
      | none => rfl
      | some w =>
          have hput := entries_put_erase hf hm hes (fun d hd => (hds' d hd).1) w
          have hdone : ∀ d ∈ ds ++ [(f e.1, w)], f d.1 = d.1 ∧ d.1 ∉ es.map fun e => f e.1 := by
            intro d hd
            rcases List.mem_append.mp hd with hd | hd
            · exact ⟨(hds' d hd).1.1, (hds' d hd).2⟩
            · obtain rfl := List.mem_singleton.mp hd
              exact ⟨hf e.1, hnodup.1⟩
          have hnext := relabel_foldlM_entries hf es (ds ++ [(f e.1, w)]) hput hnodup.2 hdone
          rw [Option.map_some, Option.bind_eq_bind, Option.bind_some, hnext]
          cases es.mapM fun e => (g e.1 e.2).map (Prod.mk (f e.1)) <;> simp

/-- **Distinct new keys**: each entry is changed by itself, in its place. -/
theorem relabel_entries (hf : ∀ k, f (f k) = f k) (hnodup : (m.entries.map fun e => f e.1).Nodup) :
    (relabel f g m).map entries = m.entries.mapM fun e => (g e.1 e.2).map (Prod.mk (f e.1)) := by
  rw [relabel, keys, relabel_foldlM_entries hf m.entries [] (by simp) hnodup (by simp)]
  simp

/-- With distinct new keys the pass comes to every entry. -/
lemma met_of_nodup (hf : ∀ k, f (f k) = f k) : ∀ (es : List (K × V)) (ks : List K),
    (es.map fun e => f e.1).Nodup → (∀ k ∈ ks, f k ∉ es.map fun e => f e.1) → met f ks es = es
  | [], _, _, _ => rfl
  | e :: es, ks, hnodup, hks => by
      rw [List.map_cons, List.nodup_cons] at hnodup
      have hnot : e.1 ∉ ks := fun hmem => hks e.1 hmem (by simp)
      rw [met, if_neg hnot, met_of_nodup hf es _ hnodup.2]
      intro k hk
      rcases List.mem_cons.mp hk with rfl | hk
      · rw [hf]
        exact hnodup.1
      · exact fun hmem => hks k hk (by simpa using .inr (by simpa using hmem))

end OrderedMap

end LibCmutils
