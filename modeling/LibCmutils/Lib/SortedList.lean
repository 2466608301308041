import LibCmutils.Lib.Comparator

/-!
Strictly increasing lists as a value: what `Add` does to a sorted array, without the
array.

* `sortedAdd`: the item takes the place of the one it compares equal to, or goes before
  the first greater one. `StrictSorted.sortedAdd`, `StrictSorted.mem_sortedAdd`.
* `StrictSorted.ext`: a strictly increasing list is determined by its members.
* `sortedAddAll`: many items added one after the other; of those that compare equal the
  last one stays (`mem_sortedAddAll`).
-/

namespace LibCmutils

universe u
variable {α : Type u} {cmp cmp' : α → α → ℤ} {l l' : List α} {x z : α}

/-- The item takes the place of the one it compares equal to, or goes before the first
greater one. -/
def sortedAdd (cmp : α → α → ℤ) (x : α) : List α → List α
  | [] => [x]
  | y :: l =>
      if cmp x y = 0 then x :: l
      else if cmp x y < 0 then x :: y :: l
      else y :: sortedAdd cmp x l

@[simp] lemma self_mem_sortedAdd : x ∈ sortedAdd cmp x l := by
  induction l with
  | nil => simp [sortedAdd]
  | cons y l ih =>
      rw [sortedAdd]
      split_ifs <;> simp [ih]

lemma eq_or_mem_of_mem_sortedAdd (h : z ∈ sortedAdd cmp x l) : z = x ∨ z ∈ l := by
  induction l with
  | nil => simpa [sortedAdd] using h
  | cons y l ih =>
      rw [sortedAdd] at h
      split_ifs at h <;> simp only [List.mem_cons] at h ⊢ <;> tauto

/-- A member stays, or the new item took its place. -/
lemma mem_sortedAdd_or (cmp : α → α → ℤ) (x : α) (h : z ∈ l) :
    z ∈ sortedAdd cmp x l ∨ cmp x z = 0 := by
  induction l with
  | nil => cases h
  | cons y l ih =>
      rw [sortedAdd]
      rcases List.mem_cons.mp h with rfl | h
      · split_ifs <;> simp_all
      · split_ifs with hzero hneg
        · simp [h]
        · simp [h]
        · exact (ih h).imp (List.mem_cons_of_mem _) id

namespace StrictSorted

lemma congr (h : StrictSorted cmp l) (heq : ∀ a ∈ l, ∀ b ∈ l, cmp' a b = cmp a b) :
    StrictSorted cmp' l :=
  List.Pairwise.imp_of_mem (fun {a b} ha hb hab => by rwa [heq a ha b hb]) h

variable (hc : IsComparator cmp)
include hc

/-- A strictly increasing list is determined by its members. -/
lemma ext (h : StrictSorted cmp l) (h' : StrictSorted cmp l') (hmem : ∀ z, z ∈ l ↔ z ∈ l') :
    l = l' := by
  have hperm : l.Perm l' := (List.perm_ext_iff_of_nodup (h.nodup hc) (h'.nodup hc)).mpr hmem
  refine hperm.eq_of_pairwise (fun a b _ _ hab hba => ?_) h h'
  have := hc.swap a b
  omega

lemma sortedAdd (h : StrictSorted cmp l) : StrictSorted cmp (LibCmutils.sortedAdd cmp x l) := by
  induction l with
  | nil => exact List.pairwise_singleton _ _
  | cons y l ih =>
      obtain ⟨hy, hl⟩ := List.pairwise_cons.mp h
      rw [LibCmutils.sortedAdd]
      split_ifs with hzero hneg
      · exact List.pairwise_cons.mpr ⟨fun z hz => hc.lt_congr_left hzero (hy z hz), hl⟩
      · refine List.pairwise_cons.mpr ⟨fun z hz => ?_, h⟩
        rcases List.mem_cons.mp hz with rfl | hz
        · exact hneg
        · exact hc.lt_trans hneg (hy z hz)
      · refine List.pairwise_cons.mpr ⟨fun z hz => ?_, ih hl⟩
        rcases eq_or_mem_of_mem_sortedAdd hz with rfl | hz
        · have := hc.swap z y
          omega
        · exact hy z hz

/-- The members after an `Add`: the new item, and those it does not compare equal to. -/
lemma mem_sortedAdd (h : StrictSorted cmp l) :
    z ∈ LibCmutils.sortedAdd cmp x l ↔ z = x ∨ z ∈ l ∧ cmp x z ≠ 0 := by
  induction l with
  | nil => simp [LibCmutils.sortedAdd]
  | cons y l ih =>
      obtain ⟨hy, hl⟩ := List.pairwise_cons.mp h
      have habove : cmp x y ≤ 0 → ∀ z ∈ l, cmp x z ≠ 0 := fun hxy z hz =>
        (hc.lt_of_le_of_lt hxy (hy z hz)).ne
      rw [LibCmutils.sortedAdd]
      split_ifs with hzero hneg
      · simp only [List.mem_cons]
        constructor
        · rintro (rfl | hz)
          · exact .inl rfl
          · exact .inr ⟨.inr hz, habove hzero.le z hz⟩
        · rintro (rfl | ⟨rfl | hz, hne⟩)
          · exact .inl rfl
          · exact absurd hzero hne
          · exact .inr hz
      · simp only [List.mem_cons]
        constructor
        · rintro (rfl | rfl | hz)
          · exact .inl rfl
          · exact .inr ⟨.inl rfl, hneg.ne⟩
          · exact .inr ⟨.inr hz, habove hneg.le z hz⟩
        · rintro (rfl | ⟨hz, -⟩)
          · exact .inl rfl
          · exact .inr hz
      · simp only [List.mem_cons, ih hl]
        constructor
        · rintro (rfl | rfl | ⟨hz, hne⟩)
          · exact .inr ⟨.inl rfl, hzero⟩
          · exact .inl rfl
          · exact .inr ⟨.inr hz, hne⟩
        · rintro (rfl | ⟨rfl | hz, hne⟩)
          · exact .inr (.inl rfl)
          · exact .inl rfl
          · exact .inr (.inr ⟨hz, hne⟩)

/-- An item that compares equal to none is added to the others. -/
lemma sortedAdd_perm (h : StrictSorted cmp l) (hne : ∀ z ∈ l, cmp x z ≠ 0) :
    (LibCmutils.sortedAdd cmp x l).Perm (x :: l) := by
  refine (List.perm_ext_iff_of_nodup ((h.sortedAdd hc).nodup hc) ?_).mpr fun z => ?_
  · refine List.nodup_cons.mpr ⟨fun hx => hne x hx (hc.self x), h.nodup hc⟩
  · rw [h.mem_sortedAdd hc, List.mem_cons]
    exact or_congr_right ⟨And.left, fun hz => ⟨hz, hne z hz⟩⟩

end StrictSorted

/-! ### Many items -/

/-- The items of `xs` are added one after the other. -/
def sortedAddAll (cmp : α → α → ℤ) (xs : List α) : List α :=
  xs.foldl (fun l x => sortedAdd cmp x l) []

lemma sortedAddAll_concat (cmp : α → α → ℤ) (xs : List α) (x : α) :
    sortedAddAll cmp (xs ++ [x]) = sortedAdd cmp x (sortedAddAll cmp xs) := by
  simp [sortedAddAll]

lemma strictSorted_sortedAddAll (hc : IsComparator cmp) (xs : List α) :
    StrictSorted cmp (sortedAddAll cmp xs) := by
  induction xs using List.reverseRecOn with
  | nil => exact StrictSorted.nil cmp
  | append_singleton xs x ih =>
      rw [sortedAddAll_concat]
      exact ih.sortedAdd hc

/-- Of the items that compare equal the last one stays. -/
lemma mem_sortedAddAll (hc : IsComparator cmp) {xs : List α} :
    z ∈ sortedAddAll cmp xs ↔ (xs.filter fun x => cmp x z = 0).getLast? = some z := by
  induction xs using List.reverseRecOn with
  | nil => simp [sortedAddAll]
  | append_singleton xs x ih =>
      rw [sortedAddAll_concat, (strictSorted_sortedAddAll hc xs).mem_sortedAdd hc, ih,
        List.filter_append]
      by_cases hxz : cmp x z = 0
      · simp [hxz, eq_comm]
      · have hne : z ≠ x := fun heq => hxz (heq ▸ hc.self x)
        simp [hxz, hne]

/-- Lists that agree on every class of items give the same result. -/
lemma sortedAddAll_congr (hc : IsComparator cmp) {xs ys : List α}
    (h : ∀ z, (xs.filter fun x => cmp x z = 0) = ys.filter fun x => cmp x z = 0) :
    sortedAddAll cmp xs = sortedAddAll cmp ys :=
  (strictSorted_sortedAddAll hc xs).ext hc (strictSorted_sortedAddAll hc ys) fun z => by
    rw [mem_sortedAddAll hc, mem_sortedAddAll hc, h]

end LibCmutils
