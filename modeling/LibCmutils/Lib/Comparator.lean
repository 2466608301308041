import Mathlib.Tactic

/-!
Comparison functions in the style of C, and the lists they keep sorted.

A comparator returns an integer whose sign orders its two arguments. Items that
compare equal need not be the same item: a comparator may look at a key only.

* `IsComparator`: the sign is antisymmetric and transitive, a total order on
  the classes of items that compare equal. `IsComparator.of_lt`: a comparator
  that follows the order of a function's values.
* `orderCmp`: the comparison of a function's values. `SameSign`: two results that order
  their arguments alike.
* `StrictSorted`: strictly increasing lists. `StrictSorted.insert` and
  `StrictSorted.replace` are the two ways an item enters such a list, in a gap
  or in place of the item it compares equal to; `StrictSorted.ne_zero_of_hit`
  says that the second item is the only one of its class.
-/

namespace LibCmutils

universe u
variable {α : Type u}

/-- A total-order comparator: the sign is antisymmetric, and `≤` is
transitive. -/
structure IsComparator (cmp : α → α → ℤ) : Prop where
  swap : ∀ a b, 0 < cmp a b ↔ cmp b a < 0
  trans : ∀ a b c, cmp a b ≤ 0 → cmp b c ≤ 0 → cmp a c ≤ 0

namespace IsComparator

variable {cmp : α → α → ℤ} (hc : IsComparator cmp)
include hc

lemma self (a : α) : cmp a a = 0 := by
  have h := hc.swap a a
  omega

lemma eq_swap {a b : α} (h : cmp a b = 0) : cmp b a = 0 := by
  have h1 := hc.swap a b
  have h2 := hc.swap b a
  omega

lemma lt_of_lt_of_le {a b c : α} (hab : cmp a b < 0) (hbc : cmp b c ≤ 0) : cmp a c < 0 := by
  by_contra hac
  have hca : cmp c a ≤ 0 := by
    have := hc.swap c a
    omega
  have hba := hc.trans b c a hbc hca
  have := hc.swap b a
  omega

lemma lt_of_le_of_lt {a b c : α} (hab : cmp a b ≤ 0) (hbc : cmp b c < 0) : cmp a c < 0 := by
  by_contra hac
  have hca : cmp c a ≤ 0 := by
    have := hc.swap c a
    omega
  have hcb := hc.trans c a b hca hab
  have := hc.swap c b
  omega

lemma lt_trans {a b c : α} (hab : cmp a b < 0) (hbc : cmp b c < 0) : cmp a c < 0 :=
  hc.lt_of_lt_of_le hab hbc.le

/-- An item that compares equal to `b` has the same place as `b`. -/
lemma lt_congr_right {a b b' : α} (h : cmp b' b = 0) (hab : cmp a b < 0) : cmp a b' < 0 :=
  hc.lt_of_lt_of_le hab (hc.eq_swap h).le

lemma lt_congr_left {a b b' : α} (h : cmp b' b = 0) (hba : cmp b a < 0) : cmp b' a < 0 :=
  hc.lt_of_le_of_lt h.le hba

end IsComparator

/-- Comparing by the value of a function into a linear order. -/
lemma IsComparator.of_lt {β : Type*} [LinearOrder β] {cmp : α → α → ℤ} (f : α → β)
    (hneg : ∀ a b, cmp a b < 0 ↔ f a < f b) (hpos : ∀ a b, 0 < cmp a b ↔ f b < f a) :
    IsComparator cmp := by
  have hle : ∀ a b, cmp a b ≤ 0 ↔ f a ≤ f b := by
    intro a b
    rw [← not_lt, hpos, not_lt]
  refine ⟨fun a b => by rw [hpos, hneg], fun a b c hab hbc => ?_⟩
  rw [hle] at *
  exact hab.trans hbc

/-- Comparing by a part of the items. -/
lemma IsComparator.comap {β : Type*} {cmp : β → β → ℤ} (hc : IsComparator cmp) (f : α → β) :
    IsComparator fun a b => cmp (f a) (f b) :=
  ⟨fun a b => hc.swap (f a) (f b), fun a b c => hc.trans (f a) (f b) (f c)⟩

/-- The comparison of the values of a function. -/
def orderCmp {β : Type*} [LinearOrder β] (f : α → β) (a b : α) : ℤ :=
  if f a < f b then -1 else if f b < f a then 1 else 0

section Order

variable {β : Type*} [LinearOrder β] {f : α → β} {a b : α}

lemma orderCmp_neg_iff : orderCmp f a b < 0 ↔ f a < f b := by
  rw [orderCmp]
  split_ifs with h1 h2
  · simp [h1]
  · simp [h1]
  · simp [h1]

lemma orderCmp_pos_iff : 0 < orderCmp f a b ↔ f b < f a := by
  rw [orderCmp]
  split_ifs with h1 h2
  · simp [h1.le]
  · simp [h2]
  · simp [h2]

lemma orderCmp_eq_zero_iff : orderCmp f a b = 0 ↔ f a = f b := by
  have hneg := orderCmp_neg_iff (f := f) (a := a) (b := b)
  have hpos := orderCmp_pos_iff (f := f) (a := a) (b := b)
  constructor
  · intro h
    exact le_antisymm (not_lt.mp fun h' => by have := hpos.mpr h'; omega)
      (not_lt.mp fun h' => by have := hneg.mpr h'; omega)
  · intro h
    have h1 := mt hneg.mp h.not_lt
    have h2 := mt hpos.mp h.not_gt
    omega

lemma isComparator_orderCmp (f : α → β) : IsComparator (orderCmp f) :=
  .of_lt f (fun _ _ => orderCmp_neg_iff) fun _ _ => orderCmp_pos_iff

end Order

/-- Two results of a comparison that order their arguments alike. -/
def SameSign (m n : ℤ) : Prop := (m < 0 ↔ n < 0) ∧ (0 < m ↔ 0 < n)

lemma SameSign.eq_zero_iff {m n : ℤ} (h : SameSign m n) : m = 0 ↔ n = 0 := by
  obtain ⟨hneg, hpos⟩ := h
  omega

/-- Strictly increasing under the comparator. -/
def StrictSorted (cmp : α → α → ℤ) (l : List α) : Prop :=
  l.Pairwise fun a b => cmp a b < 0

namespace StrictSorted

variable {cmp : α → α → ℤ} {pre post : List α} {x y : α}

lemma nil (cmp : α → α → ℤ) : StrictSorted cmp [] := List.Pairwise.nil

lemma sublist {l l' : List α} (h : StrictSorted cmp l') (hs : l.Sublist l') :
    StrictSorted cmp l :=
  List.Pairwise.sublist hs h

lemma of_append_cons (h : StrictSorted cmp (pre ++ y :: post)) :
    StrictSorted cmp (pre ++ post) :=
  h.sublist ((List.sublist_cons_self y post).append_left pre)

/-- The items before and after a given item of a sorted list. -/
lemma split (h : StrictSorted cmp (pre ++ y :: post)) :
    (∀ z ∈ pre, cmp z y < 0) ∧ ∀ z ∈ post, cmp y z < 0 := by
  obtain ⟨-, hpost, hcross⟩ := List.pairwise_append.mp h
  exact ⟨fun z hz => hcross z hz y (by simp), (List.pairwise_cons.mp hpost).1⟩

variable (hc : IsComparator cmp)
include hc

lemma nodup {l : List α} (h : StrictSorted cmp l) : l.Nodup :=
  List.Pairwise.imp (fun {a b} hab heq => by
    rw [heq, hc.self b] at hab
    exact lt_irrefl 0 hab) h

/-- An item enters a sorted list at a gap. -/
lemma insert (h : StrictSorted cmp (pre ++ post)) (hpre : ∀ z ∈ pre, 0 < cmp x z)
    (hpost : ∀ z ∈ post, cmp x z < 0) : StrictSorted cmp (pre ++ x :: post) := by
  obtain ⟨h1, h2, h3⟩ := List.pairwise_append.mp h
  refine List.pairwise_append.mpr ⟨h1, List.pairwise_cons.mpr ⟨hpost, h2⟩, ?_⟩
  intro a ha b hb
  rcases List.mem_cons.mp hb with rfl | hb
  · exact (hc.swap b a).mp (hpre a ha)
  · exact h3 a ha b hb

/-- An item replaces one it compares equal to. -/
lemma replace (h : StrictSorted cmp (pre ++ y :: post)) (hxy : cmp x y = 0) :
    StrictSorted cmp (pre ++ x :: post) := by
  obtain ⟨hpre, hpost⟩ := h.split
  refine h.of_append_cons.insert hc (fun z hz => ?_) (fun z hz => ?_)
  · exact (hc.swap x z).mpr (hc.lt_congr_right hxy (hpre z hz))
  · exact hc.lt_congr_left hxy (hpost z hz)

/-- At most one item of a sorted list compares equal to a given one. -/
lemma ne_zero_of_hit (h : StrictSorted cmp (pre ++ y :: post)) (hxy : cmp x y = 0) :
    ∀ z ∈ pre ++ post, cmp x z ≠ 0 := by
  obtain ⟨hpre, hpost⟩ := h.split
  intro z hz
  rcases List.mem_append.mp hz with hz | hz
  · have hlt := hc.lt_congr_right hxy (hpre z hz)
    have := hc.swap x z
    omega
  · have := hc.lt_congr_left hxy (hpost z hz)
    omega

end StrictSorted

end LibCmutils
