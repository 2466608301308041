import Mathlib.Logic.Function.Basic
import Mathlib.Data.List.Basic

/-!
Heaps of cells that point to each other.

* `Heap`: the cells at their addresses; `update`, `alloc`, `release` change one of them. An
  `Allocator` chooses any free address.
* `Heap.Apart`: what an earlier heap held is as it was, and the later cells do not point to it.
  `Apart.trans`, `Apart.update`, `Apart.alloc`, `Apart.release` are its rules.
-/

namespace LibCmutils

universe u

/-- The cells at their addresses. From `top` on all addresses are free. -/
structure Heap (C : Type u) where
  cells : ℕ → Option C
  top : ℕ
  free : ∀ a, top ≤ a → cells a = none

/-- An allocator finds a free address. -/
structure Allocator (C : Type u) where
  pick : Heap C → ℕ
  pick_free : ∀ h : Heap C, h.cells (pick h) = none

/-- The allocator that takes the address behind all cells. -/
def Allocator.atTop {C : Type u} : Allocator C := ⟨Heap.top, fun h => h.free h.top (Nat.le_refl _)⟩

namespace Heap

variable {C : Type u}

/-- The heap without cells. -/
def empty : Heap C := ⟨fun _ => none, 0, fun _ _ => rfl⟩

/-- The heap with the cell at one address changed. -/
def update (h : Heap C) (a : ℕ) (c : Option C) : Heap C where
  cells := Function.update h.cells a c
  top := max h.top (a + 1)
  free b hb := by
    rw [Function.update_of_ne (by omega), h.free b (by omega)]

/-- A new cell. -/
def alloc (h : Heap C) (A : Allocator C) (c : C) : Heap C × ℕ :=
  (h.update (A.pick h) (some c), A.pick h)

/-- A cell is given back; one that is free already cannot be. -/
def release (h : Heap C) (a : ℕ) : Option (Heap C) :=
  if (h.cells a).isSome then some (h.update a none) else none

@[simp] lemma update_self (h : Heap C) (a : ℕ) (c : Option C) : (h.update a c).cells a = c := by
  simp [update]

lemma update_of_ne (h : Heap C) {a b : ℕ} (hne : b ≠ a) (c : Option C) :
    (h.update a c).cells b = h.cells b := by
  simp [update, hne]

/-- What `h₀` held is as it was, and the other cells do not point to it. -/
structure Apart (pointers : C → List ℕ) (h₀ h : Heap C) : Prop where
  keeps : ∀ {a c}, h₀.cells a = some c → h.cells a = some c
  closed : ∀ {a c}, h₀.cells a = none → h.cells a = some c → ∀ p ∈ pointers c, h₀.cells p = none

namespace Apart

variable {pointers : C → List ℕ} {h₀ h h' : Heap C} {a : ℕ} {c : C}

lemma refl (h : Heap C) : Apart pointers h h where
  keeps hc := hc
  closed hnone hc := by
    rw [hnone] at hc
    cases hc

lemma free (h : Apart pointers h₀ h') (hnone : h'.cells a = none) : h₀.cells a = none :=
  Option.eq_none_iff_forall_not_mem.mpr fun c hc => by
    rw [h.keeps hc] at hnone
    cases hnone

lemma trans (h₁ : Apart pointers h₀ h) (h₂ : Apart pointers h h') : Apart pointers h₀ h' where
  keeps hc := h₂.keeps (h₁.keeps hc)
  closed {a c} hnone hc p hp := by
    cases hold : h.cells a with
    | none => exact h₁.free (h₂.closed hold hc p hp)
    | some c' =>
        obtain rfl : c' = c := Option.some.inj ((h₂.keeps hold).symm.trans hc)
        exact h₁.closed hnone hold p hp

/-- A cell that `h₀` did not hold is changed. -/
lemma update (h₁ : Apart pointers h₀ h) (hnone : h₀.cells a = none) {c : Option C}
    (hc : ∀ d ∈ c, ∀ p ∈ pointers d, h₀.cells p = none) : Apart pointers h₀ (h.update a c) where
  keeps {b d} hd := by
    have hne : b ≠ a := fun heq => by
      rw [heq, hnone] at hd
      cases hd
    rw [update_of_ne _ hne, h₁.keeps hd]
  closed {b d} hb hd := by
    by_cases hne : b = a
    · rw [hne, update_self] at hd
      exact hc d hd
    · rw [update_of_ne _ hne] at hd
      exact h₁.closed hb hd

lemma alloc (h₁ : Apart pointers h₀ h) (A : Allocator C)
    (hc : ∀ p ∈ pointers c, h₀.cells p = none) :
    Apart pointers h₀ (h.alloc A c).1 ∧ h₀.cells (h.alloc A c).2 = none := by
  have hnone := h₁.free (A.pick_free h)
  refine ⟨h₁.update hnone fun d hd => ?_, hnone⟩
  obtain rfl := Option.some.inj hd
  exact hc

lemma release (h₁ : Apart pointers h₀ h) (hnone : h₀.cells a = none)
    (h₂ : h.release a = some h') : Apart pointers h₀ h' := by
  rw [Heap.release] at h₂
  split_ifs at h₂
  obtain rfl := Option.some.inj h₂
  exact h₁.update hnone fun d hd => by cases hd

end Apart

end Heap

end LibCmutils
