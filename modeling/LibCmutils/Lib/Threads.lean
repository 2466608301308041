import Mathlib.Algebra.BigOperators.Group.Finset.Piecewise
import Mathlib.Algebra.BigOperators.Group.List.Basic
import Mathlib.Data.Fintype.BigOperators

/-!
Threads that share a state: recursive mutexes, and sums over tables of threads.

* `Mutex`: a recursive mutex, free or held by one thread some number of times.
  `Mutex.depth` is how often a thread holds it; `Mutex.depth_lock`,
  `Mutex.depth_unlock` say what the operations do to the depths, and
  `Mutex.exclusive` that only one thread has one.
* `sum_update_add`: the sum of a quantity over all threads when one thread
  changes.
* `countP_set_add`, `sum_map_set_add`: the same for a list of entries.
-/

namespace LibCmutils

universe u v

/-! ### Recursive mutexes -/

/-- A recursive mutex: free, or held by a thread that locked it once and then
`again` more times. -/
inductive Mutex (Tid : Type u) where
  | free
  | held (owner : Tid) (again : ℕ)
  deriving DecidableEq

namespace Mutex

variable {Tid : Type u} [DecidableEq Tid] {m m' : Mutex Tid} {t u : Tid}

/-- Locking waits while another thread holds the mutex. -/
def lock (m : Mutex Tid) (t : Tid) : Option (Mutex Tid) :=
  match m with
  | .free => some (.held t 0)
  | .held owner again => if owner = t then some (.held t (again + 1)) else none

/-- Unlocking is for the thread that holds the mutex. -/
def unlock (m : Mutex Tid) (t : Tid) : Option (Mutex Tid) :=
  match m with
  | .free => none
  | .held owner 0 => if owner = t then some .free else none
  | .held owner (again + 1) => if owner = t then some (.held t again) else none

/-- How often a thread holds the mutex. -/
def depth (m : Mutex Tid) (t : Tid) : ℕ :=
  match m with
  | .free => 0
  | .held owner again => if owner = t then again + 1 else 0

@[simp] lemma depth_free : (free : Mutex Tid).depth t = 0 := rfl

/-- At most one thread holds a mutex. -/
lemma exclusive (ht : 0 < m.depth t) (hu : 0 < m.depth u) : t = u := by
  cases m with
  | free => simp at ht
  | held owner again =>
      rw [depth] at ht hu
      split at ht <;> split at hu <;> simp_all

/-- Locking adds one to the depth of the locking thread and to no other. -/
lemma depth_lock (h : m.lock t = some m') :
    m'.depth = Function.update m.depth t (m.depth t + 1) := by
  funext u
  cases m with
  | free =>
      obtain rfl : Mutex.held t 0 = m' := by simpa [lock] using h
      by_cases hu : u = t
      · simp [depth, hu]
      · simp [depth, hu, Ne.symm hu]
  | held owner again =>
      obtain ⟨rfl, rfl⟩ : owner = t ∧ Mutex.held t (again + 1) = m' := by
        simpa [lock] using h
      by_cases hu : u = owner
      · simp [depth, hu]
      · simp [depth, hu, Ne.symm hu]

/-- A thread that locks a mutex finds it held by no other thread. -/
lemma depth_other_of_lock (h : m.lock t = some m') (hu : u ≠ t) : m.depth u = 0 := by
  cases m with
  | free => rfl
  | held owner again =>
      obtain ⟨rfl, -⟩ : owner = t ∧ Mutex.held t (again + 1) = m' := by
        simpa [lock] using h
      rw [depth, if_neg hu.symm]

/-- Unlocking takes one from the depth of the unlocking thread and from no
other. -/
lemma depth_unlock (h : m.unlock t = some m') :
    m.depth t = m'.depth t + 1 ∧ ∀ u, u ≠ t → m'.depth u = m.depth u := by
  match m, h with
  | .held owner 0, h =>
      obtain ⟨rfl, rfl⟩ : owner = t ∧ Mutex.free = m' := by simpa [unlock] using h
      exact ⟨by simp [depth], fun u hu => by simp [depth, Ne.symm hu]⟩
  | .held owner (again + 1), h =>
      obtain ⟨rfl, rfl⟩ : owner = t ∧ Mutex.held t again = m' := by simpa [unlock] using h
      exact ⟨by simp [depth], fun u hu => by simp [depth, Ne.symm hu]⟩

/-- A thread can lock a mutex that is free, or that it holds. -/
lemma isSome_lock (h : m = .free ∨ 0 < m.depth t) : (m.lock t).isSome := by
  cases m with
  | free => rfl
  | held owner again =>
      obtain rfl : owner = t := by
        by_contra hne
        simp [depth, hne] at h
      simp [lock]

/-- A thread can unlock a mutex that it holds. -/
lemma isSome_unlock (h : 0 < m.depth t) : (m.unlock t).isSome := by
  match m, h with
  | .held owner 0, h =>
      obtain rfl : owner = t := by
        by_contra hne
        simp [depth, hne] at h
      simp [unlock]
  | .held owner (again + 1), h =>
      obtain rfl : owner = t := by
        by_contra hne
        simp [depth, hne] at h
      simp [unlock]

end Mutex

/-! ### Sums over threads -/

section Sums

variable {ι : Type u} {α : Type v}

/-- When one thread changes, the sum over all threads changes by what that
thread contributes. -/
lemma sum_update_add [Fintype ι] [DecidableEq ι] {M : Type*} [AddCommMonoid M] (g : α → M)
    (f : ι → α) (i : ι) (a : α) :
    (∑ j, g (Function.update f i a j)) + g (f i) = (∑ j, g (f j)) + g a := by
  have hnew := Finset.add_sum_erase Finset.univ (fun j => g (Function.update f i a j))
    (Finset.mem_univ i)
  have hold := Finset.add_sum_erase Finset.univ (fun j => g (f j)) (Finset.mem_univ i)
  have hrest : ∑ j ∈ Finset.univ.erase i, g (Function.update f i a j)
      = ∑ j ∈ Finset.univ.erase i, g (f j) := by
    refine Finset.sum_congr rfl fun j hj => ?_
    rw [Function.update_of_ne (Finset.ne_of_mem_erase hj)]
  rw [← hnew, ← hold, hrest, Function.update_self]
  ac_rfl

/-- When one entry of a list changes, the sum over the list changes by what that
entry contributes. -/
lemma sum_map_set_add {M : Type*} [AddCommMonoid M] (g : α → M) :
    ∀ {l : List α} {i : ℕ} {b : α} (a : α), l[i]? = some b →
      ((l.set i a).map g).sum + g b = (l.map g).sum + g a
  | [], i, b, a, h => by simp at h
  | x :: l, 0, b, a, h => by
      obtain rfl : x = b := by simpa using h
      simp only [List.set_cons_zero, List.map_cons, List.sum_cons]
      ac_rfl
  | x :: l, i + 1, b, a, h => by
      have ih := sum_map_set_add g a (l := l) (i := i) (b := b) (by simpa using h)
      simp only [List.set_cons_succ, List.map_cons, List.sum_cons, add_assoc, ih]

/-- When one entry of a list changes, the number of entries with a property
changes by that entry. -/
lemma countP_set_add (p : α → Bool) {l : List α} {i : ℕ} {b : α} (a : α) (h : l[i]? = some b) :
    (l.set i a).countP p + (p b).toNat = l.countP p + (p a).toNat := by
  have hsum : ∀ l : List α, l.countP p = (l.map fun x => (p x).toNat).sum := by
    intro l
    induction l with
    | nil => rfl
    | cons x l ih => cases hx : p x <;> simp [hx, ih, add_comm]
  rw [hsum, hsum]
  exact sum_map_set_add (fun x => (p x).toNat) a h

end Sums

end LibCmutils
