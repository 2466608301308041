import Mathlib.Data.List.Basic

/-!
Intrusive singly linked lists: nodes that name the next one.

* `Linked next head l`: following `next` from `head` visits the nodes of `l`, in
  order, and ends.
* `Linked.unique`: the list is determined by its head. `Linked.congr`: it does not
  see changes of other nodes.
-/

namespace LibCmutils

universe u
variable {α : Type u}

/-- The nodes visited from `head`. -/
inductive Linked (next : α → Option α) : Option α → List α → Prop where
  | nil : Linked next none []
  | cons {a : α} {l : List α} : Linked next (next a) l → Linked next (some a) (a :: l)

namespace Linked

variable {next next' : α → Option α} {head : Option α} {l l' : List α} {a : α}

lemma unique (h : Linked next head l) (h' : Linked next head l') : l = l' := by
  induction h generalizing l' with
  | nil => cases h'; rfl
  | cons _ ih =>
      cases h' with
      | cons h' => rw [ih h']

/-- A list whose nodes keep their successors stays as it is. -/
lemma congr (h : Linked next head l) (heq : ∀ a ∈ l, next' a = next a) : Linked next' head l := by
  induction h with
  | nil => exact .nil
  | @cons a l _ ih =>
      refine .cons ?_
      rw [heq a (by simp)]
      exact ih fun b hb => heq b (by simp [hb])

lemma eq_nil (h : Linked next none l) : l = [] := by
  cases h
  rfl

/-- The head of a list that is not empty is its first node. -/
lemma eq_cons (h : Linked next (some a) l) : ∃ rest, l = a :: rest ∧ Linked next (next a) rest := by
  cases h with
  | cons h => exact ⟨_, rfl, h⟩

lemma tail (h : Linked next head (a :: l)) : head = some a ∧ Linked next (next a) l := by
  cases h with
  | cons h => exact ⟨rfl, h⟩

end Linked

end LibCmutils
