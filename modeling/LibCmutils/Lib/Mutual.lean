import Mathlib.Data.Option.Basic
import Mathlib.Logic.Function.Basic

/-!
Links that lead both ways: two tables, each of which names the partner in the other one.

* `Mutual to_ from_`: `to_` leads from `a` to `b` exactly when `from_` leads back.
* `Mutual.cut`, `Mutual.join`: a link is taken away, and two free ends are joined.
* `Mutual.free_or_joined`: when a link is made and the links still lead both ways, both ends were
  free, or it was there.
-/

namespace LibCmutils

universe u v

variable {α : Type u} {β : Type v}

/-- Each of two tables leads back where the other one comes from. -/
def Mutual (to_ : α → Option β) (from_ : β → Option α) : Prop :=
  ∀ a b, to_ a = some b ↔ from_ b = some a

namespace Mutual

variable [DecidableEq α] [DecidableEq β] {to_ : α → Option β} {from_ : β → Option α} {a : α} {b : β}

/-- A link is taken away at both ends. -/
lemma cut (h : Mutual to_ from_) (hab : to_ a = some b) :
    Mutual (Function.update to_ a none) (Function.update from_ b none) := by
  intro a' b'
  by_cases ha : a' = a <;> by_cases hb : b' = b
  · simp [ha, hb]
  · rw [ha, Function.update_self, Function.update_of_ne hb]
    refine ⟨fun hn => absurd hn (by simp), fun hb' => ?_⟩
    exact absurd (Option.some.inj (((h a b').mpr hb').symm.trans hab)) hb
  · rw [hb, Function.update_self, Function.update_of_ne ha]
    refine ⟨fun ha' => ?_, fun hn => absurd hn (by simp)⟩
    exact absurd (Option.some.inj (((h a' b).mp ha').symm.trans ((h a b).mp hab))) ha
  · rw [Function.update_of_ne ha, Function.update_of_ne hb]
    exact h a' b'

/-- Two free ends are joined. -/
lemma join (h : Mutual to_ from_) (ha : to_ a = none) (hb : from_ b = none) :
    Mutual (Function.update to_ a (some b)) (Function.update from_ b (some a)) := by
  intro a' b'
  by_cases ha' : a' = a <;> by_cases hb' : b' = b
  · simp [ha', hb']
  · rw [ha', Function.update_self, Function.update_of_ne hb', ← h a b', ha]
    simp [Ne.symm hb']
  · rw [hb', Function.update_self, Function.update_of_ne ha', h a' b, hb]
    simp [Ne.symm ha']
  · rw [Function.update_of_ne ha', Function.update_of_ne hb']
    exact h a' b'

/-- A link is made that leaves all links leading both ways. -/
lemma free_or_joined (h : Mutual to_ from_)
    (h' : Mutual (Function.update to_ a (some b)) (Function.update from_ b (some a))) :
    to_ a = none ∧ from_ b = none ∨ to_ a = some b ∧ from_ b = some a := by
  -- an old link of one of the ends would still be there
  have hto : ∀ b', to_ a = some b' → b' = b := by
    intro b' hb'
    by_contra hne
    have hback := (h' a b').mpr (by rw [Function.update_of_ne hne]; exact (h a b').mp hb')
    rw [Function.update_self] at hback
    exact hne (Option.some.inj hback).symm
  have hfrom : ∀ a', from_ b = some a' → a' = a := by
    intro a' ha'
    by_contra hne
    have hback := (h' a' b).mp (by rw [Function.update_of_ne hne]; exact (h a' b).mpr ha')
    rw [Function.update_self] at hback
    exact hne (Option.some.inj hback).symm
  cases hta : to_ a with
  | some b' =>
      obtain rfl := hto b' hta
      exact Or.inr ⟨rfl, (h a b').mp hta⟩
  | none =>
      cases hfb : from_ b with
      | some a' =>
          obtain rfl := hfrom a' hfb
          exact absurd (((h a' b).mpr hfb).symm.trans hta) (by simp)
      | none => exact Or.inl ⟨rfl, rfl⟩

end Mutual

end LibCmutils
