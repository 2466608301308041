import Mathlib.Computability.Language
import Mathlib.Data.List.TakeWhile

/-!
Patterns for words, and the languages they stand for.

* `Glob`: one letter of a set, any number of letters of a set, and the negation of all that
  follows. `Glob.language` is what a pattern stands for.
* `tryDown`: the search of a backtracking matcher, from the longest beginning down to the empty
  one. `mem_many_iff` is its reason: only the letters in front count.
* `Glob.comp`: one pattern behind another. `language_comp`: without a negation the languages are
  multiplied.
* `Glob.Complete`: nothing in the pattern is missing.
-/

namespace LibCmutils

universe u

/-- A pattern for words. `never` is a pattern that is broken off. -/
inductive Glob (α : Type u) where
  | stop
  | never
  | one (s : α → Bool) (rest : Glob α)
  | many (s : α → Bool) (rest : Glob α)
  | negate (rest : Glob α)

namespace Glob

variable {α : Type u}

/-- The words of one letter out of a set. -/
def letters (s : α → Bool) : Language α := {w : List α | ∃ c, s c = true ∧ w = [c]}

/-- The words with letters out of a set only. -/
def words (s : α → Bool) : Language α := {w : List α | ∀ c ∈ w, s c = true}

/-- The words a pattern stands for. -/
def language : Glob α → Language α
  | stop => 1
  | never => 0
  | one s rest => letters s * rest.language
  | many s rest => words s * rest.language
  | negate rest => (rest.language)ᶜ

/-- Nothing is missing in the pattern. -/
def Complete : Glob α → Prop
  | stop => True
  | never => False
  | one _ rest | many _ rest | negate rest => rest.Complete

/-- No part of the pattern is negated. -/
def Plain : Glob α → Prop
  | stop | never => True
  | one _ rest | many _ rest => rest.Plain
  | negate _ => False

/-- The pattern `q` behind `p`. -/
def comp : Glob α → Glob α → Glob α
  | stop, q => q
  | never, _ => never
  | one s rest, q => one s (rest.comp q)
  | many s rest, q => many s (rest.comp q)
  | negate rest, q => negate (rest.comp q)

/-! ### The words of a pattern -/

@[simp] lemma mem_stop_iff {w : List α} : w ∈ (stop : Glob α).language ↔ w = [] := Iff.rfl

@[simp] lemma notMem_never (w : List α) : w ∉ (never : Glob α).language := id

@[simp] lemma mem_negate_iff {g : Glob α} {w : List α} :
    w ∈ (negate g).language ↔ w ∉ g.language := Iff.rfl

@[simp] lemma nil_notMem_one (s : α → Bool) (g : Glob α) : [] ∉ (one s g).language := by
  rintro ⟨_, ⟨c, _, rfl⟩, b, _, h⟩
  exact List.cons_ne_nil _ _ h

@[simp] lemma cons_mem_one_iff {s : α → Bool} {g : Glob α} {c : α} {w : List α} :
    c :: w ∈ (one s g).language ↔ s c = true ∧ w ∈ g.language := by
  constructor
  · rintro ⟨_, ⟨d, hd, rfl⟩, b, hb, h⟩
    obtain ⟨rfl, rfl⟩ := List.cons.inj h
    exact ⟨hd, hb⟩
  · rintro ⟨hc, hw⟩
    exact ⟨[c], ⟨c, hc, rfl⟩, w, hw, rfl⟩

/-- Only as many letters can be left out as there are letters of the set in front. -/
lemma mem_many_iff {s : α → Bool} {g : Glob α} {w : List α} :
    w ∈ (many s g).language ↔
      ∃ i ≤ (w.takeWhile s).length, w.drop i ∈ g.language := by
  constructor
  · rintro ⟨a, ha, b, hb, rfl⟩
    refine ⟨a.length, ?_, by rwa [List.drop_left]⟩
    rw [List.takeWhile_append_of_pos ha, List.length_append]
    exact Nat.le_add_right _ _
  · rintro ⟨i, hi, hw⟩
    refine ⟨w.take i, fun c hc => ?_, w.drop i, hw, List.take_append_drop i w⟩
    have hpre : w.take i <+: w.takeWhile s :=
      List.prefix_of_prefix_length_le (List.take_prefix i w) (List.takeWhile_prefix s)
        ((List.length_take_le i w).trans hi)
    exact List.mem_takeWhile_imp (hpre.subset hc)

/-! ### Backtracking -/

/-- The test of `w` without its first letters: `k` of them, then fewer, and none at last. -/
def tryDown (test : List α → Bool) (w : List α) : ℕ → Bool
  | 0 => test w
  | k + 1 => test (w.drop (k + 1)) || tryDown test w k

lemma tryDown_iff {test : List α → Bool} {w : List α} {k : ℕ} :
    tryDown test w k = true ↔ ∃ i ≤ k, test (w.drop i) = true := by
  induction k with
  | zero => simp [tryDown]
  | succ k ih =>
      rw [tryDown, Bool.or_eq_true, ih]
      constructor
      · rintro (h | ⟨i, hi, h⟩)
        · exact ⟨k + 1, le_rfl, h⟩
        · exact ⟨i, Nat.le_succ_of_le hi, h⟩
      · rintro ⟨i, hi, h⟩
        rcases Nat.le_succ_iff.mp hi with hle | rfl
        · exact Or.inr ⟨i, hle, h⟩
        · exact Or.inl h

/-! ### Composition -/

/-- Without a negation, a pattern behind another stands for the words put together. -/
lemma language_comp {p : Glob α} (hp : p.Plain) (q : Glob α) :
    (p.comp q).language = p.language * q.language := by
  induction p with
  | stop => exact (one_mul _).symm
  | never => exact (zero_mul _).symm
  | one s rest ih => rw [comp, language, language, ih hp, mul_assoc]
  | many s rest ih => rw [comp, language, language, ih hp, mul_assoc]
  | negate rest _ => exact hp.elim

end Glob

end LibCmutils
