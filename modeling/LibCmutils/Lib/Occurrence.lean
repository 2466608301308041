import Mathlib.Data.List.Infix

/-!
Occurrences of one list in another, taken from left to right.

* `OccursAt`: a list is found at a place of another one.
* `LeftmostFrom`: the places at which a search from left to right finds the list. It goes on
  `n` places behind the last one; with the length of what is looked for, the occurrences do
  not overlap.
* `segmentsFrom`: what lies between these places.
-/

namespace LibCmutils

variable {α : Type*} (x l : List α) (n : ℕ)

/-- `x` is found in `l` at place `p`. -/
def OccursAt (p : ℕ) : Prop := x <+: l.drop p

/-- The places of `x` in `l` from place `start` on, each the first one at least `n` places
behind the last. -/
inductive LeftmostFrom : ℕ → List ℕ → Prop
  | nil {start : ℕ} (none : ∀ q, start ≤ q → ¬ OccursAt x l q) : LeftmostFrom start []
  | cons {start p : ℕ} {ps : List ℕ} (le : start ≤ p) (occurs : OccursAt x l p)
      (first : ∀ q, start ≤ q → q < p → ¬ OccursAt x l q) (rest : LeftmostFrom (p + n) ps) :
      LeftmostFrom start (p :: ps)

/-- What lies between the places, `n` of `l` being left out at each. -/
def segmentsFrom : ℕ → List ℕ → List (List α)
  | start, [] => [l.drop start]
  | start, p :: ps => (l.drop start).take (p - start) :: segmentsFrom (p + n) ps

variable {x l n}

lemma occursAt_drop {start p : ℕ} : OccursAt x (l.drop start) p ↔ OccursAt x l (start + p) := by
  rw [OccursAt, OccursAt, List.drop_drop]

lemma OccursAt.isInfix {p : ℕ} (h : OccursAt x l p) : x <:+: l :=
  List.IsInfix.trans (List.IsPrefix.isInfix h) (List.drop_suffix p l).isInfix

/-- There is one segment more than there are places. -/
lemma segmentsFrom_length (l : List α) (n start : ℕ) (ps : List ℕ) :
    (segmentsFrom l n start ps).length = ps.length + 1 := by
  induction ps generalizing start with
  | nil => rfl
  | cons p ps ih => rw [segmentsFrom, List.length_cons, ih, List.length_cons]

lemma segmentsFrom_ne_nil (l : List α) (n start : ℕ) (ps : List ℕ) :
    segmentsFrom l n start ps ≠ [] := by
  rw [← List.length_pos_iff, segmentsFrom_length]
  exact Nat.succ_pos _

/-- Segments joined anew begin with the first one. -/
lemma intercalate_segmentsFrom (sep : List α) (start p : ℕ) (ps : List ℕ) :
    sep.intercalate (segmentsFrom l n start (p :: ps)) =
      (l.drop start).take (p - start) ++ (sep ++ sep.intercalate (segmentsFrom l n (p + n) ps)) := by
  rw [segmentsFrom, List.intercalate_cons_of_ne_nil (segmentsFrom_ne_nil l n (p + n) ps),
    List.append_assoc]

end LibCmutils
