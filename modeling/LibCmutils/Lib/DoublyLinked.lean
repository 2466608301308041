import LibCmutils.Lib.Linked
import Mathlib.Data.List.Induction
import Mathlib.Data.List.Nodup

/-!
Doubly linked lists: nodes that name the next one and the one before.

* `Links next prev p l n`: the nodes of `l` are linked both ways, with `p` before the
  first and `n` behind the last.
* `links_append`: a list is linked when its two parts are, each with its neighbour in
  the other part.
* `Links.first`, `Links.last`: the neighbour at one end changes.
* `Links.forward`, `Links.backward`: both ways lead through the same nodes.
-/

namespace LibCmutils

universe u
variable {α : Type u}

/-- The nodes of `l` name each other, `p` before the first and `n` behind the last. -/
def Links (next prev : α → Option α) : Option α → List α → Option α → Prop
  | _, [], _ => True
  | p, a :: l, n => prev a = p ∧ next a = l.head?.or n ∧ Links next prev (some a) l n

variable {next next' prev prev' : α → Option α} {p p' n n' : Option α} {l m : List α} {a : α}

lemma links_append :
    Links next prev p (l ++ m) n ↔
      Links next prev p l (m.head?.or n) ∧ Links next prev (l.getLast?.or p) m n := by
  induction l generalizing p with
  | nil => simp [Links]
  | cons a l ih =>
      have hlast : (a :: l).getLast?.or p = l.getLast?.or (some a) := by
        cases l <;> simp [List.getLast?_cons]
      simp only [List.cons_append, Links, ih, hlast, List.head?_append, Option.or_assoc, and_assoc]

namespace Links

/-- Links do not see changes of other nodes. -/
lemma congr (h : Links next prev p l n) (hnext : ∀ a ∈ l, next' a = next a)
    (hprev : ∀ a ∈ l, prev' a = prev a) : Links next' prev' p l n := by
  induction l generalizing p with
  | nil => trivial
  | cons a l ih =>
      obtain ⟨hp, hn, h⟩ := h
      refine ⟨(hprev a (by simp)).trans hp, (hnext a (by simp)).trans hn, ih h ?_ ?_⟩
      · exact fun b hb => hnext b (by simp [hb])
      · exact fun b hb => hprev b (by simp [hb])

/-- The first node gets another neighbour. -/
lemma first (h : Links next prev p l n) (hnext : ∀ a ∈ l, next' a = next a)
    (hprev : ∀ a ∈ l.tail, prev' a = prev a) (hp : ∀ a ∈ l.head?, prev' a = p') :
    Links next' prev' p' l n := by
  cases l with
  | nil => trivial
  | cons a l =>
      obtain ⟨-, hn, h⟩ := h
      exact ⟨hp a rfl, (hnext a (by simp)).trans hn,
        h.congr (fun b hb => hnext b (by simp [hb])) fun b hb => hprev b hb⟩

/-- The last node gets another neighbour. -/
lemma last (h : Links next prev p l n) (hprev : ∀ a ∈ l, prev' a = prev a)
    (hnext : ∀ a ∈ l.dropLast, next' a = next a) (hn : ∀ a ∈ l.getLast?, next' a = n') :
    Links next' prev' p l n' := by
  cases l using List.reverseRecOn with
  | nil => trivial
  | append_singleton l a =>
      rw [links_append] at h ⊢
      obtain ⟨h, hp, -⟩ := h
      simp only [List.dropLast_concat, List.getLast?_concat, Option.mem_def,
        Option.some.injEq, forall_eq'] at hnext hn
      refine ⟨h.congr hnext fun b hb => hprev b (by simp [hb]), ?_, ?_, trivial⟩
      · exact (hprev a (by simp)).trans hp
      · simpa using hn

/-- The way forward. -/
lemma forward (h : Links next prev p l none) : Linked next l.head? l := by
  induction l generalizing p with
  | nil => exact .nil
  | cons a l ih =>
      obtain ⟨-, hn, h⟩ := h
      refine .cons ?_
      rw [hn, Option.or_none]
      exact ih h

/-- The way back. -/
lemma backward (h : Links next prev none l n) : Linked prev l.getLast? l.reverse := by
  induction l using List.reverseRecOn generalizing n with
  | nil => exact .nil
  | append_singleton l a ih =>
      obtain ⟨h, hp, -⟩ := links_append.mp h
      rw [List.getLast?_concat, List.reverse_concat]
      refine .cons ?_
      rw [hp, Option.or_none]
      exact ih h

end Links

/-- A list that is followed to its end has no node twice. -/
lemma Linked.nodup {head : Option α} (h : Linked next head l) : l.Nodup := by
  induction h with
  | nil => exact List.nodup_nil
  | @cons a l h ih =>
      refine List.nodup_cons.mpr ⟨fun hmem => ?_, ih⟩
      obtain ⟨l₁, l₂, rfl⟩ := List.append_of_mem hmem
      -- from the second visit on the list would be the whole list again
      have hsuffix : ∀ {head : Option α} {l₁ : List α},
          Linked next head (l₁ ++ a :: l₂) → Linked next (some a) (a :: l₂) := by
        intro head l₁ h
        induction l₁ generalizing head with
        | nil =>
            obtain ⟨rfl, -⟩ := h.tail
            exact h
        | cons b l₁ ih => exact ih h.tail.2
      have heq := (Linked.cons h).unique (hsuffix h)
      have hlen := congrArg List.length heq
      simp only [List.length_cons, List.length_append] at hlen
      omega

end LibCmutils
