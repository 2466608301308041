import Mathlib.Data.List.Basic
import Mathlib.Logic.Function.Basic

/-!
Resources with one owner each.

* `Owned`: the resources in use are those that the entries of a table hold, and no resource is
  held twice.
* `heldBy`: what an entry holds, if there is one.
* `Exchange`: resources are given up, and others are taken that were not in use.
* `Owned.update`: an entry is replaced, made or removed, and exchanges its resources.
* `Owned.keep`: an entry is replaced that goes on to hold what it held.
-/

namespace LibCmutils

universe u v w

variable {ι : Type u} {β : Type v} {ρ : Type w}

/-- The resources in use are held by the entries of the table, each by one of them. -/
structure Owned (table : ι → Option β) (held : β → List ρ) (used : ρ → Prop) : Prop where
  used_iff : ∀ r, used r ↔ ∃ i b, table i = some b ∧ r ∈ held b
  nodup : ∀ i b, table i = some b → (held b).Nodup
  unique : ∀ i j b c r, table i = some b → table j = some c → r ∈ held b → r ∈ held c → i = j

/-- What an entry holds. -/
def heldBy (held : β → List ρ) : Option β → List ρ
  | none => []
  | some b => held b

variable {table : ι → Option β} {held : β → List ρ} {used used' : ρ → Prop}

@[simp] lemma heldBy_none : heldBy held none = [] := rfl

@[simp] lemma heldBy_some (b : β) : heldBy held (some b) = held b := rfl

lemma mem_heldBy {o : Option β} {r : ρ} : r ∈ heldBy held o ↔ ∃ b, o = some b ∧ r ∈ held b := by
  cases o <;> simp

/-- Nothing is in use, and no entry is there. -/
lemma Owned.empty : Owned (fun _ : ι => none) held fun _ => False :=
  ⟨by simp, by simp, by simp⟩

/-! ### Exchanging resources -/

/-- The resources `a` are given up, and `b` are taken, which were among them or not in use. -/
structure Exchange (a b : List ρ) (used used' : ρ → Prop) : Prop where
  used_iff : ∀ r, used' r ↔ r ∈ b ∨ used r ∧ r ∉ a
  nodup : b.Nodup
  fresh : ∀ r ∈ b, r ∈ a ∨ ¬ used r

namespace Exchange

variable {a b c : List ρ} {used'' : ρ → Prop}

lemma refl (hnodup : a.Nodup) (hused : ∀ r ∈ a, used r) : Exchange a a used used := by
  refine ⟨fun r => ⟨fun hr => or_iff_not_imp_left.mpr fun hn => ⟨hr, hn⟩, ?_⟩, hnodup,
    fun r hr => Or.inl hr⟩
  rintro (hr | ⟨hr, -⟩)
  · exact hused r hr
  · exact hr

/-- What was taken is in use. -/
lemma self (h : Exchange a b used used') : Exchange b b used' used' :=
  .refl h.nodup fun r hr => (h.used_iff r).mpr (Or.inl hr)

/-- Everything is given up. -/
lemma release (hused : ∀ r, used' r ↔ used r ∧ r ∉ a) : Exchange a [] used used' :=
  ⟨fun r => by simp [hused], List.nodup_nil, by simp⟩

/-- What is taken was not in use. -/
lemma take (hnodup : b.Nodup) (hfree : ∀ r ∈ b, ¬ used r) (hused : ∀ r, used' r ↔ r ∈ b ∨ used r) :
    Exchange [] b used used' :=
  ⟨fun r => by simp [hused], hnodup, fun r hr => Or.inr (hfree r hr)⟩

lemma trans (h₁ : Exchange a b used used') (h₂ : Exchange b c used' used'') :
    Exchange a c used used'' := by
  -- what is in use and not given up is not taken
  have hkeep : ∀ r, used r → r ∉ a → r ∉ b := fun r hr ha hb =>
    (h₁.fresh r hb).elim ha fun hn => hn hr
  refine ⟨fun r => ?_, h₂.nodup, fun r hr => ?_⟩
  · rw [h₂.used_iff, h₁.used_iff]
    constructor
    · rintro (hc | ⟨hb | h, hnb⟩)
      · exact Or.inl hc
      · exact absurd hb hnb
      · exact Or.inr h
    · rintro (hc | ⟨hr, ha⟩)
      · exact Or.inl hc
      · exact Or.inr ⟨Or.inr ⟨hr, ha⟩, hkeep r hr ha⟩
  · rcases h₂.fresh r hr with hb | hfree
    · exact h₁.fresh r hb
    · by_contra hcon
      rw [not_or, not_not] at hcon
      exact hfree ((h₁.used_iff r).mpr (Or.inr ⟨hcon.2, hcon.1⟩))

end Exchange

namespace Owned

lemma used_of_mem (h : Owned table held used) {i : ι} {b : β} {r : ρ} (hb : table i = some b)
    (hr : r ∈ held b) : used r :=
  (h.used_iff r).mpr ⟨i, b, hb, hr⟩

/-- An entry exchanges nothing. -/
lemma exchange_refl (h : Owned table held used) {i : ι} {b : β} (hb : table i = some b) :
    Exchange (held b) (held b) used used :=
  .refl (h.nodup i b hb) fun _ hr => h.used_of_mem hb hr

variable [DecidableEq ι]

/-- **An entry is changed.** -/
theorem update (h : Owned table held used) {i : ι} {o : Option β}
    (hx : Exchange (heldBy held (table i)) (heldBy held o) used used') :
    Owned (Function.update table i o) held used' := by
  -- what another entry holds is not among the resources of the new one
  have hother : ∀ j c r, j ≠ i → table j = some c → r ∈ held c → r ∉ heldBy held o := by
    intro j c r hj hc hr ho
    rcases hx.fresh r ho with hold | hfree
    · obtain ⟨b, hb, hrb⟩ := mem_heldBy.mp hold
      exact hj (h.unique j i c b r hc hb hr hrb)
    · exact hfree (h.used_of_mem hc hr)
  refine ⟨fun r => ?_, fun j b hb => ?_, fun j k b c r hb hc hrb hrc => ?_⟩
  · rw [hx.used_iff, h.used_iff]
    constructor
    · rintro (ho | ⟨⟨j, b, hb, hr⟩, hold⟩)
      · obtain ⟨b, rfl, hr⟩ := mem_heldBy.mp ho
        exact ⟨i, b, Function.update_self .., hr⟩
      · have hj : j ≠ i := by
          rintro rfl
          exact hold (mem_heldBy.mpr ⟨b, hb, hr⟩)
        exact ⟨j, b, by rwa [Function.update_of_ne hj], hr⟩
    · rintro ⟨j, b, hb, hr⟩
      by_cases hj : j = i
      · rw [hj, Function.update_self] at hb
        exact Or.inl (mem_heldBy.mpr ⟨b, hb, hr⟩)
      · rw [Function.update_of_ne hj] at hb
        refine Or.inr ⟨⟨j, b, hb, hr⟩, fun hold => hj ?_⟩
        obtain ⟨b', hb', hr'⟩ := mem_heldBy.mp hold
        exact h.unique j i b b' r hb hb' hr hr'
  · by_cases hj : j = i
    · rw [hj, Function.update_self] at hb
      have hnodup := hx.nodup
      rwa [hb] at hnodup
    · rw [Function.update_of_ne hj] at hb
      exact h.nodup j b hb
  · by_cases hj : j = i <;> by_cases hk : k = i
    · rw [hj, hk]
    · rw [hj, Function.update_self] at hb
      rw [Function.update_of_ne hk] at hc
      exact absurd (mem_heldBy.mpr ⟨b, hb, hrb⟩) (hother k c r hk hc hrc)
    · rw [Function.update_of_ne hj] at hb
      rw [hk, Function.update_self] at hc
      exact absurd (mem_heldBy.mpr ⟨c, hc, hrc⟩) (hother j b r hj hb hrb)
    · rw [Function.update_of_ne hj] at hb
      rw [Function.update_of_ne hk] at hc
      exact h.unique j k b c r hb hc hrb hrc

/-- An entry is changed that goes on to hold what it held. -/
lemma keep (h : Owned table held used) {i : ι} {b b' : β} (hb : table i = some b)
    (hheld : held b' = held b) : Owned (Function.update table i (some b')) held used := by
  refine h.update ?_
  rw [hb, heldBy_some, heldBy_some, hheld]
  exact h.exchange_refl hb

end Owned

end LibCmutils
